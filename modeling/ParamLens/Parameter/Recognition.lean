import ParamLens.Imports.Binding
import ParamLens.Syntax.Statement

/-! Recognising the assignments that declare parameters. -/

namespace ParamLens

open Syntax

/-- What is known when a declaration is to be recognised: the names that imports bind and the
dotted names of the parameter types. -/
structure Recognition where
  imports : Imports
  types : List String

namespace Recognition

/-- The name of the called function: a plain name or the last name of a chain. -/
def calledName? (function : Node) : Option String :=
  match function.kind with
  | .identifier => some function.text
  | .attribute => (function.child? .attribute).map Node.text
  | _ => none

/-- The imported name stands for a parameter type: one of the known types, for a relative import
one with the same last component, or anything of the `param` module. -/
def isParameterType (r : Recognition) (full : String) : Bool :=
  r.types.contains full ||
    (Text.startsWith full "." && r.types.any (Text.endsWith · ("." ++ Dotted.last full))) ||
    Text.startsWith full "param."

/-- The function is taken from a name bound to the `param` module. -/
def isFromParam (r : Recognition) (function : Node) : Bool :=
  function.kind == .attribute &&
    match function.child? .object with
    | some object => object.kind == .identifier && r.imports.get? object.text == some "param"
    | none => false

/-- A call that makes a parameter. -/
def isParameterCall (r : Recognition) (call : Node) : Bool :=
  call.kind == .call &&
    match call.child? .function with
    | none => false
    | some function =>
      (match (calledName? function).filter (· != "") with
        | some name => (r.imports.get? name).any r.isParameterType
        | none => false) || r.isFromParam function

/-- An assignment that declares a parameter. -/
def isParameterAssignment (r : Recognition) (n : Node) : Bool :=
  n.assignedCall?.any r.isParameterCall

end Recognition

/-- A call written as a member of `param`, whatever the imports say. -/
def isQualifiedCall (call : Node) : Bool :=
  call.kind == .call &&
    match call.child? .function with
    | none => false
    | some function =>
      function.kind == .attribute && (function.child? .attribute).isSome &&
        match function.child? .object with
        | some object => object.kind == .identifier && object.text == "param"
        | none => false

/-- An assignment of a call written as a member of `param`. -/
def isQualifiedAssignment (n : Node) : Bool := n.assignedCall?.any isQualifiedCall

end ParamLens
