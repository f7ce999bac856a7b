import ParamLens.Check.Known

/-! Checking the names on which methods say that they depend. -/

namespace ParamLens.Check

open Syntax

/-- The nearest class around a node that is known by its name, with its name. -/
def knownClassAround? (k : Known) (ancestors : List Node) : Option (String × Node) :=
  ancestors.findSome? fun n =>
    if n.kind == .classDefinition then
      (n.className?.filter fun name =>
        (k.classes.keyOf? name).isSome || k.external.contains name).map fun name => (name, n)
    else none

/-- The names of the parameters of a class node: of the library class of the name, or else of the
class of the file under its key. -/
def parametersOf (k : Known) (name : String) (n : Node) : List String :=
  match k.external? name with
  | some c => c.parameterNames
  | none => ((k.classes.get? (Classes.key name n.row)).map ParamClass.parameterNames).getD []

/-- The names of the parameters of the first class with the name, in the file or else in a
library. -/
def parametersNamed (k : Known) (name : String) : List String :=
  (((k.classes.named? name).or (k.external? name)).map ParamClass.parameterNames).getD []

/-- The function that an item of a class body defines. -/
def functionOf? (item : Node) : Option Node :=
  match item.kind with
  | .functionDefinition => some item
  | .decoratedDefinition => item.childOfKind? .functionDefinition
  | _ => none

/-- The names of the methods of a class node. -/
def methodsOf (n : Node) : List String :=
  ((n.children.filter (·.kind == .block)).flatMap (·.children)).filterMap fun item =>
    (((functionOf? item).bind (·.child? .name)).map Node.text).filter (· != "")

/-- The text without all of a character at its ends. -/
def stripChar (c : Char) (s : String) : String :=
  String.ofList (((s.toList.dropWhile (· == c)).reverse.dropWhile (· == c)).reverse)

/-- The names that a decorator gives, each with its node. -/
def dependencies (decorator : Node) : List (String × Node) :=
  match (decorator.childOfKind? .call).bind (·.child? .arguments) with
  | none => []
  | some list =>
    (list.children.filter fun n => n.kind == .string && n.text != "").map fun n =>
      (stripChar (Char.ofNat 39) (stripChar '"' n.text), n)

/-- The types of parameters that can hold objects with parameters. -/
def holdsObjects (typeName : String) : Bool :=
  typeName == "Parameter" || typeName == "ClassSelector" || typeName == "ObjectSelector" ||
    typeName == "Selector"

/-- The name is valid: a parameter with something said about it, a member of a parameter that can
hold objects, or a parameter or method. -/
def isValidDependency (k : Known) (parameters methods : List String) (className name : String) :
    Bool :=
  if name.toList.contains ':' then parameters.contains ((Text.split ':' name).headD "")
  else if name.toList.contains '.' then
    let base := (Text.split '.' name).headD ""
    parameters.contains base &&
      (k.parameter? className base).any fun p => holdsObjects p.typeName
  else parameters.contains name || methods.contains name

/-- The diagnostics for a decorator. -/
def decoratorDiagnostics (k : Known) (place : Node.Located) : List Diagnostic :=
  match knownClassAround? k place.ancestors with
  | none => []
  | some (className, n) =>
    match parametersOf k className n with
    | [] => []
    | parameters =>
      (dependencies place.node).filterMap fun (name, site) =>
        if isValidDependency k parameters (methodsOf n) className name then none
        else some (.atNode site .unknownDependency
          s!"Parameter '{name}' does not exist in class '{className}'")

end ParamLens.Check
