import ParamLens.Library.Matching
import ParamLens.Library.Requirement
import ParamLens.Library.Store
import ParamLens.Library.Survey
import ParamLens.Parameter.Declaration

/-! The parameters of a library's class: its own, and those it inherits along its bases. A base that
is in the store stands for all that it inherits itself. -/

namespace ParamLens.Library

open Syntax

mutual

/-- The assignments below a class body that declare parameters. Bodies of functions and of inner
classes are left out. -/
def declarationsIn (r : Recognition) : Node → List Node
  | ⟨_, _, _, _, children⟩ => declarationsAmong r children

/-- The assignments that declare parameters among statements and below them. -/
def declarationsAmong (r : Recognition) : List Node → List Node
  | [] => []
  | child :: rest =>
    (if child.kind == .expressionStatement then
      child.children.filter fun n => n.kind == .assignment && r.isParameterAssignment n
    else if child.kind == .assignment && r.isParameterAssignment child then [child]
    else match child.kind with
      | .functionDefinition | .asyncFunctionDefinition | .classDefinition => []
      | _ => declarationsIn r child) ++ declarationsAmong r rest

end

/-- The parameters that a class declares itself. Declarations are recognised by `r`, and their
types are read by `imports`. -/
def ownParameters (r : Recognition) (imports : Imports) (content : String) (n : Node) :
    List Parameter :=
  match n.child? .body with
  | none => []
  | some body =>
    (declarationsIn r body).filterMap fun assignment =>
      (assignment.target?.filter (· != "")).map
        (Declaration.parameter imports content assignment)

/-- The table of parameters by their names. -/
def byName (parameters : List Parameter) : Table Parameter :=
  Table.ofList (parameters.map fun p => (p.name, p))

/-- What is fixed while the classes of a library are completed. -/
structure Ancestry where
  infos : Table Info
  bases : Table (List String)
  definitions : Table Definition

/-- The full name of a base of a class, for a look-up in the store. -/
def Ancestry.storedName? (a : Ancestry) (name base : String) : Option String :=
  if Text.startsWith base "." then
    let isPackage := (a.definitions.get? name).any fun d => isPackageFile d.file
    (resolveRelative? base (Dotted.parent name) isPackage).filter (· != "")
  else some base

/-- The class in the store that a base of a class names. -/
def Ancestry.stored? (a : Ancestry) (name base : String) : StateM Store (Option ParamClass) :=
  let library := Dotted.first name
  match a.infos.get? library, (a.storedName? name base).filter (· != "") with
  | some info, some full => Store.find? library full info.version
  | _, _ => pure none

/-- Adds to a class what it inherits along the bases of the class `name`; parameters that it has
stay as they are. `path` holds the classes between the two, and no class is entered twice on one
path. -/
def Ancestry.inherit (a : Ancestry) (r : Recognition) :
    Nat → List String → String → ParamClass → StateM Store ParamClass
  | 0, _, _, c => pure c
  | fuel + 1, path, name, c =>
    if path.contains name then pure c
    else ((a.bases.get? name).getD []).foldlM (fun c base => do
      if isParameterizedRoot base (some (Dotted.first name)) then return c
      match ← a.stored? name base with
      | some parent => return c.merge parent.parameters
      | none =>
        match a.definitions.get? base with
        | none => return c
        | some d =>
          a.inherit r fuel (name :: path) base
            (c.merge (byName (ownParameters r d.imports d.content d.node)))) c

/-- A class with its own parameters. -/
def ownClass (types : List String) (d : Definition) (name : String) : ParamClass :=
  (ownParameters ⟨d.imports, types⟩ d.imports d.content d.node).foldl ParamClass.add (.ofName name)

/-- A class of the library with all its parameters. -/
def Ancestry.complete (a : Ancestry) (types : List String) (path : String) (d : Definition) :
    StateM Store ParamClass :=
  a.inherit ⟨d.imports, types⟩ (a.definitions.size + 1) [] path
    (ownClass types d ((d.node.className?).getD ""))

end ParamLens.Library
