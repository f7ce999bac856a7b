import ParamLens.Imports.Binding
import ParamLens.Parameter.Basic
import ParamLens.Syntax.Statement

/-! Which classes of a file have parameters, and what they inherit. -/

namespace ParamLens.Analysis

open Syntax

/-- How classes outside of the file are asked for: by the name of the class and the name that it is
imported under, or by the full name. -/
structure Outside (m : Type → Type) where
  imported : String → String → m (Option ParamClass)
  external : Option String → m (Option ParamClass)

variable {m : Type → Type} [Monad m]

/-- The name is bound to the root of all classes with parameters. -/
def isBoundRoot (imports : Imports) (name : String) : Bool :=
  name == "Parameterized" && (imports.get? name).any (Text.contains · "param.Parameterized")

/-- The name is the root of all classes with parameters, as a member of its module. -/
def isMemberRoot (imports : Imports) : List String → Bool
  | [module, name] =>
    name == "Parameterized" &&
      (module == "param" || (imports.get? module).any (Text.endsWith · "param"))
  | _ => false

/-- A base makes a class one with parameters: it is the root, a class of the file, or a class
outside of the file. -/
def isParameterizedBase (outside : Outside m) (imports : Imports) (classes : Classes)
    (base : Node) : m Bool :=
  match base.kind with
  | .identifier =>
    let name := base.text
    if name = "" then pure false
    else if isBoundRoot imports name || (classes.keyOf? name).isSome then pure true
    else return (← outside.imported name name).isSome
  | .attribute =>
    let parts := base.chain
    if parts.length < 2 then pure false
    else if isMemberRoot imports parts then pure true
    else return (← outside.external (imports.classPath? base)).isSome
  | _ => pure false

/-- The class that a base names, if it has parameters. -/
def baseClass? (outside : Outside m) (imports : Imports) (classes : Classes) (base : Node) :
    m (Option ParamClass) :=
  match base.kind with
  | .identifier =>
    let name := base.text
    if name = "" then pure none
    else match classes.named? name with
      | some c => pure (some c)
      | none => outside.imported name name
  | .attribute | .call =>
    let path := imports.classPath? base
    if path = some "param.Parameterized" then pure none else outside.external path
  | _ => pure none

/-- The parameters that a class inherits, base after base; of two with the same name the later one
counts. -/
def inheritedParameters (outside : Outside m) (imports : Imports) (classes : Classes) (n : Node) :
    m (Table Parameter) :=
  n.bases.foldlM (fun found base => do
    match ← baseClass? outside imports classes base with
    | some c => return found.update c.parameters.entries
    | none => return found) ∅

end ParamLens.Analysis
