import ParamLens.Check.Diagnostic
import ParamLens.Parameter.Basic
import ParamLens.Imports.Binding
import ParamLens.Syntax.Statement

/-! What checks know about classes: those of the file by their keys, and those of libraries by their
full names. -/

namespace ParamLens.Check

open Syntax

/-- What checks know, and how they search. -/
structure Known where
  classes : Classes
  external : Table (Option ParamClass)
  imports : Imports
  isDeclaration : Node → Bool
  finder : Finder := .inText

namespace Known

/-- The class of a library with the full name. -/
def external? (k : Known) (name : String) : Option ParamClass := (k.external.get? name).join

/-- The name belongs to a known class: it is the key of one of the file, or the full name of one of
a library. -/
def isClass (k : Known) (name : String) : Bool :=
  k.classes.contains name || (k.external? name).isSome

/-- The parameter of a class of the file: of the class with the key, or else of the first class
with the name that has it. -/
def local? (k : Known) (className name : String) : Option Parameter :=
  match (if className.toList.contains ':' then k.classes.get? className else none) with
  | some c => c.get? name
  | none => (k.classes.entries.filter fun entry => Classes.keyHasName className entry.1).findSome?
      fun entry => entry.2.get? name

/-- The parameter of a class of the file, or else of a library. -/
def parameter? (k : Known) (className name : String) : Option Parameter :=
  (k.local? className name).or ((k.external? className).bind (·.get? name))

/-- The key of a class node under which it is known. -/
def keyOf? (k : Known) (n : Node) : Option String :=
  ((n.className?).map (Classes.key · n.row)).filter k.classes.contains

end Known

/-- The name of a class as it is shown: a key without its row. -/
def shownName (className : String) : String := (Text.split ':' className).headD ""

variable {σ : Type}

/-- How checks ask for a class of a library by its full name. -/
abbrev AskClass (σ : Type) := String → StateM σ (Option ParamClass)

/-- The class of which a call makes an instance: a class of the file by its key, a class of a
library by its full name, or else the name that is called. -/
def instanceClass? (k : Known) (ask : AskClass σ) (call : Node) : StateM σ (Option String) :=
  match (if call.kind == .call then call.children.head? else none) with
  | none => pure none
  | some function =>
    match function.kind with
    | .identifier => pure (some ((k.classes.keyOf? function.text).getD function.text))
    | .attribute => do
      let last := (function.child? .attribute).map Node.text
      match last.bind k.classes.keyOf? with
      | some key => return some key
      | none =>
        match Imports.expand k.imports function.chain with
        | none => return last
        | some path => return if (← ask path).isSome then some path else last
    | _ => pure none

end ParamLens.Check
