import ParamLens.Syntax.Finder
import ParamLens.Syntax.Name
import ParamLens.Table

/-! Import statements and the names that they bind. -/

namespace ParamLens

open Syntax

/-- The names that the imports of a file bind, each with the dotted name that it stands for. -/
abbrev Imports := Table String

namespace Imports

/-- How the names after `from … import` are bound. -/
inductive Naming where
  /-- A name is bound as it is written. -/
  | whole
  /-- A dotted name is bound to its last component. -/
  | lastComponent
deriving DecidableEq, Repr

/-- The alias that an import gives, if it gives one. -/
def alias? (n : Node) : Option String := ((n.child? .alias).map Node.text).filter (· != "")

/-- The name and what it stands for in one part of a plain import. -/
def plainBinding? (part : Node) : Option (String × String) :=
  match part.kind with
  | .aliasedImport => do
    let name ← (← part.child? .name).dotted?
    if name = "" then none else some ((alias? part).getD name, name)
  | .dottedName | .identifier => do
    let name ← part.dotted?
    if name = "" then none else some (name, name)
  | _ => none

/-- What a plain import binds. -/
def plainBindings (n : Node) : List (String × String) := n.children.filterMap plainBinding?

/-- The name and what it stands for in one part of an import of names from a module. -/
def memberBinding? (naming : Naming) (module : String) (part : Node) : Option (String × String) :=
  match part.kind with
  | .aliasedImport => do
    let name ← part.child? .name
    let imported ← match naming with
      | .whole => some name.text
      | .lastComponent => name.dotted?
    if imported = "" then none
    else some ((alias? part).getD imported, Dotted.append module imported)
  | .dottedName | .identifier => do
    let imported ← part.dotted?
    if imported = "" ∨ imported = "from" ∨ imported = "import" then none
    else match naming with
      | .whole => some (imported, Dotted.append module imported)
      | .lastComponent => some (Dotted.last imported, Dotted.append module imported)
  | _ => none

/-- The parts of an import of names from a module: all children but the module's name. -/
def memberParts : List Node → List Node
  | [] => []
  | child :: rest =>
    if child.role == some .moduleName then
      if child.kind == .aliasedImport then child :: rest else rest
    else child :: memberParts rest

/-- What an import of names from a module binds. -/
def memberBindings (naming : Naming) (n : Node) : List (String × String) :=
  match (n.child? .moduleName).bind Node.dotted? with
  | none => []
  | some module =>
    if module = "" then []
    else (memberParts n.children).filterMap (memberBinding? naming module)

/-- What an import statement binds. -/
def bindings (naming : Naming) (n : Node) : List (String × String) :=
  match n.kind with
  | .importStatement => plainBindings n
  | .importFromStatement => memberBindings naming n
  | _ => []

/-- The names bound by the imports of a tree; of two bindings of a name the one found later
counts. -/
def ofTree (f : Finder) (root : Node) : Imports :=
  Table.ofList ((f.nodes .imports root).flatMap (bindings .whole))

/-- The dotted name of a class after its first component is replaced by what it stands for. -/
def expand (imports : Imports) : List String → Option String
  | [] => none
  | first :: rest => some (Dotted.ofComponents ((imports.get? first).getD first :: rest))

/-- The dotted name of the class that an expression names: a plain name, a chain of attributes, or
the function of a call. -/
def classPath? (imports : Imports) (n : Node) : Option String :=
  match n.kind with
  | .call =>
    match _ : n.child? .function with
    | some function => classPath? imports function
    | none => none
  | _ => expand imports n.chain
termination_by sizeOf n
decreasing_by exact Node.sizeOf_child?_lt ‹_›

/-- The names of a node whose parts are plain name tokens, alone or after a dot. -/
def tokenChain (n : Node) : List String :=
  n.children.flatMap fun child =>
    if child.kind == .nameToken then [child.text]
    else if child.kind == .trailer then
      (child.children.filter (·.kind == .nameToken)).map Node.text
    else []

/-- The dotted name of the class that a node of name tokens writes. -/
def tokenPath? (imports : Imports) (n : Node) : Option String := expand imports (tokenChain n)

end Imports

end ParamLens
