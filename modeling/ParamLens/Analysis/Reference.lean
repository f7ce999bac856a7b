import ParamLens.Analysis.Analyzer

/-! The class that a name in a text refers to: the class itself, or for a variable the class of
which an instance is assigned to it. -/

namespace ParamLens.Analysis

open Syntax

/-- The sides of the assignments of a tree, in the order in which they are found. -/
def assignments (f : Finder) (root : Node) : List (Node × Node) :=
  (f.nodes .assignments root).filterMap fun n =>
    match n.child? .left, n.child? .right with
    | some left, some right => some (left, right)
    | _, _ => none

/-- The names of the classes of which the calls assigned to the variable of the name make
instances. -/
def assignedClasses (f : Finder) (root : Node) (name : String) : List String :=
  (assignments f root).filterMap fun (left, right) =>
    if left.text = name ∧ right.kind = .call then
      ((right.child? .function).map fun function => Dotted.ofComponents function.chain).filter
        (· != "")
    else none

/-- The key of a class with the key or the name. -/
def keyFor? (classes : Classes) (name : String) : Option String :=
  if classes.contains name then some name else classes.keyOf? name

/-- The full name of a dotted name whose first component an import binds. -/
def boundPath? (imports : Imports) (name : String) : Option String :=
  match Dotted.components name with
  | first :: next :: rest =>
    (imports.get? first).map fun full => Dotted.append full (Dotted.ofComponents (next :: rest))
  | _ => none

/-- The first of the assigned classes that is known: its key, or its name when it is a class of a
library. -/
def firstKnown (w : World) (classes : Classes) : List String → AnalysisM (Option String)
  | [] => return none
  | name :: rest => do
    match keyFor? classes name with
    | some key => return some key
    | none =>
      match boundPath? (← get).analyzer.latest.imports name with
      | none => firstKnown w classes rest
      | some path =>
        if (← externalClass w (some path)).isSome then return some name
        else firstKnown w classes rest

/-- The class that a name refers to in a text: the key of a class of the file, or the dotted name of
a class of a library. -/
def resolveName (w : World) (name : String) (classes : Classes) (content : String) :
    AnalysisM (Option String) := do
  match keyFor? classes name with
  | some key => return some key
  | none =>
    match w.parse? content with
    | none => return none
    | some root => firstKnown w classes (assignedClasses w.finder root name)

/-- The path of a source file from the directory of its library on; the name of the file alone
when the path does not pass through that directory. -/
def libraryRelative (file : Path) (module : String) : String :=
  let library := Dotted.first module
  let after := (Library.pathComponents file).reverse.takeWhile (· != library)
  if after.length < (Library.pathComponents file).length then
    Text.join "/" (library :: after.reverse)
  else library ++ "/" ++ file.name

end ParamLens.Analysis
