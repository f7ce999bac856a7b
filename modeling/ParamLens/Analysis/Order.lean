import ParamLens.Syntax.Statement

/-! The order in which the classes of a file are taken: a class after those of its bases that the
file defines. When only circles are left, their classes follow as they stand. -/

namespace ParamLens.Analysis

open Syntax

/-- The class waits for none of its bases: each base that is a plain name is not defined in the
file, or its name is done. -/
def isReady (defined : List (Option String)) (done : List String) (n : Node) : Bool :=
  n.bases.all fun base =>
    !(base.kind == .identifier && defined.contains (some base.text) && !done.contains base.text)

/-- One pass over the classes: those that are ready are taken, and a class that is taken makes
others ready. The answer holds the classes taken, those left, and the names done. -/
def takeReady (defined : List (Option String)) :
    List String → List (Node × String) → List Node × List (Node × String) × List String
  | done, [] => ([], [], done)
  | done, (n, name) :: rest =>
    if isReady defined done n then
      let (taken, left, names) := takeReady defined (done ++ [name]) rest
      (n :: taken, left, names)
    else
      let (taken, left, names) := takeReady defined done rest
      (taken, (n, name) :: left, names)

/-- Passes until one takes nothing, at most `fuel` of them; what is left then follows. -/
def takeAll (defined : List (Option String)) :
    Nat → List String → List (Node × String) → List Node
  | 0, _, left => left.map Prod.fst
  | fuel + 1, done, left =>
    match takeReady defined done left with
    | ([], rest, _) => rest.map Prod.fst
    | (taken, rest, names) => taken ++ takeAll defined fuel names rest

/-- The named classes among the nodes, in the order in which they are taken. -/
def classOrder (nodes : List Node) : List Node :=
  let named := nodes.filterMap fun n => n.className?.map fun name => (n, name)
  takeAll (nodes.map Node.nameText?) named.length [] named

end ParamLens.Analysis
