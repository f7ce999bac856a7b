import ParamLens.Library.Matching
import ParamLens.Table

/-! Which classes of a library have parameters, and which are parameter types. A class is marked
when it is a root, when it lists a root, and when one of its bases names a marked class; marking
goes on until nothing is added. -/

namespace ParamLens.Library

/-- The names with one more, unless it is there. -/
def mark (marked : List String) (name : String) : List String :=
  if marked.contains name then marked else marked ++ [name]

/-- Marks every class that satisfies the test. -/
def markWhere (test : String → List String → Bool) (bases : Table (List String))
    (marked : List String) : List String :=
  bases.entries.foldl (fun acc (name, listed) => if test name listed then mark acc name else acc)
    marked

/-- One pass over the classes: each one with a base that names a marked class is marked. -/
def sweep (names : List String → String → Bool) (bases : Table (List String))
    (marked : List String) : List String :=
  bases.entries.foldl (fun acc (name, listed) =>
    if !acc.contains name && listed.any (names acc) then acc ++ [name] else acc) marked

/-- Passes until one adds nothing, at most `fuel` of them. -/
def sweepAll (names : List String → String → Bool) (bases : Table (List String)) :
    Nat → List String → List String
  | 0, marked => marked
  | fuel + 1, marked =>
    let next := sweep names bases marked
    if next.length = marked.length then marked else sweepAll names bases fuel next

/-- The marked classes: those marked at the start, the roots, those that list a root, and all that
inherit from marked ones. -/
def detect (isRoot : String → Bool) (names : List String → String → Bool)
    (bases : Table (List String)) (start : List String) : List String :=
  let roots := markWhere (fun name _ => isRoot name) bases start
  let direct := markWhere (fun _ listed => listed.any isRoot) bases roots
  sweepAll names bases (bases.size + 1) direct

/-- The classes of a library that have parameters. -/
def parameterizedClasses (library : String) (bases : Table (List String)) : List String :=
  detect (isParameterizedRoot · (some library)) matchesParameterized bases []

/-- The parameter types: those known before, and those of a library. -/
def parameterTypes (library : String) (bases : Table (List String)) (known : List String) :
    List String :=
  detect (isParameterRoot · (some library)) matchesParameter bases known

end ParamLens.Library
