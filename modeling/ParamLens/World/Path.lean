import ParamLens.Text.Basic

/-! Paths of files: an optional root and the components below it. Empty components and single
dots are left out; double dots stay. -/

namespace ParamLens

/-- A path. -/
structure Path where
  absolute : Bool
  parts : List String
deriving DecidableEq, Repr, Inhabited

namespace Path

/-- The path that a text writes. -/
def ofText (s : String) : Path :=
  ⟨Text.startsWith s "/", (Text.split '/' s).filter fun part => part != "" && part != "."⟩

/-- The text of a path. -/
def text (p : Path) : String :=
  if p.absolute then "/" ++ Text.join "/" p.parts
  else if p.parts.isEmpty then "." else Text.join "/" p.parts

/-- The last component; the root has an empty one. -/
def name (p : Path) : String := p.parts.getLastD ""

/-- The path without its last component. -/
def parent (p : Path) : Path := { p with parts := p.parts.dropLast }

/-- The path followed by what a text writes; an absolute text replaces the path. -/
def join (p : Path) (s : String) : Path :=
  let more := ofText s
  if more.absolute then more else { p with parts := p.parts ++ more.parts }

/-- The characters of a file name before its ending and the ending with its dot. A dot at the
start or at the end of the name begins no ending. -/
def splitEnding (name : String) : String × String :=
  let reversed := name.toList.reverse
  let ending := reversed.takeWhile (· != '.')
  let stem := (reversed.drop (ending.length + 1)).reverse
  if ending.isEmpty || stem.isEmpty then (name, "")
  else (String.ofList stem, String.ofList ('.' :: ending.reverse))

/-- The last component without its ending. -/
def stem (p : Path) : String := (splitEnding p.name).1

/-- The ending of the last component, with its dot. -/
def ending (p : Path) : String := (splitEnding p.name).2

/-- The path with another ending, if it has a last component to change. -/
def withEnding? (p : Path) (ending : String) : Option Path :=
  if p.parts.isEmpty then none
  else some { p with parts := p.parts.dropLast ++ [p.stem ++ ending] }

/-- The components of `p` below `base`. -/
def below? (p base : Path) : Option (List String) :=
  if p.absolute == base.absolute && base.parts.isPrefixOf p.parts then
    some (p.parts.drop base.parts.length)
  else none

/-- The paths above this one, nearest first. -/
def parents (p : Path) : List Path :=
  (List.range p.parts.length).map fun n => { p with parts := p.parts.take (p.parts.length - 1 - n) }

/-- The root, if there is one, and the components. -/
def steps (p : Path) : List String := if p.absolute then "/" :: p.parts else p.parts

/-- Paths are ordered step by step. -/
def before (p q : Path) : Bool := !q.steps.lex p.steps

/-- Paths in their order. -/
def sorted (paths : List Path) : List Path := paths.mergeSort before

end Path

end ParamLens
