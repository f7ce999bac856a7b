import ParamLens.Text.Basic

/-! Removing the indentation that all lines of a text share. -/

namespace ParamLens.Text

/-- A space or a tab: what indentation is made of. -/
def isIndent (c : Char) : Bool := c == ' ' || c == '\t'

/-- The characters on which two indentations agree, from the start. -/
def commonStart : List Char → List Char → List Char
  | a :: as, b :: bs => if a = b then a :: commonStart as bs else []
  | _, _ => []

/-- A line of spaces and tabs only becomes empty. -/
def clearIndent (line : List Char) : List Char := if line.all isIndent then [] else line

/-- The indentation shared by all lines that hold more than indentation. -/
def sharedIndent (ls : List (List Char)) : List Char :=
  match (ls.filter (·.any (! isIndent ·))).map (·.takeWhile isIndent) with
  | [] => []
  | indent :: indents => indents.foldl commonStart indent

/-- The text without the indentation that its lines share; lines of spaces and tabs only become
empty. -/
def dedent (s : String) : String :=
  let ls := (splitChars '\n' s.toList).map clearIndent
  let margin := sharedIndent ls
  unlines (ls.map fun line =>
    String.ofList (if margin.isPrefixOf line then line.drop margin.length else line))

end ParamLens.Text
