import ParamLens.Text.Basic
import ParamLens.Text.Blank
import ParamLens.Text.Numeral

/-! Scanning the characters before the cursor: the places that are not behind a comment sign, words
and dotted names at a place, and what may follow them. -/

namespace ParamLens.Editor.Scan

open Text

/-- The rests of a text, from the whole text to the empty one. -/
def rests : List Char → List (List Char)
  | [] => [[]]
  | c :: rest => (c :: rest) :: rests rest

/-- The rests of a text that do not begin behind a comment sign of their line. `hidden` says whether
a comment sign stands before on the present line. -/
def visibleFrom (hidden : Bool) : List Char → List (List Char)
  | [] => if hidden then [] else [[]]
  | c :: rest =>
    let more := visibleFrom (if c = '\n' then false else hidden || c = '#') rest
    if hidden then more else (c :: rest) :: more

/-- The rests of a text that do not begin behind a comment sign of their line. -/
def visible (cs : List Char) : List (List Char) := visibleFrom false cs

/-- The word at the start. -/
def word (cs : List Char) : List Char := cs.takeWhile isWordChar

/-- What follows the word at the start. -/
def afterWord (cs : List Char) : List Char := cs.dropWhile isWordChar

/-- What follows the blanks at the start. -/
def skipBlanks (cs : List Char) : List Char := cs.dropWhile isBlank

/-- What follows the given characters at the start. -/
def strip? (mark : String) (cs : List Char) : Option (List Char) :=
  if mark.toList.isPrefixOf cs then some (cs.drop mark.toList.length) else none

/-- The components of the dotted name at the start, as many as there are. -/
def nameComponents (cs : List Char) : List (List Char) :=
  (splitChars '.' (cs.takeWhile fun c => isWordChar c || c == '.')).takeWhile (!·.isEmpty)

/-- The name with the first `count` components, and what follows it. -/
def nameOf (cs : List Char) (count : Nat) : List Char × List Char :=
  let name := ['.'].intercalate ((nameComponents cs).take count)
  (name, cs.drop name.length)

/-- The dotted names at the start with what follows them, the longest first. -/
def names (cs : List Char) : List (List Char × List Char) :=
  ((List.range (nameComponents cs).length).reverse).map fun i => nameOf cs (i + 1)

/-- No closing parenthesis stands before the end of the line. -/
def isOpen (inside : List Char) : Bool :=
  !inside.contains ')' || (inside.takeWhile (· != ')')).contains '\n'

/-- An opening parenthesis follows, blanks aside, that is open at the end of the line. -/
def opensCall (cs : List Char) : Bool :=
  match skipBlanks cs with
  | '(' :: inside => isOpen inside
  | _ => false

/-- What follows the arguments of a call, blanks aside; without arguments nothing is left out. -/
def skipArguments (cs : List Char) : List Char :=
  match skipBlanks cs with
  | '(' :: inside =>
    match inside.dropWhile (· != ')') with
    | _ :: rest => skipBlanks rest
    | [] => '(' :: inside
  | other => other

/-- The word that reaches from the start to the end of the text. A line end may follow it. -/
def lastWord? (cs : List Char) : Option String :=
  let rest := afterWord cs
  if rest = [] ∨ rest = ['\n'] then some (String.ofList (word cs)) else none

/-- The word at the end of the text, when the mark stands before it. -/
def wordAfter? (mark : String) (text : String) : Option String :=
  (rests text.toList).findSome? fun cs => (strip? mark cs).bind lastWord?

end ParamLens.Editor.Scan
