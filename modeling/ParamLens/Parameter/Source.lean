import ParamLens.Text.Basic
import ParamLens.Text.Blank
import ParamLens.Text.Numeral

/-! The text of a declaration: from its first line to the line on which its brackets are closed. -/

namespace ParamLens.Source

/-- The open brackets after some text, and the quote of an open string. -/
structure Nesting where
  parens : Int := 0
  brackets : Int := 0
  braces : Int := 0
  quote : Option Char := none
deriving DecidableEq, Repr

namespace Nesting

/-- A quote character, single or double. -/
def isQuote (c : Char) : Bool := c == '"' || c == Char.ofNat 39

/-- The open string after a quote character: one begins, ends, or goes on. -/
def quoted (open? : Option Char) (c : Char) : Option Char :=
  match open? with
  | none => some c
  | some q => if c = q then none else some q

/-- The brackets after a character outside of strings. -/
def count (s : Nesting) (c : Char) : Nesting :=
  match c with
  | '(' => { s with parens := s.parens + 1 }
  | ')' => { s with parens := s.parens - 1 }
  | '[' => { s with brackets := s.brackets + 1 }
  | ']' => { s with brackets := s.brackets - 1 }
  | '\x7b' => { s with braces := s.braces + 1 }
  | '\x7d' => { s with braces := s.braces - 1 }
  | _ => s

/-- The nesting after the characters of a line; `escaped` says that a backslash stands before
them. -/
def advance (s : Nesting) (escaped : Bool) : List Char → Nesting
  | [] => s
  | c :: rest =>
    let t := if isQuote c && !escaped then { s with quote := quoted s.quote c } else s
    let u := if t.quote.isNone then t.count c else t
    u.advance (c == '\\') rest

/-- No bracket is open. -/
def isClosed (s : Nesting) : Bool := s.parens ≤ 0 && s.brackets ≤ 0 && s.braces ≤ 0

end Nesting

/-- The lines up to the first one after which no bracket is open. -/
def closingLines (s : Nesting) : List String → List String
  | [] => []
  | line :: rest =>
    let t := s.advance false line.toList
    if t.isClosed then [line] else line :: closingLines t rest

/-- The text that begins on the line with the given index, to the line that closes its brackets. -/
def definition (ls : List String) (start : Nat) : String :=
  Text.trim (Text.unlines ((closingLines {} (ls.drop start)).map Text.trimEnd))

/-- The text after the first equals sign. -/
def afterEquals? (line : String) : Option String :=
  match line.toList.dropWhile (· != '=') with
  | [] => none
  | _ :: rest => some (String.ofList rest)

/-- All characters are digits, and there is one. -/
def isDigits (s : String) : Bool := !s.isEmpty && s.toList.all Text.isDigit

/-- The line looks like the declaration of a parameter: a call is assigned, and no plain value. -/
def looksLikeDeclaration (line : String) : Bool :=
  match (afterEquals? line).map Text.trim with
  | none => false
  | some right =>
    right.toList.contains '(' &&
      !(["'", "\"", "[", "\x7b", "True", "False"].any (Text.startsWith right)) &&
      !isDigits (Text.without (Text.without right '.') '_')

/-- The line declares a parameter of the name. -/
def declares (name line : String) : Bool :=
  (Text.contains line (name ++ " =") || Text.contains line (name ++ "=")) &&
    !Text.startsWith (Text.trim line) "#" && looksLikeDeclaration line

/-- The index of the first line that declares a parameter of the name. -/
def declarationIndex? (ls : List String) (name : String) : Option Nat := ls.findIdx? (declares name)

/-- The declaration of a parameter of the name. -/
def declaration? (ls : List String) (name : String) : Option String :=
  (declarationIndex? ls name).map (definition ls)

/-- The line that declares a parameter of the name, for lines that begin at `start`. -/
def declarationLine? (ls : List String) (start : Int) (name : String) : Option Int :=
  (declarationIndex? ls name).map (start + Int.ofNat ·)

/-- The definition that begins on the line with the given index, its first line with the
indentation it has there. -/
def indentedDefinition (ls : List String) (index : Nat) : String :=
  let found := definition ls index
  match Text.lines found, ls[index]? with
  | first :: rest, some line =>
    if found ≠ "" ∧ Text.trimStart line = first then Text.unlines (line :: rest) else found
  | _, _ => found

end ParamLens.Source
