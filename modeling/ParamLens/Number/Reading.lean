import ParamLens.Number.Basic
import ParamLens.Text.Blank
import ParamLens.Text.Numeral

/-! Reading the text of a number. Blanks around it do not count, an underscore may stand between
two digits, and the digits may be those of any script. -/

namespace ParamLens.Number

/-- Integers with more digits than this are not read. -/
def digitLimit : Nat := 4300

/-- A text made plain: blanks at its ends dropped, and every digit written with the digits of
ASCII. -/
def plain (s : String) : List Char :=
  (Text.trimEndChars (Text.trimStartChars s.toList)).map fun c =>
    match Text.decimalValue? c with
    | some value => Nat.digitChar value
    | none => c

/-- The characters without their underscores, when each underscore stands between two digits;
`afterDigit` tells whether a digit comes before. -/
def dropUnderscores (afterDigit : Bool) : List Char → Option (List Char)
  | [] => some []
  | '_' :: rest =>
    if afterDigit && rest.head?.any Char.isDigit then dropUnderscores false rest else none
  | c :: rest => (dropUnderscores c.isDigit rest).map (c :: ·)

/-- A sign at the start, and the rest. -/
def splitSign : List Char → Bool × List Char
  | '-' :: rest => (true, rest)
  | '+' :: rest => (false, rest)
  | rest => (false, rest)

/-- The value of digits of ASCII. -/
def digitsValue (digits : List Char) : Nat :=
  digits.foldl (fun n c => n * 10 + (c.toNat - 48)) 0

/-- The integer that a text writes. -/
def readInt? (s : String) : Option Int := do
  let (negative, digits) := splitSign (← dropUnderscores false (plain s))
  if digits.isEmpty || !digits.all Char.isDigit || digitLimit < digits.length then none
  else
    let value : Int := digitsValue digits
    some (if negative then -value else value)

/-- An exponent part: a letter e, a sign and digits; zero when nothing is left. -/
def readExponent? : List Char → Option Int
  | [] => some 0
  | mark :: rest =>
    if mark = 'e' ∨ mark = 'E' then
      let (negative, digits) := splitSign rest
      if digits.isEmpty || !digits.all Char.isDigit then none
      else
        let value : Int := digitsValue digits
        some (if negative then -value else value)
    else none

/-- The floating-point number that a text writes. -/
def readFloat? (s : String) : Option Binary64 := do
  let (negative, body) := splitSign (← dropUnderscores false (plain s))
  let word := String.ofList (body.map Char.toLower)
  if word = "inf" ∨ word = "infinity" then some (.infinite negative)
  else if word = "nan" then some .nan
  else
    let whole := body.takeWhile Char.isDigit
    let rest := body.dropWhile Char.isDigit
    let (fraction, rest) := match rest with
      | '.' :: more => (more.takeWhile Char.isDigit, more.dropWhile Char.isDigit)
      | _ => ([], rest)
    if whole.isEmpty && fraction.isEmpty then none
    else
      let exponent ← readExponent? rest
      some (Binary64.ofDecimal negative (digitsValue (whole ++ fraction))
        (exponent - fraction.length))

end ParamLens.Number
