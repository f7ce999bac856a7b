import ParamLens.Text.Basic
import ParamLens.Text.Printable

/-! Texts between quotes, as messages show them: what cannot be shown is written with a backslash,
and double quotes are taken only for a text that holds a single quote and no double one. -/

namespace ParamLens.Text

/-- The single quote. -/
def singleQuote : Char := Char.ofNat 39

/-- A number in hexadecimal digits, with zeros in front up to a width. -/
def hexadecimal (width n : Nat) : List Char :=
  let digits := Nat.toDigits 16 n
  List.replicate (width - digits.length) '0' ++ digits

/-- A character that cannot be shown, by its number. -/
def escapedNumber (c : Char) : List Char :=
  if c.toNat < 0x100 then '\\' :: 'x' :: hexadecimal 2 c.toNat
  else if c.toNat < 0x10000 then '\\' :: 'u' :: hexadecimal 4 c.toNat
  else '\\' :: 'U' :: hexadecimal 8 c.toNat

/-- A character inside the given quotes. -/
def escaped (quote c : Char) : List Char :=
  if c == quote || c == '\\' then ['\\', c]
  else if c == '\n' then ['\\', 'n']
  else if c == '\r' then ['\\', 'r']
  else if c == '\t' then ['\\', 't']
  else if isPrintable c then [c]
  else escapedNumber c

/-- The quote that a text is put in. -/
def quoteFor (s : String) : Char :=
  if s.toList.contains singleQuote && !s.toList.contains '"' then '"' else singleQuote

/-- The text between quotes. -/
def quoted (s : String) : String :=
  let quote := quoteFor s
  String.ofList (quote :: s.toList.flatMap (escaped quote) ++ [quote])

/-- The text between quotes with every character past the ASCII block written by its number. -/
def quotedPlainly (s : String) : String :=
  String.ofList ((quoted s).toList.flatMap fun c => if c.toNat < 0x80 then [c] else escapedNumber c)

end ParamLens.Text
