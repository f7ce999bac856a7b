import ParamLens.Json.Basic
import ParamLens.Number.Reading
import ParamLens.Text.Basic

/-! Reading values of the JSON format. A text that is no value is refused with the place of the
first fault. Besides the numbers of the format, the names of the three special floating-point
numbers are read. -/

namespace ParamLens.Json

/-- What is wrong with a text. -/
inductive Reason where
  | noValue
  | noName
  | noColon
  | noComma
  | openText
  | controlCharacter
  | badEscape
  | badNumberEscape
  | moreText
  | byteOrderMark
deriving DecidableEq, Repr

/-- The wording of a reason. -/
def Reason.message : Reason → String
  | .noValue => "Expecting value"
  | .noName => "Expecting property name enclosed in double quotes"
  | .noColon => "Expecting ':' delimiter"
  | .noComma => "Expecting ',' delimiter"
  | .openText => "Unterminated string starting at"
  | .controlCharacter => "Invalid control character at"
  | .badEscape => "Invalid \\escape"
  | .badNumberEscape => "Invalid \\uXXXX escape"
  | .moreText => "Extra data"
  | .byteOrderMark => "Unexpected UTF-8 BOM (decode using utf-8-sig)"

/-- A fault and the number of characters before it. -/
structure Fault where
  reason : Reason
  position : Nat
deriving DecidableEq, Repr

/-- The wording of a fault in a text, with its line and column counted from one. -/
def Fault.message (fault : Fault) (source : String) : String :=
  let before := source.toList.take fault.position
  let column := (before.reverse.takeWhile (· != '\n')).length + 1
  fault.reason.message ++ ": line " ++ toString (before.count '\n' + 1) ++ " column " ++
    toString column ++ " (char " ++ toString fault.position ++ ")"

/-- What was read, the number of characters up to its end, and the characters after it. -/
abbrev Part (α : Type) := α × Nat × List Char

/-- The blanks of the format. -/
def isSpace (c : Char) : Bool := c == ' ' || c == '\t' || c == '\n' || c == '\r'

/-- The place after blanks. -/
def skipSpace (position : Nat) (cs : List Char) : Nat × List Char :=
  (position + (cs.takeWhile isSpace).length, cs.dropWhile isSpace)

/-- The value of a hexadecimal digit. -/
def hexDigit? (c : Char) : Option Nat :=
  if c.isDigit then some (c.toNat - 48)
  else if 'a' ≤ c && c ≤ 'f' then some (c.toNat - 87)
  else if 'A' ≤ c && c ≤ 'F' then some (c.toNat - 55)
  else none

/-- The number that four hexadecimal digits write. -/
def hexNumber? (digits : List Char) : Option Nat := do
  let values ← digits.mapM hexDigit?
  return values.foldl (fun n d => n * 16 + d) 0

/-- The character that stands after a backslash for another one. -/
def escapes : List (Char × Char) :=
  [('"', '"'), ('\\', '\\'), ('/', '/'), ('b', '\x08'), ('f', '\x0c'), ('n', '\n'), ('r', '\r'),
   ('t', '\t')]

/-- The character with a number; a half of a pair that stands alone is replaced. -/
def characterOf (n : Nat) : Char := if n.isValidChar then Char.ofNat n else '\ufffd'

/-- The second half of a pair of numbers for one character. -/
def secondHalf? : List Char → Option Nat
  | '\\' :: 'u' :: a :: b :: c :: d :: _ :: _ =>
    (hexNumber? [a, b, c, d]).filter fun n => 0xdc00 ≤ n && n < 0xe000
  | _ => none

/-- Reads a text after its opening quote, which stands at `start`. -/
def readText (start position : Nat) (found : List Char) (cs : List Char) :
    Except Fault (Part String) :=
  match cs with
  | [] => .error ⟨.openText, start⟩
  | '"' :: rest => .ok (String.ofList found.reverse, position + 1, rest)
  | ['\\'] => .error ⟨.openText, start⟩
  | '\\' :: 'u' :: rest =>
    if rest.length ≤ 4 then .error ⟨.badNumberEscape, position + 1⟩
    else
      match hexNumber? (rest.take 4) with
      | none => .error ⟨.badNumberEscape, position + 1⟩
      | some n =>
        match (secondHalf? (rest.drop 4)).filter fun _ => 0xd800 ≤ n && n < 0xdc00 with
        | some m =>
          readText start (position + 12)
            (characterOf (0x10000 + (n - 0xd800) * 0x400 + (m - 0xdc00)) :: found) (rest.drop 10)
        | none => readText start (position + 6) (characterOf n :: found) (rest.drop 4)
  | '\\' :: c :: rest =>
    match escapes.lookup c with
    | none => .error ⟨.badEscape, position⟩
    | some meant => readText start (position + 2) (meant :: found) rest
  | c :: rest =>
    if c.toNat < 0x20 then .error ⟨.controlCharacter, position⟩
    else readText start (position + 1) (c :: found) rest
termination_by cs.length
decreasing_by all_goals (simp only [List.length_cons, List.length_drop]; omega)

/-- The digits at the front. -/
def frontDigits (cs : List Char) : List Char := cs.takeWhile Char.isDigit

/-- The characters of the whole part of a number at the front. -/
def wholePart? : List Char → Option (List Char)
  | '0' :: _ => some ['0']
  | cs => if (frontDigits cs).isEmpty then none else some (frontDigits cs)

/-- The point at the front with the digits after it. -/
def fractionPart : List Char → List Char
  | '.' :: cs => if (frontDigits cs).isEmpty then [] else '.' :: frontDigits cs
  | _ => []

/-- The exponent at the front. -/
def exponentPart : List Char → List Char
  | mark :: sign :: cs =>
    if mark != 'e' && mark != 'E' then []
    else if sign == '+' || sign == '-' then
      if (frontDigits cs).isEmpty then [] else mark :: sign :: frontDigits cs
    else if (frontDigits (sign :: cs)).isEmpty then [] else mark :: frontDigits (sign :: cs)
  | _ => []

/-- Reads a number. -/
def readNumber (position : Nat) (cs : List Char) : Except Fault (Part Json) :=
  let sign := if cs.head? == some '-' then ['-'] else []
  match wholePart? (cs.drop sign.length) with
  | none => .error ⟨.noValue, position⟩
  | some whole =>
    let start := sign ++ whole
    let fraction := fractionPart (cs.drop start.length)
    let exponent := exponentPart (cs.drop (start.length + fraction.length))
    let all := String.ofList (start ++ fraction ++ exponent)
    let size := all.toList.length
    let value := if fraction.isEmpty && exponent.isEmpty then (Number.readInt? all).map Number.int
      else (Number.readFloat? all).map Number.float
    match value with
    | none => .error ⟨.noValue, position⟩
    | some n => .ok (.number n, position + size, cs.drop size)

/-- The values that are written by their names. -/
def namedValues : List (String × Json) :=
  [("null", .null), ("true", .flag true), ("false", .flag false), ("NaN", .number (.float .nan)),
   ("Infinity", .number (.float (.infinite false))),
   ("-Infinity", .number (.float (.infinite true)))]

/-- Reads a value that holds no other value. -/
def readSimple (position : Nat) (cs : List Char) : Except Fault (Part Json) :=
  match namedValues.find? fun entry => entry.1.toList.isPrefixOf cs with
  | some (name, value) => .ok (value, position + name.toList.length, cs.drop name.toList.length)
  | none => readNumber position cs

/-- The members with one more; a name that is there keeps its place. -/
def withMember (members : List (String × Json)) (name : String) (value : Json) :
    List (String × Json) :=
  if (members.lookup name).isSome then
    members.map fun entry => if entry.1 == name then (name, value) else entry
  else members ++ [(name, value)]

mutual

/-- Reads a value. -/
def readValue (fuel position : Nat) (cs : List Char) : Except Fault (Part Json) :=
  match fuel with
  | 0 => .error ⟨.noValue, position⟩
  | fuel + 1 =>
    match cs with
    | [] => .error ⟨.noValue, position⟩
    | '"' :: rest => do
      let (value, next, rest) ← readText position (position + 1) [] rest
      .ok (.text value, next, rest)
    | '[' :: rest =>
      match skipSpace (position + 1) rest with
      | (next, ']' :: rest) => .ok (.list [], next + 1, rest)
      | (next, rest) => readItems fuel [] next rest
    | '\x7b' :: rest =>
      match skipSpace (position + 1) rest with
      | (next, '\x7d' :: rest) => .ok (.object [], next + 1, rest)
      | (next, rest) => readMembers fuel [] next rest
    | cs => readSimple position cs

/-- Reads the items of a list from the next one on. -/
def readItems (fuel : Nat) (found : List Json) (position : Nat) (cs : List Char) :
    Except Fault (Part Json) :=
  match fuel with
  | 0 => .error ⟨.noValue, position⟩
  | fuel + 1 => do
    let (value, next, rest) ← readValue fuel position cs
    match skipSpace next rest with
    | (next, ']' :: rest) => .ok (.list (found ++ [value]), next + 1, rest)
    | (next, ',' :: rest) =>
      let (next, rest) := skipSpace (next + 1) rest
      readItems fuel (found ++ [value]) next rest
    | (next, _) => .error ⟨.noComma, next⟩

/-- Reads the members of an object from the next one on. -/
def readMembers (fuel : Nat) (found : List (String × Json)) (position : Nat) (cs : List Char) :
    Except Fault (Part Json) :=
  match fuel, cs with
  | fuel + 1, '"' :: rest => do
    let (name, next, rest) ← readText position (position + 1) [] rest
    match skipSpace next rest with
    | (next, ':' :: rest) =>
      let (next, rest) := skipSpace (next + 1) rest
      let (value, next, rest) ← readValue fuel next rest
      match skipSpace next rest with
      | (next, '\x7d' :: rest) => .ok (.object (withMember found name value), next + 1, rest)
      | (next, ',' :: rest) =>
        let (next, rest) := skipSpace (next + 1) rest
        readMembers fuel (withMember found name value) next rest
      | (next, _) => .error ⟨.noComma, next⟩
    | (next, _) => .error ⟨.noColon, next⟩
  | _, _ => .error ⟨.noName, position⟩

end

/-- The value that a text writes. Every call for a part starts later in the text than the call two
levels above it, so the bound is never reached. -/
def read (source : String) : Except Fault Json :=
  let cs := source.toList
  if cs.head? == some '\ufeff' then .error ⟨.byteOrderMark, 0⟩
  else do
    let (start, rest) := skipSpace 0 cs
    let (value, next, rest) ← readValue (2 * cs.length + 2) start rest
    match skipSpace next rest with
    | (_, []) => .ok value
    | (next, _) => .error ⟨.moreText, next⟩

end ParamLens.Json
