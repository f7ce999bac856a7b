import ParamLens.Number.Reading
import ParamLens.Number.Shortest
import ParamLens.Text.Quoted

/-! Messages with gaps: a percent sign starts a gap, which says how the next value is written. -/

namespace ParamLens.Log

/-- A value that can fill a gap. -/
inductive Value where
  | absent
  | flag (value : Bool)
  | number (value : Number)
  | text (value : String)

namespace Value

/-- The plain text of a value. -/
def plain : Value → String
  | .absent => "None"
  | .flag value => if value then "True" else "False"
  | .number value => value.text
  | .text value => value

/-- The text of a value with quotes around a text. -/
def quoted : Value → String
  | .text value => Text.quoted value
  | other => other.plain

/-- The text of a value in ASCII characters, with quotes around a text. -/
def quotedPlainly : Value → String
  | .text value => Text.quotedPlainly value
  | other => other.plain

/-- What kind of value this is, in the words of messages. -/
def kindName : Value → String
  | .absent => "NoneType"
  | .flag _ => "bool"
  | .number (.int _) => "int"
  | .number (.float _) => "float"
  | .text _ => "str"

/-- The number that a value stands for. -/
def number? : Value → Option Number
  | .flag value => some (.int (if value then 1 else 0))
  | .number value => some value
  | _ => none

/-- The integer that a value is. -/
def int? (v : Value) : Option Int :=
  match v.number? with
  | some (.int value) => some value
  | _ => none

end Value

/-- Why a message cannot be written. -/
inductive Fault where
  | incomplete
  | unsupported (mark : Char) (position : Nat)
  | needsMapping
  | tooFew
  | tooMany
  | needsInteger (mark : Char) (kind : String)
  | needsReal (mark : Char) (kind : String)
  | needsFloat (kind : String)
  | needsCharacter
  | needsWidth
  | notANumber
  | infinite
  | tooLarge
  | noCharacter
  | noLevelName
deriving DecidableEq, Repr

/-- The wording of a fault. -/
def Fault.message : Fault → String
  | .incomplete => "incomplete format"
  | .unsupported mark position =>
    "unsupported format character '" ++ String.singleton mark ++ "' (0x" ++
      String.ofList (Nat.toDigits 16 mark.toNat) ++ ") at index " ++ toString position
  | .needsMapping => "format requires a mapping"
  | .tooFew => "not enough arguments for format string"
  | .tooMany => "not all arguments converted during string formatting"
  | .needsInteger mark kind =>
    "%" ++ String.singleton mark ++ " format: an integer is required, not " ++ kind
  | .needsReal mark kind =>
    "%" ++ String.singleton mark ++ " format: a real number is required, not " ++ kind
  | .needsFloat kind => "must be real number, not " ++ kind
  | .needsCharacter => "%c requires int or char"
  | .needsWidth => "* wants int"
  | .notANumber => "cannot convert float NaN to integer"
  | .infinite => "cannot convert float infinity to integer"
  | .tooLarge => "int too large to convert to float"
  | .noCharacter => "%c arg not in range(0x110000)"
  | .noLevelName => "string index out of range"

/-- What kind of fault: a value of the wrong type, a wrong value, a number out of range, or a place
past the end of a text. -/
inductive FaultKind where
  | wrongType
  | wrongValue
  | outOfRange
  | pastEnd
deriving DecidableEq, Repr

/-- The kind of a fault. -/
def Fault.kind : Fault → FaultKind
  | .incomplete | .unsupported _ _ | .notANumber => .wrongValue
  | .infinite | .tooLarge | .noCharacter => .outOfRange
  | .noLevelName => .pastEnd
  | _ => .wrongType

/-- How a gap is written. -/
structure Gap where
  left : Bool := false
  plus : Bool := false
  blank : Bool := false
  alternate : Bool := false
  zero : Bool := false
  width : Nat := 0
  precision : Option Nat := none

/-- Text that fills a gap: its sign, a mark after the sign, and the rest. -/
structure Filling where
  sign : String := ""
  mark : String := ""
  body : String

/-- The characters of a filling with blanks or zeros up to the width of the gap. -/
def Gap.pad (g : Gap) (isNumber : Bool) (f : Filling) : List Char :=
  let sign := if !isNumber || f.sign != "" then f.sign
    else if g.plus then "+" else if g.blank then " " else ""
  let front := (sign ++ f.mark).toList
  let body := f.body.toList
  let missing := g.width - (front.length + body.length)
  if g.left then front ++ body ++ List.replicate missing ' '
  else if isNumber && g.zero then front ++ List.replicate missing '0' ++ body
  else List.replicate missing ' ' ++ front ++ body

/-- Digits of a number in a base, at least as many as asked for. -/
def digitsOf (base : Nat) (count : Nat) (n : Nat) : String :=
  let digits := Nat.toDigits base n
  String.ofList (List.replicate (count - digits.length) '0' ++ digits)

/-- The sign of an integer. -/
def signOf (negative : Bool) : String := if negative then "-" else ""

/-- The integer nearest to zero of a number. -/
def truncated (n : Number) : Except Fault Int :=
  match n with
  | .int value => .ok value
  | .float .nan => .error .notANumber
  | .float (.infinite _) => .error .infinite
  | .float (.finite negative mantissa exponent) =>
    .ok (Binary64.signed negative (if exponent < 0 then mantissa / Nat.pow 2 (-exponent).toNat
      else mantissa * Nat.pow 2 exponent.toNat))

/-- The filling of an integer in decimal digits. -/
def Gap.decimal (g : Gap) (mark : Char) (v : Value) : Except Fault Filling :=
  match v.number? with
  | none => .error (.needsReal mark v.kindName)
  | some n => (truncated n).map fun (value : Int) =>
    { sign := signOf (value < 0), body := digitsOf 10 (g.precision.getD 1) value.natAbs }

/-- The filling of an integer in a base that is a power of two. -/
def Gap.powerBase (g : Gap) (mark : Char) (v : Value) : Except Fault Filling :=
  match v.int? with
  | none => .error (.needsInteger mark v.kindName)
  | some value =>
    let digits := digitsOf (if mark == 'o' then 8 else 16) (g.precision.getD 1) value.natAbs
    .ok { sign := signOf (value < 0)
          mark := if g.alternate then "0" ++ String.singleton mark else ""
          body := if mark == 'X' then digits.toUpper else digits }

/-- The floating-point number of a value. -/
def floatOf (v : Value) : Except Fault Binary64 :=
  match v.number? with
  | none => .error (.needsFloat v.kindName)
  | some (.float value) => .ok value
  | some (.int value) =>
    match Binary64.ofRatio (value < 0) value.natAbs 1 with
    | .infinite _ => .error .tooLarge
    | other => .ok other

/-- Digits with a point before the last `places` of them; no point before nothing, unless asked
for. -/
def withPoint (places : Nat) (keepPoint : Bool) (digits : Nat) : String :=
  let all := (digitsOf 10 (places + 1) digits).toList
  let whole := all.take (all.length - places)
  let fraction := all.drop (all.length - places)
  String.ofList (whole ++ (if places == 0 && !keepPoint then [] else '.' :: fraction))

/-- A ratio with a number of places after the point. -/
def fixedText (places : Nat) (keepPoint : Bool) (num den : Nat) : String :=
  withPoint places keepPoint (Binary64.roundRatio (num * Nat.pow 10 places) den)

/-- The digits of a ratio, one before the point and `places` after it, and the power of ten that
they are multiplied with. -/
def scientificDigits (places : Nat) (num den : Nat) : Nat × Int :=
  if num == 0 then (0, 0)
  else
    let power := Binary64.leadingPower num den
    let (num, den) := Binary64.scaleTen num den (power - places)
    let digits := Binary64.roundRatio num den
    if digits == Nat.pow 10 (places + 1) then (Nat.pow 10 places, power + 1) else (digits, power)

/-- A power of ten, with its sign and at least two digits. -/
def powerText (power : Int) : String :=
  (if power < 0 then "e-" else "e+") ++ digitsOf 10 2 power.natAbs

/-- A ratio with one digit before the point and a power of ten. -/
def scientificText (places : Nat) (keepPoint : Bool) (num den : Nat) : String :=
  let (digits, power) := scientificDigits places num den
  withPoint places keepPoint digits ++ powerText power

/-- The text without zeros at the end of its fraction. -/
def dropZeros (s : String) : String :=
  if s.toList.contains '.' then
    let kept := s.toList.reverse.dropWhile (· == '0')
    String.ofList (if kept.head? == some '.' then kept.drop 1 else kept).reverse
  else s

/-- A ratio with a number of digits, with a power of ten only where it is short for many zeros. -/
def generalText (count : Nat) (keepZeros : Bool) (num den : Nat) : String :=
  let count := max count 1
  let (digits, power) := scientificDigits (count - 1) num den
  let trim (s : String) : String := if keepZeros then s else dropZeros s
  if -4 ≤ power && power < count then trim (fixedText (count - 1 - power).toNat keepZeros num den)
  else trim (withPoint (count - 1) keepZeros digits) ++ powerText power

/-- The filling of a floating-point number. -/
def Gap.floating (g : Gap) (mark : Char) (v : Value) : Except Fault Filling :=
  (floatOf v).map fun x =>
    let places := g.precision.getD 6
    let filling : Filling := match x with
      | .nan => { body := "nan" }
      | .infinite negative => { sign := signOf negative, body := "inf" }
      | .finite negative mantissa exponent =>
        let (num, den) := Binary64.ratio mantissa exponent
        { sign := signOf negative
          body := match mark.toLower with
            | 'f' => fixedText places g.alternate num den
            | 'e' => scientificText places g.alternate num den
            | _ => generalText places g.alternate num den }
    if mark.isUpper then { filling with body := filling.body.toUpper } else filling

/-- The filling of a character, given by itself or by its number. -/
def characterFilling (v : Value) : Except Fault Filling :=
  match v with
  | .text value =>
    if value.toList.length == 1 then .ok { body := value } else .error .needsCharacter
  | other =>
    match other.int? with
    | none => .error .needsCharacter
    | some n => if n < 0 || 0x110000 ≤ n then .error .noCharacter
      else .ok { body := String.singleton (Char.ofNat n.toNat) }

/-- The filling of a text, cut to the precision of the gap. -/
def Gap.textual (g : Gap) (s : String) : Filling :=
  { body := (g.precision.map (Text.take s)).getD s }

/-- The characters that a value leaves in a gap with a mark. -/
def Gap.write (g : Gap) (mark : Char) (position : Nat) (v : Value) : Except Fault (List Char) :=
  if mark == 's' then .ok (g.pad false (g.textual v.plain))
  else if mark == 'r' then .ok (g.pad false (g.textual v.quoted))
  else if mark == 'a' then .ok (g.pad false (g.textual v.quotedPlainly))
  else if mark == 'c' then (characterFilling v).map (g.pad false)
  else if ['d', 'i', 'u'].contains mark then (g.decimal mark v).map (g.pad true)
  else if ['o', 'x', 'X'].contains mark then (g.powerBase mark v).map (g.pad true)
  else if ['e', 'E', 'f', 'F', 'g', 'G'].contains mark then (g.floating mark v).map (g.pad true)
  else .error (.unsupported mark position)

/-- The flags at the front of a gap. -/
def Gap.withFlags (cs : List Char) : Gap :=
  let flags := cs.takeWhile fun c => ['-', '+', ' ', '#', '0'].contains c
  { left := flags.contains '-', plus := flags.contains '+', blank := flags.contains ' ',
    alternate := flags.contains '#', zero := flags.contains '0' }

/-- A number at the front, or the next value where a star stands. -/
def takeSize (cs : List Char) (values : List Value) :
    Except Fault (Option Int × List Char × List Value) :=
  match cs, values with
  | '*' :: _, [] => .error .tooFew
  | '*' :: rest, v :: values =>
    match v.int? with
    | some n => .ok (some n, rest, values)
    | none => .error .needsWidth
  | cs, values =>
    let digits := cs.takeWhile Char.isDigit
    .ok (if digits.isEmpty then none else some (Number.digitsValue digits), cs.drop digits.length,
      values)

/-- Reads a gap after its percent sign: how it is written, its mark with what follows, and the
values that are left. -/
def takeGap (cs : List Char) (values : List Value) :
    Except Fault (Gap × List Char × List Value) := do
  let gap := Gap.withFlags cs
  let rest := cs.dropWhile fun c => ['-', '+', ' ', '#', '0'].contains c
  let (width, rest, values) ← takeSize rest values
  let width := width.getD 0
  let gap := { gap with width := width.natAbs, left := gap.left || width < 0 }
  let (gap, rest, values) ← match rest with
    | '.' :: rest => do
      let (precision, rest, values) ← takeSize rest values
      pure ({ gap with precision := some (precision.getD 0).toNat }, rest, values)
    | rest => pure (gap, rest, values)
  let rest := match rest with
    | c :: more => if ['h', 'l', 'L'].contains c then more else rest
    | [] => []
  return (gap, rest, values)

/-- Fills the gaps of a message from the left. -/
def fillFrom (fuel total : Nat) (cs : List Char) (values : List Value) :
    Except Fault (List Char) :=
  match fuel, cs with
  | fuel + 1, '%' :: '%' :: rest => return '%' :: (← fillFrom fuel total rest values)
  | _ + 1, '%' :: '(' :: _ => .error .needsMapping
  | fuel + 1, '%' :: rest => do
    let (gap, rest, values) ← takeGap rest values
    match rest, values with
    | [], _ => .error .incomplete
    | _ :: _, [] => .error .tooFew
    | mark :: rest, v :: values =>
      let written ← gap.write mark (total - rest.length - 1) v
      return written ++ (← fillFrom fuel total rest values)
  | fuel + 1, c :: rest => return c :: (← fillFrom fuel total rest values)
  | _, _ => if values.isEmpty then .ok [] else .error .tooMany

/-- A message with its gaps filled by the values; without values it has no gaps. -/
def fill (message : String) (values : List Value) : Except Fault String :=
  if values.isEmpty then .ok message
  else
    let cs := message.toList
    (fillFrom (cs.length + 1) cs.length cs values).map String.ofList

end ParamLens.Log
