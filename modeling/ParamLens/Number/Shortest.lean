import ParamLens.Number.Basic

/-! The shortest decimal that reads back as a given floating-point number, and the text of a
number. -/

namespace ParamLens

namespace Binary64

/-- A decimal `digits * 10 ^ power`. -/
structure Decimal where
  digits : Nat
  power : Int
deriving DecidableEq, Repr

/-- The decimal reads back as the positive finite number. -/
def readsBack (mantissa : Nat) (exponent : Int) (d : Decimal) : Bool :=
  ofDecimal false d.digits d.power == .finite false mantissa exponent

/-- A positive finite number as a ratio. -/
def ratio (mantissa : Nat) (exponent : Int) : Nat × Nat :=
  if 0 ≤ exponent then (mantissa * Nat.pow 2 exponent.toNat, 1)
  else (mantissa, Nat.pow 2 (-exponent).toNat)

/-- The ratio divided by a power of ten. -/
def scaleTen (num den : Nat) (power : Int) : Nat × Nat :=
  if 0 ≤ power then (num, den * Nat.pow 10 power.toNat)
  else (num * Nat.pow 10 (-power).toNat, den)

/-- The power of ten of the leading digit of a positive ratio. -/
def leadingPower (num den : Nat) : Int :=
  let guess : Int := (Nat.toDigits 10 num).length - (Nat.toDigits 10 den).length
  let (n, d) := scaleTen num den guess
  if n < d then guess - 1 else guess

/-- The decimal with the given number of digits that is nearest to the ratio among its two
neighbours that read back; of two equally near ones the one with the even last digit. -/
def nearestOf (mantissa : Nat) (exponent : Int) (count : Nat) : Option Decimal :=
  let (num, den) := ratio mantissa exponent
  let power := leadingPower num den - count + 1
  let (n, d) := scaleTen num den power
  let lower : Decimal := ⟨n / d, power⟩
  let upper : Decimal := ⟨n / d + 1, power⟩
  let rest := 2 * (n % d)
  match readsBack mantissa exponent lower, readsBack mantissa exponent upper with
  | true, true =>
    if rest < d then some lower
    else if d < rest then some upper
    else if lower.digits % 2 = 0 then some lower else some upper
  | true, false => some lower
  | false, true => some upper
  | false, false => none

/-- The decimal with the fewest digits that reads back as the positive finite number. -/
def shortest (mantissa : Nat) (exponent : Int) : Decimal :=
  ((List.range 17).findSome? fun n => nearestOf mantissa exponent (n + 1)).getD ⟨mantissa, 0⟩

/-- The digits of a decimal without the zeros at its end, with the power of the last one. -/
def Decimal.trimmed (d : Decimal) : List Char × Int :=
  let digits := (Nat.toDigits 10 d.digits).reverse
  let zeros := (digits.takeWhile (· == '0')).length
  ((digits.drop zeros).reverse, d.power + zeros)

/-- How floating-point numbers are written: positional notation for leading powers of ten from
`leastPositional` to below `positionalLimit`, and at least `exponentWidth` digits in an
exponent. -/
structure Style where
  leastPositional : Int
  positionalLimit : Int
  exponentWidth : Nat

/-- Numbers from 0.0001 up to 10 ^ 16 are written positionally, and exponents have two digits at
least. -/
def style : Style := ⟨-4, 16, 2⟩

/-- The text of digits whose last one has the given power of ten. -/
def writeDigits (digits : List Char) (power : Int) : List Char :=
  let lead : Int := power + digits.length - 1
  if style.leastPositional ≤ lead ∧ lead < style.positionalLimit then
    if 0 ≤ power then digits ++ List.replicate power.toNat '0' ++ ['.', '0']
    else if 0 ≤ lead then
      digits.take (lead.toNat + 1) ++ '.' :: digits.drop (lead.toNat + 1)
    else '0' :: '.' :: List.replicate (-lead - 1).toNat '0' ++ digits
  else
    let fraction := match digits.drop 1 with
      | [] => []
      | more => '.' :: more
    let exponent := Nat.toDigits 10 lead.natAbs
    digits.take 1 ++ fraction ++ 'e' :: (if lead < 0 then '-' else '+') ::
      List.replicate (style.exponentWidth - exponent.length) '0' ++ exponent

/-- The text of a floating-point number: the shortest decimal that reads back. -/
def text : Binary64 → String
  | .nan => "nan"
  | .infinite true => "-inf"
  | .infinite false => "inf"
  | .finite negative mantissa exponent =>
    let magnitude :=
      if mantissa = 0 then ['0', '.', '0']
      else
        let (digits, power) := (shortest mantissa exponent).trimmed
        writeDigits digits power
    String.ofList (if negative then '-' :: magnitude else magnitude)

end Binary64

/-- The text of a number. -/
def Number.text : Number → String
  | .int value => toString value
  | .float value => value.text

end ParamLens
