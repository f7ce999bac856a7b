import ParamLens.Number.Binary64

/-! Numbers of a program text: integers of any size and binary floating-point numbers, compared by
their exact values. -/

namespace ParamLens

/-- A number literal's value. -/
inductive Number where
  | int (value : Int)
  | float (value : Binary64)
deriving DecidableEq, Repr

namespace Number

/-- The number with the other sign. -/
def neg : Number → Number
  | .int value => .int (-value)
  | .float value => .float value.neg

/-- Where a number lies on the extended line: an exact `mantissa * 2 ^ exponent`, or beyond every
finite number on one side. -/
inductive Place where
  | below
  | exact (mantissa : Int) (exponent : Int)
  | above
deriving DecidableEq, Repr

/-- The place of a number; `nan` has none. -/
def place? : Number → Option Place
  | .int value => some (.exact value 0)
  | .float (.finite negative mantissa exponent) =>
    some (.exact (Binary64.signed negative mantissa) exponent)
  | .float (.infinite true) => some .below
  | .float (.infinite false) => some .above
  | .float .nan => none

/-- The order of two places. -/
def Place.order : Place → Place → Ordering
  | .below, .below => .eq
  | .below, _ => .lt
  | .above, .above => .eq
  | .above, _ => .gt
  | .exact _ _, .below => .gt
  | .exact _ _, .above => .lt
  | .exact m e, .exact m' e' =>
    let base := min e e'
    compare (m * Nat.pow 2 (e - base).toNat) (m' * Nat.pow 2 (e' - base).toNat)

/-- The order of two numbers by their exact values; none when one of them is `nan`. -/
def order? (a b : Number) : Option Ordering :=
  match a.place?, b.place? with
  | some p, some q => some (p.order q)
  | _, _ => none

/-- `a` is less than `b`; false for `nan`. -/
def lt (a b : Number) : Bool := a.order? b == some .lt

/-- `a` is less than or equal to `b`; false for `nan`. -/
def le (a b : Number) : Bool := a.order? b == some .lt || a.order? b == some .eq

/-- `a` and `b` have the same value; false for `nan`. -/
def same (a b : Number) : Bool := a.order? b == some .eq

/-- The number as an integer: an integer itself, or a floating-point number with an integer
value. -/
def toInt? : Number → Option Int
  | .int value => some value
  | .float value => value.toInt?

end Number

end ParamLens
