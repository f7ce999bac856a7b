import ParamLens.Number.Shortest
import ParamLens.Parameter.Basic

/-! Ranges of numbers with open or closed, possibly missing ends. -/

namespace ParamLens

namespace Bound

/-- The number that a bound stands for in a comparison; a truth value counts as one or zero. -/
def value? : Bound → Option Number
  | .absent => none
  | .flag value => some (.int (if value then 1 else 0))
  | .number value => some value

/-- The bound counts as true. -/
def isTrue : Bound → Bool
  | .absent => false
  | .flag value => value
  | .number value => !value.same (.int 0)

/-- The text of a bound; `missing` stands for an absent one. -/
def text (missing : String) : Bound → String
  | .absent => missing
  | .flag true => "True"
  | .flag false => "False"
  | .number value => value.text

end Bound

/-- A range: its two ends, and whether each belongs to it. -/
structure Range where
  low : Bound
  high : Bound
  lowClosed : Bound
  highClosed : Bound
deriving DecidableEq, Repr

namespace Range

/-- The range that bounds describe: two ends, which belong to it unless two more bounds say so. -/
def ofBounds? : List Bound → Option Range
  | [low, high] => some ⟨low, high, .flag true, .flag true⟩
  | [low, high, lowClosed, highClosed] => some ⟨low, high, lowClosed, highClosed⟩
  | _ => none

/-- The number lies below the range. -/
def isBelow (r : Range) (x : Number) : Bool :=
  match r.low.value? with
  | none => false
  | some least => if r.lowClosed.isTrue then x.lt least else x.le least

/-- The number lies above the range. -/
def isAbove (r : Range) (x : Number) : Bool :=
  match r.high.value? with
  | none => false
  | some greatest => if r.highClosed.isTrue then greatest.lt x else greatest.le x

/-- The number lies outside the range. -/
def excludes (r : Range) (x : Number) : Bool := r.isBelow x || r.isAbove x

/-- The range in bracket notation. -/
def description (r : Range) : String :=
  let left := if r.lowClosed.isTrue then "[" else "("
  let right := if r.highClosed.isTrue then "]" else ")"
  left ++ r.low.text "-∞" ++ ", " ++ r.high.text "∞" ++ right

end Range

end ParamLens
