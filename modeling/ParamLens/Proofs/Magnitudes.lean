import Mathlib.Algebra.Order.Field.Power
import Mathlib.Data.Rat.Cast.Order
import Mathlib.Order.Interval.Set.Basic
import Mathlib.Order.WithBot
import ParamLens.Check.Range

/-! The exact values of numbers on the rational line with an end on each side. Numbers compare as
their values do, and a number lies outside of a range exactly if its value is not in the interval
that the range describes. -/

namespace ParamLens

namespace Number

/-- The rational line with an end on each side. -/
abbrev Value := WithBot (WithTop ℚ)

/-- The value at a place. -/
def Place.value : Place → Value
  | .below => ⊥
  | .exact mantissa exponent => ((mantissa * 2 ^ exponent : ℚ) : WithTop ℚ)
  | .above => ((⊤ : WithTop ℚ) : Value)

/-- The exact value of a number; `nan` has none. -/
def value? (x : Number) : Option Value := x.place?.map Place.value

/-! ### Comparisons -/

theorem scaled_eq (mantissa : Int) {exponent base : Int} (h : base ≤ exponent) :
    ((mantissa * Nat.pow 2 (exponent - base).toNat : Int) : ℚ) =
      mantissa * 2 ^ exponent * ((2 : ℚ) ^ base)⁻¹ := by
  obtain ⟨shift, rfl⟩ := Int.le.dest h
  have hshift : (base + (shift : Int) - base).toNat = shift := by omega
  have hbase : (2 : ℚ) ^ base ≠ 0 := zpow_ne_zero base two_ne_zero
  rw [hshift, Int.cast_mul, Int.cast_natCast, Nat.pow_eq, Nat.cast_pow, Nat.cast_ofNat,
    zpow_add₀ two_ne_zero, zpow_natCast, mul_comm (2 ^ base), ← mul_assoc,
    mul_inv_cancel_right₀ hbase]

theorem compare_scaled (m e n f : Int) :
    compare (m * Nat.pow 2 (e - min e f).toNat) (n * Nat.pow 2 (f - min e f).toNat) =
      compare ((m : ℚ) * 2 ^ e) (n * 2 ^ f) := by
  have hpos : 0 < ((2 : ℚ) ^ min e f)⁻¹ := inv_pos.mpr (zpow_pos two_pos _)
  rw [← cmp_eq_compare, ← Int.cast_strictMono (R := ℚ) |>.cmp_map_eq,
    scaled_eq m (min_le_left e f), scaled_eq n (min_le_right e f), cmp_mul_pos_right hpos,
    cmp_eq_compare]

theorem Place.order_eq (p q : Place) : p.order q = compare p.value q.value := by
  cases p with
  | below =>
    cases q with
    | below => exact (compare_eq_iff_eq.mpr rfl).symm
    | exact n f => exact (compare_lt_iff_lt.mpr (WithBot.bot_lt_coe _)).symm
    | above => exact (compare_lt_iff_lt.mpr (WithBot.bot_lt_coe _)).symm
  | exact m e =>
    cases q with
    | below => exact (compare_gt_iff_gt.mpr (WithBot.bot_lt_coe _)).symm
    | exact n f =>
      have hcoe : StrictMono fun u : ℚ => ((u : WithTop ℚ) : Value) :=
        fun _ _ h => WithBot.coe_lt_coe.mpr (WithTop.coe_lt_coe.mpr h)
      rw [Place.order, Place.value, Place.value, ← cmp_eq_compare (α := Value), hcoe.cmp_map_eq,
        cmp_eq_compare]
      exact compare_scaled m e n f
    | above =>
      exact (compare_lt_iff_lt.mpr (WithBot.coe_lt_coe.mpr (WithTop.coe_lt_top _))).symm
  | above =>
    cases q with
    | below => exact (compare_gt_iff_gt.mpr (WithBot.bot_lt_coe _)).symm
    | exact n f =>
      exact (compare_gt_iff_gt.mpr (WithBot.coe_lt_coe.mpr (WithTop.coe_lt_top _))).symm
    | above => exact (compare_eq_iff_eq.mpr rfl).symm

theorem order?_eq_some_iff {a b : Number} {o : Ordering} :
    a.order? b = some o ↔ ∃ u v, a.value? = some u ∧ b.value? = some v ∧ compare u v = o := by
  rw [order?, value?, value?]
  cases a.place? <;> cases b.place? <;> simp [Place.order_eq]

theorem lt_iff {a b : Number} :
    a.lt b = true ↔ ∃ u v, a.value? = some u ∧ b.value? = some v ∧ u < v := by
  simp only [lt, beq_iff_eq, order?_eq_some_iff, compare_lt_iff_lt]

theorem le_iff {a b : Number} :
    a.le b = true ↔ ∃ u v, a.value? = some u ∧ b.value? = some v ∧ u ≤ v := by
  simp only [le, Bool.or_eq_true, beq_iff_eq, order?_eq_some_iff, compare_lt_iff_lt,
    compare_eq_iff_eq]
  constructor
  · rintro (⟨u, v, hu, hv, h⟩ | ⟨u, v, hu, hv, h⟩)
    · exact ⟨u, v, hu, hv, h.le⟩
    · exact ⟨u, v, hu, hv, h.le⟩
  · rintro ⟨u, v, hu, hv, h⟩
    rcases h.lt_or_eq with h | h
    · exact .inl ⟨u, v, hu, hv, h⟩
    · exact .inr ⟨u, v, hu, hv, h⟩

end Number

/-! ### Ranges -/

open Number (Value)

namespace Bound

/-- The exact value that a bound stands for; a missing bound and `nan` have none. -/
def limit? (b : Bound) : Option Value := b.value?.bind Number.value?

/-- The values above a lower end, which belongs to them if it is closed. Without an end these are
all values. -/
def upwards (low : Bound) (closed : Bool) : Set Value :=
  match low.limit? with
  | none => Set.univ
  | some v => if closed then Set.Ici v else Set.Ioi v

/-- The values below an upper end, which belongs to them if it is closed. -/
def downwards (high : Bound) (closed : Bool) : Set Value :=
  match high.limit? with
  | none => Set.univ
  | some v => if closed then Set.Iic v else Set.Iio v

/-- The interval that bounds describe: two ends, which are closed unless two more bounds say whether
they are. -/
inductive Describe : List Bound → Set Value → Prop
  | ends (low high : Bound) : Describe [low, high] (low.upwards true ∩ high.downwards true)
  | closed (low high lowClosed highClosed : Bound) :
      Describe [low, high, lowClosed, highClosed]
        (low.upwards lowClosed.isTrue ∩ high.downwards highClosed.isTrue)

end Bound

namespace Range

/-- The interval of a range. -/
def interval (r : Range) : Set Value :=
  r.low.upwards r.lowClosed.isTrue ∩ r.high.downwards r.highClosed.isTrue

theorem isBelow_iff {r : Range} {x : Number} :
    r.isBelow x = true ↔ ∃ v, x.value? = some v ∧ v ∉ r.low.upwards r.lowClosed.isTrue := by
  rw [isBelow, Bound.upwards, Bound.limit?]
  cases r.low.value? with
  | none => simp
  | some least =>
    dsimp only [Option.bind_some]
    cases hclosed : r.lowClosed.isTrue <;> cases hleast : least.value? <;>
      simp [Number.lt_iff, Number.le_iff, hleast]

theorem isAbove_iff {r : Range} {x : Number} :
    r.isAbove x = true ↔ ∃ v, x.value? = some v ∧ v ∉ r.high.downwards r.highClosed.isTrue := by
  rw [isAbove, Bound.downwards, Bound.limit?]
  cases r.high.value? with
  | none => simp
  | some greatest =>
    dsimp only [Option.bind_some]
    cases hclosed : r.highClosed.isTrue <;> cases hgreatest : greatest.value? <;>
      simp [Number.lt_iff, Number.le_iff, hgreatest]

theorem excludes_iff {r : Range} {x : Number} :
    r.excludes x = true ↔ ∃ v, x.value? = some v ∧ v ∉ r.interval := by
  rw [excludes, Bool.or_eq_true, isBelow_iff, isAbove_iff, interval, ← exists_or]
  refine exists_congr fun v => ?_
  rw [Set.mem_inter_iff, not_and_or, and_or_left]

theorem describe_iff {bounds : List Bound} {S : Set Value} :
    Bound.Describe bounds S ↔ ∃ r, ofBounds? bounds = some r ∧ r.interval = S := by
  constructor
  · rintro (⟨low, high⟩ | ⟨low, high, lowClosed, highClosed⟩)
    · exact ⟨_, rfl, rfl⟩
    · exact ⟨_, rfl, rfl⟩
  · rintro ⟨r, hr, rfl⟩
    unfold ofBounds? at hr
    split at hr
    · obtain rfl := Option.some.inj hr
      exact .ends _ _
    · obtain rfl := Option.some.inj hr
      exact .closed _ _ _ _
    · cases hr

end Range

end ParamLens
