import Mathlib

/-!
# Rounding to a quantum

Decimal quantisation over exact rationals.  `quantizeHalfUp` rounds to a number
of decimal places, ties away from zero; `quantizeHalfEven` rounds ties to the
even last digit.  `decimalSqrt` is a square root rounded to significant digits.
-/

namespace MiniLakehouse

/-- Nearest integer, ties away from zero. -/
def roundHalfUp (x : Rat) : Int :=
  if 0 ≤ x then (x + 1 / 2).floor else -((-x + 1 / 2).floor)

/-- Nearest integer, ties to the even one. -/
def roundHalfEven (x : Rat) : Int :=
  let low := x.floor
  let rest := x - low
  if rest < 1 / 2 then low
  else if 1 / 2 < rest then low + 1
  else if low % 2 = 0 then low else low + 1

/-- `quantize` to a number of decimal places, `ROUND_HALF_UP`. -/
def quantizeHalfUp (places : Nat) (x : Rat) : Rat :=
  roundHalfUp (x * 10 ^ places) / 10 ^ places

/-- `quantize` to a number of decimal places, `ROUND_HALF_EVEN`. -/
def quantizeHalfEven (places : Nat) (x : Rat) : Rat :=
  roundHalfEven (x * 10 ^ places) / 10 ^ places

/-! ## Rounding errors -/

theorem roundHalfUp_error (x : Rat) : |(roundHalfUp x : Rat) - x| ≤ 1 / 2 := by
  have hlow := Rat.floor_le (x + 1 / 2)
  have hhigh := Rat.lt_floor_add_one (x + 1 / 2)
  have hlow' := Rat.floor_le (-x + 1 / 2)
  have hhigh' := Rat.lt_floor_add_one (-x + 1 / 2)
  push_cast at hhigh hhigh'
  rw [abs_le]
  unfold roundHalfUp
  split
  · constructor <;> linarith
  · rw [Int.cast_neg]
    constructor <;> linarith

/-- **Quantising** is off by at most half a quantum. -/
theorem quantizeHalfUp_error (places : Nat) (x : Rat) :
    |quantizeHalfUp places x - x| ≤ 1 / 2 / 10 ^ places := by
  have hpos : (0 : Rat) < 10 ^ places := by positivity
  have herror := roundHalfUp_error (x * 10 ^ places)
  have hscaled : quantizeHalfUp places x - x =
      (roundHalfUp (x * 10 ^ places) - x * 10 ^ places) / 10 ^ places := by
    rw [quantizeHalfUp, sub_div, mul_div_cancel_right₀ _ hpos.ne']
  rw [hscaled, abs_div, abs_of_pos hpos]
  exact div_le_div_of_nonneg_right herror hpos.le

/-! ## Rounding keeps order -/

theorem roundHalfUp_mono {x y : Rat} (h : x ≤ y) : roundHalfUp x ≤ roundHalfUp y := by
  have hnonneg : ∀ {a : Rat}, 0 ≤ a → 0 ≤ (a + 1 / 2).floor := by
    intro a ha
    refine Rat.le_floor_iff.mpr ?_
    push_cast
    linarith
  unfold roundHalfUp
  by_cases hx : 0 ≤ x
  · rw [if_pos hx, if_pos (hx.trans h)]
    exact Rat.floor_monotone (by linarith)
  · rw [if_neg hx]
    have hlow := hnonneg (a := -x) (by linarith)
    by_cases hy : 0 ≤ y
    · rw [if_pos hy]
      exact (neg_nonpos.mpr hlow).trans (hnonneg hy)
    · rw [if_neg hy]
      exact neg_le_neg (Rat.floor_monotone (by linarith))

theorem roundHalfUp_intCast (n : Int) : roundHalfUp n = n := by
  have hfloor : ∀ m : Int, ((m : Rat) + 1 / 2).floor = m := by
    intro m
    apply le_antisymm
    · apply Int.lt_add_one_iff.mp
      refine Rat.floor_lt_iff.mpr ?_
      push_cast
      linarith
    · refine Rat.le_floor_iff.mpr ?_
      linarith
  unfold roundHalfUp
  split
  · exact hfloor n
  · rw [← Int.cast_neg, hfloor, neg_neg]

/-- **Quantising keeps order.** -/
theorem quantizeHalfUp_mono {x y : Rat} (places : Nat) (h : x ≤ y) :
    quantizeHalfUp places x ≤ quantizeHalfUp places y := by
  have hpos : (0 : Rat) < 10 ^ places := by positivity
  have hround := roundHalfUp_mono (mul_le_mul_of_nonneg_right h hpos.le)
  exact div_le_div_of_nonneg_right (by exact_mod_cast hround) hpos.le

/-- Whole numbers are on every quantum. -/
theorem quantizeHalfUp_intCast (places : Nat) (n : Int) : quantizeHalfUp places n = n := by
  have hpos : (0 : Rat) < 10 ^ places := by positivity
  have hscaled : (n : Rat) * 10 ^ places = ((n * 10 ^ places : Int) : Rat) := by push_cast; ring
  rw [quantizeHalfUp, hscaled, roundHalfUp_intCast]
  push_cast
  exact mul_div_cancel_right₀ _ hpos.ne'

theorem roundHalfEven_nonneg {x : Rat} (h : 0 ≤ x) : 0 ≤ roundHalfEven x := by
  have hfloor : 0 ≤ x.floor := Rat.le_floor_iff.mpr (by simpa using h)
  unfold roundHalfEven
  dsimp only
  repeat' split
  all_goals omega

/-- Rounding to the even digit does not change the sign. -/
theorem quantizeHalfEven_nonneg (places : Nat) {x : Rat} (h : 0 ≤ x) :
    0 ≤ quantizeHalfEven places x := by
  have hround : 0 ≤ roundHalfEven (x * 10 ^ places) := roundHalfEven_nonneg (by positivity)
  have hcast : (0 : Rat) ≤ roundHalfEven (x * 10 ^ places) := by exact_mod_cast hround
  unfold quantizeHalfEven
  positivity

/-- The exponent `e` with `10 ^ e ≤ x < 10 ^ (e + 1)` of a positive number. -/
def decimalExponent (x : Rat) : Int :=
  let guess := (Nat.log 10 x.num.toNat : Int) - Nat.log 10 x.den
  if (10 : Rat) ^ guess ≤ x then guess else guess - 1

/-- `Decimal.sqrt` in a context of `precision` digits: ties to the even digit. -/
def decimalSqrt (precision : Nat) (x : Rat) : Rat :=
  if x ≤ 0 then 0
  else
    let scale : Int := precision - 1 - decimalExponent x / 2
    let scaled := x * 10 ^ (2 * scale)
    let low := Nat.sqrt scaled.floor.toNat
    let middle := ((low : Rat) + 1 / 2) ^ 2
    let digits :=
      if scaled < middle then low
      else if middle < scaled then low + 1
      else if low % 2 = 0 then low else low + 1
    digits / 10 ^ scale

theorem decimalSqrt_nonneg (precision : Nat) (x : Rat) : 0 ≤ decimalSqrt precision x := by
  unfold decimalSqrt
  split
  · exact le_refl 0
  · dsimp only
    positivity

end MiniLakehouse
