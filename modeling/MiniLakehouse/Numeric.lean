import MiniLakehouse.Library.Checked
import MiniLakehouse.Library.Numeric
import MiniLakehouse.Raised

/-!
# Exact decimal conventions

`numeric.py`: ratios quantised to a fixed number of decimal places.
-/

namespace MiniLakehouse

/-- `RATIO_QUANTUM`, as a number of decimal places. -/
def ratioPlaces : Nat := 8

/-- `RATE_QUANTUM`, as a number of decimal places. -/
def ratePlaces : Nat := 6

/-- `BPS_QUANTUM`, as a number of decimal places. -/
def bpsPlaces : Nat := 4

/-- `PRICE_QUANTUM`, as a number of decimal places. -/
def pricePlaces : Nat := 8

/-- `ratio` -/
def ratio (numerator denominator : Rat) (places : Nat) : Except Raised Rat := do
  require (denominator ≠ 0) (.valueError "ratio denominator must be non-zero")
  return quantizeHalfUp places (numerator / denominator)

/-- `basis_points` -/
def basisPoints (numerator denominator : Rat) : Except Raised Rat :=
  ratio (numerator * 10000) denominator bpsPlaces

/-- `rate` -/
def rate (numerator denominator : Nat) : Except Raised Rat := do
  require (numerator ≤ denominator) (.valueError "rate counts are inconsistent")
  if denominator = 0 then return 0
  ratio numerator denominator ratePlaces

theorem ratio_ok {numerator denominator value : Rat} {places : Nat}
    (h : ratio numerator denominator places = .ok value) :
    denominator ≠ 0 ∧ value = quantizeHalfUp places (numerator / denominator) := by
  simp only [ratio, bind_eq_ok, require_eq_ok, pure_eq_ok] at h
  obtain ⟨-, hnonzero, rfl⟩ := h
  exact ⟨hnonzero, rfl⟩

/-- A ratio is off by at most half a quantum. -/
theorem ratio_error {numerator denominator value : Rat} {places : Nat}
    (h : ratio numerator denominator places = .ok value) :
    |value - numerator / denominator| ≤ 1 / 2 / 10 ^ places := by
  obtain ⟨-, rfl⟩ := ratio_ok h
  exact quantizeHalfUp_error places _

/-- A rate that reaches a bound: the counts do so up to half a quantum. -/
theorem rate_ge {numerator denominator : Nat} {value bound : Rat}
    (h : rate numerator denominator = .ok value) (hpos : 0 < denominator) (hbound : bound ≤ value) :
    bound - 5 / 10000000 ≤ numerator / denominator := by
  simp only [rate, bind_eq_ok, require_eq_ok] at h
  obtain ⟨-, -, h⟩ := h
  rw [if_neg hpos.ne'] at h
  have herror := abs_le.mp (ratio_error h)
  norm_num [ratePlaces] at herror
  linarith [herror.2]

end MiniLakehouse
