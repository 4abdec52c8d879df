import Mathlib

/-!
# Means of swept lots

Lots of units at one price each, swept from the front.  `units` spells lots out as one
number for each unit, so that sweeping a quantity is taking a prefix.  The mean of a
prefix lies between the numbers it takes (`le_prefixMean`, `prefixMean_le`), and the means
of an ascending list ascend (`prefixMean_mono`).
-/

namespace MiniLakehouse

variable {K : Type}

/-! ## Lots -/

/-- Lots as one number for each unit. -/
def units (lots : List (K × Nat)) : List K :=
  lots.flatMap fun lot => List.replicate lot.2 lot.1

@[simp] theorem units_nil : units ([] : List (K × Nat)) = [] := rfl

@[simp] theorem units_cons (lot : K × Nat) (lots : List (K × Nat)) :
    units (lot :: lots) = List.replicate lot.2 lot.1 ++ units lots := List.flatMap_cons ..

theorem length_units (lots : List (K × Nat)) :
    (units lots).length = (lots.map Prod.snd).sum := by
  induction lots with
  | nil => rfl
  | cons lot lots ih => simp [ih]

theorem mem_units {lots : List (K × Nat)} {x : K} (h : x ∈ units lots) :
    ∃ lot ∈ lots, lot.1 = x := by
  obtain ⟨lot, hlot, hx⟩ := List.mem_flatMap.mp h
  exact ⟨lot, hlot, (List.eq_of_mem_replicate hx).symm⟩

/-- Units are in the order of their lots. -/
theorem units_pairwise {r : K → K → Prop} (hrefl : ∀ x, r x x) {lots : List (K × Nat)}
    (h : lots.Pairwise fun a b => r a.1 b.1) : (units lots).Pairwise r := by
  refine List.pairwise_flatMap.mpr ⟨?_, ?_⟩
  · intro lot _
    exact List.pairwise_replicate.mpr (.inr (hrefl _))
  · apply h.imp
    intro a b hab x hx y hy
    rwa [List.eq_of_mem_replicate hx, List.eq_of_mem_replicate hy]

variable [Field K] [LinearOrder K] [IsStrictOrderedRing K]

omit [LinearOrder K] [IsStrictOrderedRing K] in
/-- Sweeping inside the first lot pays its price for every unit. -/
theorem sum_take_units_of_le (lot : K × Nat) {lots : List (K × Nat)} {count : Nat}
    (h : count ≤ lot.2) : ((units (lot :: lots)).take count).sum = lot.1 * count := by
  rw [units_cons, List.take_append_of_le_length (by simpa using h), List.take_replicate,
    min_eq_left h, List.sum_replicate, nsmul_eq_mul, mul_comm]

omit [LinearOrder K] [IsStrictOrderedRing K] in
/-- Sweeping past the first lot pays for all of it, and for the rest of the quantity. -/
theorem sum_take_units_of_lt (lot : K × Nat) {lots : List (K × Nat)} {count : Nat}
    (h : lot.2 < count) : ((units (lot :: lots)).take count).sum =
      lot.1 * lot.2 + ((units lots).take (count - lot.2)).sum := by
  rw [units_cons, List.take_append, List.length_replicate,
    List.take_of_length_le (by simpa using h.le), List.sum_append, List.sum_replicate,
    nsmul_eq_mul, mul_comm]

/-! ## Means -/

/-- The mean of the first numbers of a list. -/
def prefixMean (xs : List K) (count : Nat) : K := (xs.take count).sum / count

theorem le_prefixMean {xs : List K} {count : Nat} {low : K} (hpos : 0 < count)
    (hlength : count ≤ xs.length) (h : ∀ x ∈ xs.take count, low ≤ x) :
    low ≤ prefixMean xs count := by
  have hsum := List.card_nsmul_le_sum (xs.take count) low h
  rw [List.length_take_of_le hlength, nsmul_eq_mul] at hsum
  rw [prefixMean, le_div_iff₀ (by exact_mod_cast hpos)]
  linarith

theorem prefixMean_le {xs : List K} {count : Nat} {high : K} (hpos : 0 < count)
    (hlength : count ≤ xs.length) (h : ∀ x ∈ xs.take count, x ≤ high) :
    prefixMean xs count ≤ high := by
  have hsum := List.sum_le_card_nsmul (xs.take count) high h
  rw [List.length_take_of_le hlength, nsmul_eq_mul] at hsum
  rw [prefixMean, div_le_iff₀ (by exact_mod_cast hpos)]
  linarith

/-- One more number, at least as large as those before it, does not lower the mean. -/
theorem prefixMean_le_succ {xs : List K} (h : xs.Pairwise (· ≤ ·)) {count : Nat}
    (hpos : 0 < count) (hlength : count < xs.length) :
    prefixMean xs count ≤ prefixMean xs (count + 1) := by
  have hbelow : ∀ x ∈ xs.take count, x ≤ xs[count] := by
    intro x hx
    obtain ⟨i, hi, rfl⟩ := List.mem_take_iff_getElem.mp hx
    exact List.pairwise_iff_getElem.mp h i count _ hlength (by omega)
  have hmean := prefixMean_le hpos hlength.le hbelow
  have hcount : (0 : K) < count := by exact_mod_cast hpos
  have hsum : (xs.take (count + 1)).sum = (xs.take count).sum + xs[count] := by
    rw [List.take_succ_eq_append_getElem hlength, List.sum_append, List.sum_singleton]
  unfold prefixMean at hmean ⊢
  rw [div_le_iff₀ hcount] at hmean
  rw [hsum, div_le_div_iff₀ hcount (by positivity), Nat.cast_succ]
  nlinarith

/-- **The means of an ascending list ascend.** -/
theorem prefixMean_mono {xs : List K} (h : xs.Pairwise (· ≤ ·)) {small large : Nat}
    (hpos : 0 < small) (hle : small ≤ large) (hlength : large ≤ xs.length) :
    prefixMean xs small ≤ prefixMean xs large := by
  induction large, hle using Nat.le_induction with
  | base => exact le_refl _
  | succ large hle ih =>
      exact (ih (by omega)).trans (prefixMean_le_succ h (by omega) (by omega))

omit [LinearOrder K] [IsStrictOrderedRing K] in
theorem prefixMean_neg (xs : List K) (count : Nat) :
    prefixMean (xs.map Neg.neg) count = -prefixMean xs count := by
  have hsum : ∀ ys : List K, (ys.map Neg.neg).sum = -ys.sum := by
    intro ys
    induction ys with
    | nil => simp
    | cons y ys ih => rw [List.map_cons, List.sum_cons, List.sum_cons, ih, neg_add]
  rw [prefixMean, ← List.map_take, hsum, neg_div]
  rfl

/-- **The means of a descending list descend.** -/
theorem prefixMean_anti {xs : List K} (h : xs.Pairwise (· ≥ ·)) {small large : Nat}
    (hpos : 0 < small) (hle : small ≤ large) (hlength : large ≤ xs.length) :
    prefixMean xs large ≤ prefixMean xs small := by
  have hneg : (xs.map Neg.neg).Pairwise (· ≤ ·) := by
    rw [List.pairwise_map]
    apply h.imp
    intro a b hab
    exact neg_le_neg hab
  have hmono := prefixMean_mono hneg hpos hle (by simpa using hlength)
  rwa [prefixMean_neg, prefixMean_neg, neg_le_neg_iff] at hmono

end MiniLakehouse
