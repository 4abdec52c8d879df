import Mathlib

/-!
# Order statistics and the lines between them

The entries of a list in order, and the piecewise linear curve through equally spaced
entries.  A larger list has larger entries at each rank, and the curve through ordered
entries rises with the position as well as with every entry.
-/

namespace MiniLakehouse

/-! ## Ranks -/

section Ranks

variable {α : Type} [LinearOrder α]

/-- In a sorted list the entries up to a bound form a prefix. -/
theorem getElem_le_iff_lt_countP {entries : List α} (hsorted : entries.Pairwise (· ≤ ·))
    (bound : α) (rank : Nat) (hrank : rank < entries.length) :
    entries[rank] ≤ bound ↔ rank < entries.countP (· ≤ bound) := by
  induction entries generalizing rank with
  | nil => exact absurd hrank (Nat.not_lt_zero rank)
  | cons entry rest ih =>
      obtain ⟨hfirst, hrest⟩ := List.pairwise_cons.mp hsorted
      by_cases hentry : entry ≤ bound
      · rw [List.countP_cons_of_pos (by simpa using hentry)]
        cases rank with
        | zero => simp [hentry]
        | succ rank =>
            have hrank' : rank < rest.length := Nat.lt_of_succ_lt_succ hrank
            simpa using ih hrest rank hrank'
      · have hnone : rest.countP (· ≤ bound) = 0 := by
          apply List.countP_eq_zero.mpr
          intro later hlater hle
          exact hentry ((hfirst later hlater).trans (by simpa using hle))
        rw [List.countP_cons_of_neg (by simpa using hentry), hnone]
        constructor
        · intro hle
          have hsmall : entry ≤ (entry :: rest)[rank] := by
            cases rank with
            | zero => exact le_refl _
            | succ rank => exact hfirst _ (List.getElem_mem _)
          exact absurd (hsmall.trans hle) hentry
        · exact fun hlt => absurd hlt (Nat.not_lt_zero rank)

/-- Fewer entries of a larger list stay below a bound. -/
theorem countP_le_of_forall₂ {smaller larger : List α}
    (h : List.Forall₂ (· ≤ ·) smaller larger) (bound : α) :
    larger.countP (· ≤ bound) ≤ smaller.countP (· ≤ bound) := by
  induction h with
  | nil => exact le_refl _
  | @cons a b _ _ hle _ ih =>
      by_cases hb : b ≤ bound
      · rw [List.countP_cons_of_pos (by simpa using hb),
          List.countP_cons_of_pos (by simpa using hle.trans hb)]
        exact Nat.succ_le_succ ih
      · rw [List.countP_cons_of_neg (by simpa using hb)]
        exact ih.trans (List.sublist_cons_self a _).countP_le

/-- **Order statistics rise with the list.** -/
theorem mergeSort_getElem_mono {smaller larger : List α}
    (h : List.Forall₂ (· ≤ ·) smaller larger) (rank : Nat)
    (hsmaller : rank < (smaller.mergeSort (· ≤ ·)).length)
    (hlarger : rank < (larger.mergeSort (· ≤ ·)).length) :
    (smaller.mergeSort (· ≤ ·))[rank] ≤ (larger.mergeSort (· ≤ ·))[rank] := by
  apply (getElem_le_iff_lt_countP (List.pairwise_mergeSort' (· ≤ ·) smaller) _ rank hsmaller).mpr
  have hself := (getElem_le_iff_lt_countP (List.pairwise_mergeSort' (· ≤ ·) larger)
    (larger.mergeSort (· ≤ ·))[rank] rank hlarger).mp (le_refl _)
  rw [(List.mergeSort_perm larger _).countP_eq] at hself
  rw [(List.mergeSort_perm smaller _).countP_eq]
  exact hself.trans_le (countP_le_of_forall₂ h _)

end Ranks

/-! ## Interpolation -/

section Lines

variable {K : Type} [Field K] [LinearOrder K] [IsStrictOrderedRing K] [FloorRing K]
  {entry entry' : ℕ → K} {last : ℕ} {position position' : K}

/-- The straight line from the entry below a position to the next one, which is never beyond
the last. -/
def interpolate (entry : ℕ → K) (last : ℕ) (position : K) : K :=
  entry ⌊position⌋₊ +
    (entry (min (⌊position⌋₊ + 1) last) - entry ⌊position⌋₊) * (position - ⌊position⌋₊)

theorem floor_le_last (hlast : position ≤ last) : ⌊position⌋₊ ≤ last := by
  simpa using Nat.floor_mono hlast

/-- The weight of the next entry. -/
theorem weight_between (hnonneg : 0 ≤ position) :
    0 ≤ position - ⌊position⌋₊ ∧ position - ⌊position⌋₊ < 1 := by
  have hlow := Nat.floor_le hnonneg
  have hhigh := Nat.lt_floor_add_one position
  constructor
  · linarith
  · linarith

@[simp] theorem interpolate_natCast (entry : ℕ → K) (last rank : ℕ) :
    interpolate entry last rank = entry rank := by
  simp [interpolate]

/-- The curve lies between the two entries around the position. -/
theorem interpolate_between (hentry : MonotoneOn entry (Set.Iic last)) (hnonneg : 0 ≤ position)
    (hlast : position ≤ last) :
    entry ⌊position⌋₊ ≤ interpolate entry last position ∧
      interpolate entry last position ≤ entry (min (⌊position⌋₊ + 1) last) := by
  have hfloor := floor_le_last hlast
  obtain ⟨hlow, hhigh⟩ := weight_between hnonneg
  have hrise : entry ⌊position⌋₊ ≤ entry (min (⌊position⌋₊ + 1) last) :=
    hentry (Set.mem_Iic.mpr hfloor) (Set.mem_Iic.mpr (min_le_right _ _))
      (le_min (Nat.le_succ _) hfloor)
  unfold interpolate
  constructor
  · have hstep := mul_nonneg (sub_nonneg.mpr hrise) hlow
    linarith
  · have hstep := mul_le_of_le_one_right (sub_nonneg.mpr hrise) hhigh.le
    linarith

/-- **The curve rises with the position.** -/
theorem interpolate_mono_position (hentry : MonotoneOn entry (Set.Iic last))
    (hnonneg : 0 ≤ position) (hle : position ≤ position') (hlast : position' ≤ last) :
    interpolate entry last position ≤ interpolate entry last position' := by
  have hfloors : ⌊position⌋₊ ≤ ⌊position'⌋₊ := Nat.floor_mono hle
  rcases hfloors.eq_or_lt with hsame | hless
  · -- on one segment the line has a slope that is not negative
    have hfloor := floor_le_last hlast
    have hrise : entry ⌊position'⌋₊ ≤ entry (min (⌊position'⌋₊ + 1) last) :=
      hentry (Set.mem_Iic.mpr hfloor) (Set.mem_Iic.mpr (min_le_right _ _))
        (le_min (Nat.le_succ _) hfloor)
    unfold interpolate
    rw [hsame]
    gcongr
  · -- the end of the lower segment is not beyond the start of the upper one
    have hlower := (interpolate_between hentry hnonneg (hle.trans hlast)).2
    have hupper := (interpolate_between hentry (hnonneg.trans hle) hlast).1
    have hfloor := floor_le_last hlast
    have hmiddle : entry (min (⌊position⌋₊ + 1) last) ≤ entry ⌊position'⌋₊ :=
      hentry (Set.mem_Iic.mpr (min_le_right _ _)) (Set.mem_Iic.mpr hfloor)
        ((min_le_left _ _).trans hless)
    exact hlower.trans (hmiddle.trans hupper)

/-- **The curve rises with its entries.** -/
theorem interpolate_mono_entry (hle : ∀ rank ≤ last, entry rank ≤ entry' rank)
    (hnonneg : 0 ≤ position) (hlast : position ≤ last) :
    interpolate entry last position ≤ interpolate entry' last position := by
  obtain ⟨hlow, hhigh⟩ := weight_between hnonneg
  have hbelow := hle _ (floor_le_last hlast)
  have habove := hle (min (⌊position⌋₊ + 1) last) (min_le_right _ _)
  have hweighted : ∀ low high weight : K,
      low + (high - low) * weight = (1 - weight) * low + weight * high := by
    intro low high weight
    ring
  unfold interpolate
  rw [hweighted, hweighted]
  have hrest : 0 ≤ 1 - (position - ⌊position⌋₊) := by linarith
  gcongr

end Lines

end MiniLakehouse
