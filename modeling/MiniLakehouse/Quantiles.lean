import MiniLakehouse.Library.Interpolation
import MiniLakehouse.Numeric

/-!
# Quantile summaries

`quantiles` of `numeric.py` and the distributions that the feature audit and the outcome
audit compute with it (`features/audit.py`, `outcomes/audit.py`).
-/

namespace MiniLakehouse

/-! ## `quantiles` -/

/-- An entry of a sequence. -/
def entryAt (entries : List Rat) (index : Nat) : Except Raised Rat :=
  entries[index]?.elim (.error .indexError) .ok

/-- The quantile of an ordered sample at a fraction. -/
def quantile (ordered : List Rat) (fraction : Rat) : Except Raised Rat := do
  let position := ((ordered.length - 1 : Nat) : Rat) * fraction
  -- `int` truncates, and the position is not negative
  let lower := ⌊position⌋₊
  let upper := min (lower + 1) (ordered.length - 1)
  let weight := position - lower
  let low ← entryAt ordered lower
  let high ← entryAt ordered upper
  return low + (high - low) * weight

/-- `quantiles` -/
def quantiles (values fractions : List Rat) : Except Raised (List Rat) := do
  require (values ≠ []) (.valueError "quantiles require at least one value")
  require (∀ fraction ∈ fractions, 0 ≤ fraction ∧ fraction ≤ 1)
    (.valueError "quantile fractions must be between zero and one")
  fractions.mapM (quantile (values.mergeSort (· ≤ ·)))

/-- A share of the whole. -/
def IsFraction (fraction : Rat) : Prop := 0 ≤ fraction ∧ fraction ≤ 1

/-- The curve of a sample: its order statistics, joined by straight lines. -/
def sampleCurve (values : List Rat) (fraction : Rat) : Rat :=
  interpolate ((values.mergeSort (· ≤ ·)).getD · 0) (values.length - 1)
    (((values.length - 1 : Nat) : Rat) * fraction)

variable {values values' fractions : List Rat} {fraction fraction' : Rat}

theorem position_between (h : IsFraction fraction) (last : Nat) :
    0 ≤ (last : Rat) * fraction ∧ (last : Rat) * fraction ≤ last :=
  ⟨mul_nonneg (Nat.cast_nonneg _) h.1, mul_le_of_le_one_right (Nat.cast_nonneg _) h.2⟩

theorem entryAt_of_lt {entries : List Rat} {index : Nat} (h : index < entries.length) :
    entryAt entries index = .ok (entries.getD index 0) := by
  simp [entryAt, List.getD, List.getElem?_eq_getElem h]

/-- The quantile is read off the curve. -/
theorem quantile_eq (hvalues : values ≠ []) (h : IsFraction fraction) :
    quantile (values.mergeSort (· ≤ ·)) fraction = .ok (sampleCurve values fraction) := by
  have hpos : 0 < values.length := List.length_pos_iff.mpr hvalues
  have hfloor : ⌊((values.length - 1 : Nat) : Rat) * fraction⌋₊ ≤ values.length - 1 :=
    floor_le_last (position_between h _).2
  have hlength : (values.mergeSort (· ≤ ·)).length = values.length := List.length_mergeSort _
  have hlower : ⌊((values.length - 1 : Nat) : Rat) * fraction⌋₊ <
      (values.mergeSort (· ≤ ·)).length := by
    rw [hlength]
    omega
  have hupper : min (⌊((values.length - 1 : Nat) : Rat) * fraction⌋₊ + 1) (values.length - 1) <
      (values.mergeSort (· ≤ ·)).length := by
    rw [hlength]
    omega
  unfold quantile
  dsimp only
  rw [hlength, entryAt_of_lt hlower, entryAt_of_lt hupper, ok_bind, ok_bind]
  rfl

theorem quantiles_eq (hvalues : values ≠ []) (hfractions : ∀ fraction ∈ fractions,
    IsFraction fraction) :
    quantiles values fractions = .ok (fractions.map (sampleCurve values)) := by
  unfold quantiles
  have hbounds : ∀ fraction ∈ fractions, 0 ≤ fraction ∧ fraction ≤ 1 := hfractions
  rw [require_of hvalues, ok_bind, require_of hbounds, ok_bind]
  apply mapM_eq_ok.mpr
  apply List.forall₂_map_right_iff.mpr
  apply List.forall₂_same.mpr
  intro fraction hfraction
  exact quantile_eq hvalues (hfractions fraction hfraction)

/-! ## The curve of a sample -/

/-- The entries in order do not decrease with their rank. -/
theorem ordered_monotone (values : List Rat) :
    MonotoneOn ((values.mergeSort (· ≤ ·)).getD · 0) (Set.Iic (values.length - 1)) := by
  intro rank hrank rank' hrank' hle
  have hlength : (values.mergeSort (· ≤ ·)).length = values.length := List.length_mergeSort _
  by_cases hpos : 0 < values.length
  · have hlast : rank' < (values.mergeSort (· ≤ ·)).length := by
      rw [hlength]
      have hbound := Set.mem_Iic.mp hrank'
      omega
    simp only [List.getD_eq_getElem _ _ hlast, List.getD_eq_getElem _ _ (hle.trans_lt hlast)]
    rcases hle.eq_or_lt with rfl | hless
    · exact le_refl _
    · exact List.pairwise_iff_getElem.mp (List.pairwise_mergeSort' (· ≤ ·) values) _ _ _ _ hless
  · obtain rfl : values = [] := List.length_eq_zero_iff.mp (Nat.eq_zero_of_not_pos hpos)
    simp

/-- Every rank is that of an entry. -/
theorem ordered_mem (hvalues : values ≠ []) {rank : Nat} (hrank : rank ≤ values.length - 1) :
    (values.mergeSort (· ≤ ·)).getD rank 0 ∈ values := by
  have hpos : 0 < values.length := List.length_pos_iff.mpr hvalues
  have hlast : rank < (values.mergeSort (· ≤ ·)).length := by
    rw [List.length_mergeSort]
    omega
  rw [List.getD_eq_getElem _ _ hlast]
  exact (List.mergeSort_perm values _).subset (List.getElem_mem hlast)

/-- Every entry has a rank. -/
theorem exists_rank {value : Rat} (h : value ∈ values) :
    ∃ rank ≤ values.length - 1, (values.mergeSort (· ≤ ·)).getD rank 0 = value := by
  have hmem : value ∈ values.mergeSort (· ≤ ·) := (List.mergeSort_perm values _).symm.subset h
  obtain ⟨rank, hrank, rfl⟩ := List.getElem_of_mem hmem
  refine ⟨rank, ?_, List.getD_eq_getElem _ _ hrank⟩
  rw [List.length_mergeSort] at hrank
  omega

theorem sampleCurve_zero (values : List Rat) :
    sampleCurve values 0 = (values.mergeSort (· ≤ ·)).getD 0 0 := by
  unfold sampleCurve
  rw [mul_zero]
  exact_mod_cast interpolate_natCast ((values.mergeSort (· ≤ ·)).getD · 0) (values.length - 1) 0

theorem sampleCurve_one (values : List Rat) :
    sampleCurve values 1 = (values.mergeSort (· ≤ ·)).getD (values.length - 1) 0 := by
  unfold sampleCurve
  rw [mul_one]
  exact interpolate_natCast ((values.mergeSort (· ≤ ·)).getD · 0) (values.length - 1) _

/-- The fraction zero is that of the minimum. -/
theorem sampleCurve_isLeast (hvalues : values ≠ []) :
    IsLeast {value | value ∈ values} (sampleCurve values 0) := by
  rw [sampleCurve_zero]
  refine ⟨ordered_mem hvalues (Nat.zero_le _), ?_⟩
  intro value hvalue
  obtain ⟨rank, hrank, rfl⟩ := exists_rank hvalue
  exact ordered_monotone values (Set.mem_Iic.mpr (Nat.zero_le _)) (Set.mem_Iic.mpr hrank)
    (Nat.zero_le rank)

/-- The fraction one is that of the maximum. -/
theorem sampleCurve_isGreatest (hvalues : values ≠ []) :
    IsGreatest {value | value ∈ values} (sampleCurve values 1) := by
  rw [sampleCurve_one]
  refine ⟨ordered_mem hvalues (le_refl _), ?_⟩
  intro value hvalue
  obtain ⟨rank, hrank, rfl⟩ := exists_rank hvalue
  exact ordered_monotone values (Set.mem_Iic.mpr hrank) (Set.mem_Iic.mpr (le_refl _)) hrank

theorem sampleCurve_mono (values : List Rat) (h : 0 ≤ fraction) (hle : fraction ≤ fraction')
    (h' : fraction' ≤ 1) : sampleCurve values fraction ≤ sampleCurve values fraction' := by
  apply interpolate_mono_position (ordered_monotone values)
  case hnonneg => exact mul_nonneg (Nat.cast_nonneg _) h
  case hle => exact mul_le_mul_of_nonneg_left hle (Nat.cast_nonneg _)
  case hlast => exact mul_le_of_le_one_right (Nat.cast_nonneg _) h'

theorem sampleCurve_mono_values (hle : List.Forall₂ (· ≤ ·) values values')
    (h : IsFraction fraction) : sampleCurve values fraction ≤ sampleCurve values' fraction := by
  have hlength := hle.length_eq
  obtain ⟨hnonneg, hlast⟩ := position_between h (values.length - 1)
  unfold sampleCurve
  rw [← hlength]
  apply interpolate_mono_entry ?_ hnonneg hlast
  intro rank hrank
  by_cases hpos : 0 < values.length
  · have hsmaller : rank < (values.mergeSort (· ≤ ·)).length := by
      rw [List.length_mergeSort]
      omega
    have hlarger : rank < (values'.mergeSort (· ≤ ·)).length := by
      rw [List.length_mergeSort]
      omega
    rw [List.getD_eq_getElem _ _ hsmaller, List.getD_eq_getElem _ _ hlarger]
    exact mergeSort_getElem_mono hle rank hsmaller hlarger
  · obtain rfl : values = [] := List.length_eq_zero_iff.mp (Nat.eq_zero_of_not_pos hpos)
    obtain rfl : values' = [] := List.length_eq_zero_iff.mp hlength.symm
    exact le_refl _

theorem mergeSort_congr (h : values'.Perm values) :
    values'.mergeSort (· ≤ ·) = values.mergeSort (· ≤ ·) :=
  List.Perm.eq_of_pairwise' (List.pairwise_mergeSort' (· ≤ ·) values')
    (List.pairwise_mergeSort' (· ≤ ·) values)
    ((List.mergeSort_perm values' _).trans (h.trans (List.mergeSort_perm values _).symm))

/-! ## Distributions -/

/-- `ReturnDistribution` of the outcome audit. -/
structure ReturnDistribution where
  count : Nat
  minimum : Rat
  p05 : Rat
  p50 : Rat
  p95 : Rat
  maximum : Rat
  count_pos : 0 < count
  ordered : minimum ≤ p05 ∧ p05 ≤ p50 ∧ p50 ≤ p95 ∧ p95 ≤ maximum

/-- `Distribution` of the feature audit. -/
structure Distribution where
  count : Nat
  minimum : Rat
  p50 : Rat
  p95 : Rat
  maximum : Rat
  count_pos : 0 < count
  ordered : minimum ≤ p50 ∧ p50 ≤ p95 ∧ p95 ≤ maximum

/-- `ReturnDistribution(…)` -/
def ReturnDistribution.modelValidate (count : Nat) (minimum p05 p50 p95 maximum : Rat) :
    Except Raised ReturnDistribution := do
  let positive ← ensure (0 < count) (.fieldError "count")
  let ordered ← ensure (minimum ≤ p05 ∧ p05 ≤ p50 ∧ p50 ≤ p95 ∧ p95 ≤ maximum)
    (.valueError "outcome distribution quantiles must be ordered")
  return ⟨count, minimum, p05, p50, p95, maximum, positive.down, ordered.down⟩

/-- `Distribution(…)` -/
def Distribution.modelValidate (count : Nat) (minimum p50 p95 maximum : Rat) :
    Except Raised Distribution := do
  let positive ← ensure (0 < count) (.fieldError "count")
  let ordered ← ensure (minimum ≤ p50 ∧ p50 ≤ p95 ∧ p95 ≤ maximum)
    (.valueError "feature distribution quantiles must be ordered")
  return ⟨count, minimum, p50, p95, maximum, positive.down, ordered.down⟩

/-- `_distribution` of the outcome audit. -/
def returnDistribution (values : List Rat) : Except Raised (Option ReturnDistribution) := do
  if values = [] then return none
  match ← quantiles values [0, 5 / 100, 50 / 100, 95 / 100, 1] with
  | [minimum, p05, p50, p95, maximum] =>
      some <$> ReturnDistribution.modelValidate values.length minimum p05 p50 p95 maximum
  | _ => throw (.valueError "cannot unpack the quantiles")

/-- `_distribution` of the feature audit. -/
def distribution (values : List Rat) : Except Raised Distribution := do
  match ← quantiles values [0, 50 / 100, 95 / 100, 1] with
  | [minimum, p50, p95, maximum] =>
      Distribution.modelValidate values.length minimum p50 p95 maximum
  | _ => throw (.valueError "cannot unpack the quantiles")

/-- `_summary`: the distribution of the values that are there. -/
def summary (values : List (Option Rat)) : Except Raised (Option Distribution) := do
  let present := values.filterMap id
  if present = [] then return none
  some <$> distribution present

/-- The outcome audit's validator accepts what the audit computes. -/
theorem returnDistribution_ok (values : List Rat) :
    ∃ result, returnDistribution values = .ok result ∧ (result.isSome ↔ values ≠ []) := by
  unfold returnDistribution
  by_cases hvalues : values = []
  · exact ⟨none, by rw [if_pos hvalues]; rfl, by simp [hvalues]⟩
  · have hfractions : ∀ fraction ∈ ([0, 5 / 100, 50 / 100, 95 / 100, 1] : List Rat),
        IsFraction fraction := by
      simp only [List.forall_mem_cons, IsFraction]
      norm_num
    have hordered : sampleCurve values 0 ≤ sampleCurve values (5 / 100) ∧
        sampleCurve values (5 / 100) ≤ sampleCurve values (50 / 100) ∧
        sampleCurve values (50 / 100) ≤ sampleCurve values (95 / 100) ∧
        sampleCurve values (95 / 100) ≤ sampleCurve values 1 := by
      refine ⟨?_, ?_, ?_, ?_⟩
      all_goals
        apply sampleCurve_mono
        all_goals norm_num
    have hcount : 0 < values.length := List.length_pos_iff.mpr hvalues
    refine ⟨some ⟨values.length, _, _, _, _, _, hcount, hordered⟩, ?_, by simp [hvalues]⟩
    rw [if_neg hvalues, quantiles_eq hvalues hfractions]
    simp only [ok_bind, List.map_cons, List.map_nil]
    rw [ReturnDistribution.modelValidate, ensure_of hcount, ensure_of hordered]
    rfl

/-- The feature audit's validator accepts what the audit computes. -/
theorem distribution_ok (hvalues : values ≠ []) : ∃ result, distribution values = .ok result := by
  have hfractions : ∀ fraction ∈ ([0, 50 / 100, 95 / 100, 1] : List Rat), IsFraction fraction := by
    simp only [List.forall_mem_cons, IsFraction]
    norm_num
  have hordered : sampleCurve values 0 ≤ sampleCurve values (50 / 100) ∧
      sampleCurve values (50 / 100) ≤ sampleCurve values (95 / 100) ∧
      sampleCurve values (95 / 100) ≤ sampleCurve values 1 := by
    refine ⟨?_, ?_, ?_⟩
    all_goals
      apply sampleCurve_mono
      all_goals norm_num
  have hcount : 0 < values.length := List.length_pos_iff.mpr hvalues
  refine ⟨⟨values.length, _, _, _, _, hcount, hordered⟩, ?_⟩
  unfold distribution
  rw [quantiles_eq hvalues hfractions]
  simp only [ok_bind, List.map_cons, List.map_nil]
  rw [Distribution.modelValidate, ensure_of hcount, ensure_of hordered]
  rfl

theorem summary_ok (values : List (Option Rat)) : ∃ result, summary values = .ok result := by
  unfold summary
  dsimp only
  by_cases hpresent : values.filterMap id = []
  · exact ⟨none, by rw [if_pos hpresent]; rfl⟩
  · obtain ⟨result, hresult⟩ := distribution_ok hpresent
    refine ⟨some result, ?_⟩
    rw [if_neg hpresent, hresult]
    rfl

/-! ## Quantiles are ordered -/

/-- **Quantile summaries are ordered.**  The quantiles of a sample do not decrease with the
fraction, lie between its minimum and its maximum, which are those of zero and one, do not
decrease when an element is increased, and depend on no order of the sample; and no
distribution that an audit computes is rejected. -/
theorem quantile_summaries_ordered (hvalues : values ≠ [])
    (hfractions : ∀ fraction ∈ fractions, IsFraction fraction)
    (hascending : fractions.Pairwise (· ≤ ·)) :
    (∃ results, quantiles values fractions = .ok results ∧ results.Pairwise (· ≤ ·) ∧
      ∃ minimum maximum, IsLeast {value | value ∈ values} minimum ∧
        IsGreatest {value | value ∈ values} maximum ∧
        List.Forall₂ (fun fraction result => minimum ≤ result ∧ result ≤ maximum ∧
          (fraction = 0 → result = minimum) ∧ (fraction = 1 → result = maximum))
          fractions results) ∧
      (∀ index (hindex : index < values.length) larger, values[index] ≤ larger →
        ∃ results results', quantiles values fractions = .ok results ∧
          quantiles (values.set index larger) fractions = .ok results' ∧
          List.Forall₂ (· ≤ ·) results results') ∧
      (∀ values' : List Rat, values'.Perm values →
        quantiles values' fractions = quantiles values fractions) ∧
      (∃ result, returnDistribution values = .ok (some result)) ∧
      (∃ result, distribution values = .ok result) ∧
      ∀ present : List (Option Rat), ∃ result, summary present = .ok result := by
  have hquantiles := quantiles_eq hvalues hfractions
  refine ⟨⟨_, hquantiles, ?_, _, _, sampleCurve_isLeast hvalues,
    sampleCurve_isGreatest hvalues, ?_⟩, ?_, ?_, ?_, distribution_ok hvalues, summary_ok⟩
  · apply List.pairwise_map.mpr
    apply hascending.imp_of_mem
    intro lower upper hlower hupper hle
    exact sampleCurve_mono values (hfractions lower hlower).1 hle (hfractions upper hupper).2
  · apply List.forall₂_map_right_iff.mpr
    apply List.forall₂_same.mpr
    intro fraction hfraction
    obtain ⟨hnonneg, hone⟩ := hfractions fraction hfraction
    refine ⟨sampleCurve_mono values (le_refl 0) hnonneg hone,
      sampleCurve_mono values hnonneg hone (le_refl 1), ?_, ?_⟩
    · rintro rfl
      rfl
    · rintro rfl
      rfl
  · intro index hindex larger hlarger
    have hraised : List.Forall₂ (· ≤ ·) values (values.set index larger) := by
      apply List.forall₂_iff_get.mpr
      refine ⟨(List.length_set).symm, ?_⟩
      intro rank hrank hrank'
      simp only [List.get_eq_getElem, List.getElem_set]
      split
      · next hsame =>
          subst hsame
          exact hlarger
      · exact le_refl _
    have hset : values.set index larger ≠ [] := by
      intro hnil
      exact hvalues (by simpa using hnil)
    refine ⟨_, _, hquantiles, quantiles_eq hset hfractions, ?_⟩
    apply List.forall₂_map_left_iff.mpr
    apply List.forall₂_map_right_iff.mpr
    apply List.forall₂_same.mpr
    intro fraction hfraction
    exact sampleCurve_mono_values hraised (hfractions fraction hfraction)
  · intro values' hperm
    have hvalues' : values' ≠ [] := by
      intro hnil
      subst hnil
      exact hvalues hperm.symm.eq_nil
    unfold quantiles
    rw [mergeSort_congr hperm, require_of hvalues, require_of hvalues']
  · obtain ⟨result, hresult, hsome⟩ := returnDistribution_ok values
    obtain ⟨found, rfl⟩ := Option.isSome_iff_exists.mp (hsome.mpr hvalues)
    exact ⟨found, hresult⟩

theorem quantile_summaries_ordered_sample :
    ∃ results, quantiles [3, 1, 2] [0, 1 / 3, 1] = .ok results ∧ results.Pairwise (· ≤ ·) := by
  have hvalues : ([3, 1, 2] : List Rat) ≠ [] := by decide
  have hfractions : ∀ fraction ∈ ([0, 1 / 3, 1] : List Rat), IsFraction fraction := by
    simp only [List.forall_mem_cons, IsFraction]
    norm_num
  have hascending : ([0, 1 / 3, 1] : List Rat).Pairwise (· ≤ ·) := by norm_num
  obtain ⟨⟨results, hresults, hordered, -⟩, -⟩ :=
    quantile_summaries_ordered hvalues hfractions hascending
  exact ⟨results, hresults, hordered⟩

end MiniLakehouse
