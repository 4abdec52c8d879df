import Mathlib

/-!
# Statements over tables

A table is the list of its rows.  `merge` is `MERGE INTO … WHEN MATCHED … WHEN
NOT MATCHED`, which fails where several source rows match one target row, and
`insertMissing` the `MERGE` that only inserts.  `firstInGroup` keeps the row
that `row_number()` numbers 1 in each partition.  Each statement has one lemma
that says which rows it leaves.
-/

namespace MiniLakehouse

variable {T S ε : Type}

/-- `MERGE INTO target USING source ON …`: matched rows are changed, and source rows
without a match may be inserted. -/
def merge (error : ε) (on : T → S → Bool) (matched : T → S → T) (notMatched : S → Option T)
    (target : List T) (source : List S) : Except ε (List T) :=
  if ∀ row ∈ target, (source.filter (on row)).length ≤ 1 then
    .ok (target.map (fun row => (source.find? (on row)).elim row (matched row)) ++
      (source.filter fun item => !target.any (on · item)).filterMap notMatched)
  else .error error

/-- A source of which no two rows match the same target row is merged. -/
theorem merge_eq_ok {error : ε} {on : T → S → Bool} {matched : T → S → T}
    {notMatched : S → Option T} {target : List T} {source : List S}
    (h : ∀ row ∈ target, source.Pairwise fun first second =>
      on row first = true → on row second = false) :
    merge error on matched notMatched target source =
      .ok (target.map (fun row => (source.find? (on row)).elim row (matched row)) ++
        (source.filter fun item => !target.any (on · item)).filterMap notMatched) := by
  refine if_pos ?_
  intro row hrow
  have hpairwise := (h row hrow).filter (on row)
  cases hfilter : source.filter (on row) with
  | nil => simp
  | cons first rest =>
      cases rest with
      | nil => simp
      | cons second rest =>
          rw [hfilter, List.pairwise_cons] at hpairwise
          have hmem : ∀ item ∈ first :: second :: rest, on row item = true := by
            intro item hitem
            rw [← hfilter] at hitem
            exact (List.mem_filter.mp hitem).2
          have hnot := hpairwise.1 second (by simp) (hmem first (by simp))
          rw [hmem second (by simp)] at hnot
          cases hnot

/-- `MERGE INTO target USING source ON … WHEN NOT MATCHED THEN INSERT *`. -/
def insertMissing (on : T → T → Bool) (target source : List T) : List T :=
  target ++ source.filter fun item => !target.any (on · item)

theorem mem_insertMissing {on : T → T → Bool} {target source : List T} {row : T} :
    row ∈ insertMissing on target source ↔
      row ∈ target ∨ row ∈ source ∧ ∀ other ∈ target, on other row = false := by
  simp [insertMissing]

/-- Nothing is missing from a table that matches every source row. -/
theorem insertMissing_eq_self {on : T → T → Bool} {target source : List T}
    (h : ∀ item ∈ source, ∃ row ∈ target, on row item = true) :
    insertMissing on target source = target := by
  rw [insertMissing, List.append_right_eq_self, List.filter_eq_nil_iff]
  intro item hitem
  simpa using h item hitem

/-- The rows of a key that is not repeated. -/
theorem filter_key_eq_find? {κ : Type} [DecidableEq κ] {key : T → κ} {rows : List T}
    (h : (rows.map key).Nodup) (k : κ) :
    rows.filter (key · = k) = (rows.find? (key · = k)).toList := by
  induction rows with
  | nil => rfl
  | cons row rows ih =>
      obtain ⟨hnot, hrows⟩ := List.nodup_cons.mp h
      by_cases hkey : key row = k
      · have hnone : rows.filter (key · = k) = [] := by
          rw [List.filter_eq_nil_iff]
          intro other hother hsame
          exact hnot (List.mem_map.mpr ⟨other, hother,
            (of_decide_eq_true hsame).trans hkey.symm⟩)
        simp [hkey, hnone]
      · rw [List.filter_cons_of_neg (by simp [hkey]), List.find?_cons_of_neg (by simp [hkey]),
          ih hrows]

/-- **A merge by key**, of a source without repeated keys: it does not fail, and the rows of a
key are replaced by the source's row where it has one. -/
theorem merge_byKey {κ : Type} [DecidableEq κ] {key : T → κ} (error : ε) (target : List T)
    {source : List T} (hsource : (source.map key).Nodup) :
    ∃ merged, merge error (fun row item => key row = key item) (fun _ item => item) some
        target source = .ok merged ∧
      ∀ k, merged.filter (key · = k) = (source.find? (key · = k)).elim (target.filter (key · = k))
        fun item =>
          if target.filter (key · = k) = [] then [item]
          else (target.filter (key · = k)).map fun _ => item := by
  have hpairwise : ∀ row ∈ target, source.Pairwise fun first second =>
      decide (key row = key first) = true → decide (key row = key second) = false := by
    intro row _
    refine (List.pairwise_map.mp hsource).imp ?_
    intro first second hne hfirst
    rw [decide_eq_true_eq] at hfirst
    exact decide_eq_false (hfirst ▸ hne)
  refine ⟨_, merge_eq_ok hpairwise, ?_⟩
  intro k
  have hchanged : ∀ row, key row = k →
      (source.find? fun item => key row = key item) = source.find? (key · = k) := by
    rintro row rfl
    congr 1
    funext item
    simp [eq_comm]
  have hkept : ∀ row, key ((source.find? fun item => key row = key item).elim row id) = key row := by
    intro row
    cases hfind : source.find? fun item => key row = key item with
    | none => rfl
    | some item =>
        have hkey : key row = key item := by simpa using List.find?_some hfind
        exact hkey.symm
  have hmatched : (target.map fun row =>
      (source.find? fun item => key row = key item).elim row id).filter (key · = k) =
      (target.filter (key · = k)).map fun row => (source.find? (key · = k)).elim row id := by
    rw [List.filter_map]
    have hfilter : (target.filter ((fun row => decide (key row = k)) ∘ fun row =>
        (source.find? fun item => key row = key item).elim row id)) =
        target.filter (key · = k) := by
      apply List.filter_congr
      intro row _
      simp only [Function.comp_apply]
      rw [hkept]
    rw [hfilter]
    apply List.map_congr_left
    intro row hrow
    rw [hchanged row (of_decide_eq_true (List.mem_filter.mp hrow).2)]
  have hinserted : ((source.filter fun item => !target.any fun row => key row = key item).filterMap
      some).filter (key · = k) =
      if target.filter (key · = k) = [] then (source.find? (key · = k)).toList else [] := by
    rw [List.filterMap_some, ← filter_key_eq_find? hsource, List.filter_filter]
    by_cases hnone : target.filter (key · = k) = []
    · rw [if_pos hnone]
      apply List.filter_congr
      intro item _
      by_cases hkey : key item = k
      · have hmissing : ∀ row ∈ target, key row ≠ key item := by
          intro row hrow hsame
          have hmem : row ∈ target.filter (key · = k) := by
            simpa using ⟨hrow, hsame.trans hkey⟩
          rw [hnone] at hmem
          cases hmem
        simpa [hkey] using fun row hrow => hkey ▸ hmissing row hrow
      · simp [hkey]
    · rw [if_neg hnone, List.filter_eq_nil_iff]
      intro item _
      obtain ⟨row, hmem⟩ := List.exists_mem_of_ne_nil _ hnone
      obtain ⟨hrow, hkey⟩ := List.mem_filter.mp hmem
      simp only [Bool.and_eq_true, decide_eq_true_eq, Bool.not_eq_true', not_and,
        Bool.not_eq_false]
      rintro rfl
      exact List.any_eq_true.mpr ⟨row, hrow, hkey⟩
  rw [List.filter_append, show (fun (row : T) =>
    (source.find? fun item => key row = key item).elim row fun item => item) = fun row =>
      (source.find? fun item => key row = key item).elim row id from rfl, hmatched, hinserted]
  cases source.find? (key · = k) with
  | none => simp
  | some item =>
      by_cases hnone : target.filter (key · = k) = []
      · simp [hnone]
      · simp [hnone]

/-! ## Partitions -/

section Partitions

variable {κ β : Type} [DecidableEq κ] [LinearOrder β]

/-- The row that `row_number() OVER (PARTITION BY group ORDER BY order DESC)` numbers 1, in
each partition. -/
def firstInGroup (group : T → κ) (order : T → β) (rows : List T) : List T :=
  (rows.map group).dedup.filterMap fun k => (rows.filter (group · = k)).argmax order

theorem mem_firstInGroup {group : T → κ} {order : T → β} {rows : List T} {row : T}
    (h : row ∈ firstInGroup group order rows) :
    row ∈ rows ∧ ∀ other ∈ rows, group other = group row → order other ≤ order row := by
  obtain ⟨k, -, hargmax⟩ := List.mem_filterMap.mp h
  have hmem := List.mem_filter.mp (List.argmax_mem hargmax)
  refine ⟨hmem.1, ?_⟩
  intro other hother hgroup
  apply List.le_of_mem_argmax _ hargmax
  refine List.mem_filter.mpr ⟨hother, ?_⟩
  rw [decide_eq_true_eq, hgroup]
  exact of_decide_eq_true hmem.2

/-- Every partition has a first row. -/
theorem exists_firstInGroup {group : T → κ} {order : T → β} {rows : List T} {row : T}
    (h : row ∈ rows) : ∃ first ∈ firstInGroup group order rows, group first = group row := by
  have hne : rows.filter (group · = group row) ≠ [] := by
    intro hnil
    have hmem : row ∈ rows.filter (group · = group row) := by simp [h]
    rw [hnil] at hmem
    cases hmem
  have hsome : (rows.filter (group · = group row)).argmax order ≠ none :=
    fun hnone => hne (List.argmax_eq_none.mp hnone)
  obtain ⟨first, hfirst⟩ := Option.ne_none_iff_exists'.mp hsome
  refine ⟨first, List.mem_filterMap.mpr ⟨group row, ?_, hfirst⟩, ?_⟩
  · exact List.mem_dedup.mpr (List.mem_map_of_mem h)
  · exact of_decide_eq_true (List.mem_filter.mp (List.argmax_mem hfirst)).2

/-- No partition has two first rows. -/
theorem firstInGroup_nodup {group : T → κ} {order : T → β} {rows : List T} :
    ((firstInGroup group order rows).map group).Nodup := by
  rw [firstInGroup, List.map_filterMap]
  refine List.Nodup.filterMap ?_ (List.nodup_dedup _)
  intro k k' g hk hk'
  have hgroup : ∀ k, g ∈ ((rows.filter (group · = k)).argmax order).map group → g = k := by
    intro k hmem
    obtain ⟨first, hfirst, rfl⟩ := Option.map_eq_some_iff.mp hmem
    exact of_decide_eq_true (List.mem_filter.mp (List.argmax_mem hfirst)).2
  exact (hgroup k hk).symm.trans (hgroup k' hk')

end Partitions

end MiniLakehouse
