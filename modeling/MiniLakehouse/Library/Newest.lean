import MiniLakehouse.Library.Sql

/-!
# The newest row of a key

`mergeNewest` is a `MERGE` by a key that changes a matched row only where the source row has a
greater rank.  Seen from one key it is `newest`, which keeps what is there unless it is offered
something of a greater rank.  What a run of offers comes to has the greatest rank of them, and
the first such offer is kept: where no two offers share a rank, the order does not matter.
-/

namespace MiniLakehouse

section Newest

variable {T β : Type} [LinearOrder β] (rank : T → β)

/-- What is kept of a row when another one is offered. -/
def newest : Option T → Option T → Option T
  | none, offered => offered
  | some kept, none => some kept
  | some kept, some offered => if rank kept < rank offered then some offered else some kept

/-- What is kept of offers, one after another. -/
def newestOf (offers : List (Option T)) : Option T := offers.foldl (newest rank) none

variable {rank}

@[simp] theorem newest_none_left (offered : Option T) : newest rank none offered = offered := rfl

@[simp] theorem newest_none_right (kept : Option T) : newest rank kept none = kept := by
  cases kept <;> rfl

theorem newest_some (kept offered : T) : newest rank (some kept) (some offered) =
    if rank kept < rank offered then some offered else some kept := rfl

/-- One of the two is kept, and it has the greater rank. -/
theorem newest_eq_some {kept offered : Option T} {row : T} (h : newest rank kept offered = some row) :
    (kept = some row ∨ offered = some row) ∧ (∀ other ∈ kept, rank other ≤ rank row) ∧
      ∀ other ∈ offered, rank other ≤ rank row := by
  cases kept with
  | none =>
      rw [newest_none_left] at h
      subst h
      simp
  | some kept =>
      cases offered with
      | none =>
          rw [newest_none_right] at h
          obtain rfl := Option.some.inj h
          simp
      | some offered =>
          rw [newest_some] at h
          by_cases hless : rank kept < rank offered
          · rw [if_pos hless] at h
            obtain rfl := Option.some.inj h
            simpa using hless.le
          · rw [if_neg hless] at h
            obtain rfl := Option.some.inj h
            simpa using not_lt.mp hless

theorem newest_eq_none {kept offered : Option T} :
    newest rank kept offered = none ↔ kept = none ∧ offered = none := by
  cases kept with
  | none => simp
  | some kept =>
      cases offered with
      | none => simp
      | some offered =>
          rw [newest_some]
          by_cases hless : rank kept < rank offered
          · simp [hless]
          · simp [hless]

/-- What no offer exceeds is kept. -/
theorem newest_of_top {row : T} {offered : Option T} (h : ∀ other ∈ offered, rank other ≤ rank row) :
    newest rank (some row) offered = some row := by
  cases offered with
  | none => rfl
  | some offered => exact if_neg (not_lt.mpr (h offered rfl))

theorem newestOf_concat (offers : List (Option T)) (offered : Option T) :
    newestOf rank (offers ++ [offered]) = newest rank (newestOf rank offers) offered := by
  simp [newestOf]

theorem newestOf_eq_none {offers : List (Option T)} :
    newestOf rank offers = none ↔ ∀ offered ∈ offers, offered = none := by
  induction offers using List.reverseRecOn with
  | nil => simp [newestOf]
  | append_singleton offers offered ih =>
      rw [newestOf_concat, newest_eq_none, ih]
      simp only [List.mem_append, List.mem_singleton, or_imp, forall_and, forall_eq]

/-- What is kept was offered, and nothing that was offered has a greater rank. -/
theorem newestOf_eq_some {offers : List (Option T)} {row : T} (h : newestOf rank offers = some row) :
    some row ∈ offers ∧ ∀ other, some other ∈ offers → rank other ≤ rank row := by
  induction offers using List.reverseRecOn generalizing row with
  | nil => cases h
  | append_singleton offers offered ih =>
      rw [newestOf_concat] at h
      obtain ⟨hfrom, hkept, hoffered⟩ := newest_eq_some h
      constructor
      · rcases hfrom with hfrom | hfrom
        · exact List.mem_append_left _ (ih hfrom).1
        · exact List.mem_append_right _ (by simp [hfrom])
      · intro other hother
        rcases List.mem_append.mp hother with hother | hother
        · cases hbefore : newestOf rank offers with
          | none =>
              have hnone := newestOf_eq_none.mp hbefore (some other) hother
              cases hnone
          | some before => exact ((ih hbefore).2 other hother).trans (hkept before hbefore)
        · exact hoffered other (List.mem_singleton.mp hother).symm

/-- The first offer is kept where none exceeds it. -/
theorem newestOf_cons_top {row : T} {offers : List (Option T)}
    (h : ∀ other, some other ∈ offers → rank other ≤ rank row) :
    newestOf rank (some row :: offers) = some row := by
  induction offers using List.reverseRecOn with
  | nil => rfl
  | append_singleton offers offered ih =>
      rw [← List.cons_append, newestOf_concat, ih fun other hother => h other (List.mem_append_left _ hother)]
      apply newest_of_top
      intro other hother
      exact h other (List.mem_append_right _ (List.mem_singleton.mpr (Option.mem_def.mp hother).symm))

/-- The offer of the greatest rank, where no other one has it. -/
theorem newestOf_eq_of_greatest {row : T} {offers : List (Option T)} (hrow : some row ∈ offers)
    (h : ∀ other, some other ∈ offers → rank other ≤ rank row ∧ (rank other = rank row → other = row)) :
    newestOf rank offers = some row := by
  cases hkept : newestOf rank offers with
  | none => exact absurd (newestOf_eq_none.mp hkept _ hrow) (by simp)
  | some kept =>
      obtain ⟨hoffered, hgreatest⟩ := newestOf_eq_some hkept
      obtain ⟨hle, hsame⟩ := h kept hoffered
      rw [hsame (le_antisymm hle (hgreatest row hrow))]

/-! ## Tables -/

variable {κ ε : Type} [DecidableEq κ] (key : T → κ)

/-- The row of a key. -/
def cell (rows : List T) (k : κ) : Option T := rows.find? fun row => key row = k

/-- `MERGE … WHEN MATCHED AND` the source's rank is greater `THEN UPDATE … WHEN NOT MATCHED THEN
INSERT` -/
def mergeNewest (rank : T → β) (error : ε) (target source : List T) : Except ε (List T) :=
  merge error (fun row item => key row = key item)
    (fun row item => if rank row < rank item then item else row) some target source

variable {key}

theorem cell_eq_some {rows : List T} (h : (rows.map key).Nodup) {k : κ} {row : T} :
    cell key rows k = some row ↔ row ∈ rows ∧ key row = k := by
  constructor
  · intro hcell
    exact ⟨List.mem_of_find?_eq_some hcell, by simpa using List.find?_some hcell⟩
  · intro hrow
    have hfilter := filter_key_eq_find? h k
    have hmem : row ∈ rows.filter fun row => key row = k := by
      simpa using hrow
    rw [hfilter, Option.mem_toList] at hmem
    exact hmem

omit [DecidableEq κ] in
/-- A matched row keeps its key. -/
theorem key_newest {row item : T} (h : key row = key item) :
    key (if rank row < rank item then item else row) = key row := by
  by_cases hless : rank row < rank item
  · rw [if_pos hless, h]
  · rw [if_neg hless]

/-- **A merge of newer rows** does not fail, leaves one row for a key, and each key with the newer
one of its two rows. -/
theorem mergeNewest_ok (error : ε) {target source : List T} (htarget : (target.map key).Nodup)
    (hsource : (source.map key).Nodup) :
    ∃ merged, mergeNewest key rank error target source = .ok merged ∧ (merged.map key).Nodup ∧
      ∀ k, cell key merged k = newest rank (cell key target k) (cell key source k) := by
  have hpairwise : ∀ row ∈ target, source.Pairwise fun first second =>
      decide (key row = key first) = true → decide (key row = key second) = false := by
    intro row _
    refine (List.pairwise_map.mp hsource).imp ?_
    intro first second hne hfirst
    rw [decide_eq_true_eq] at hfirst
    exact decide_eq_false (hfirst ▸ hne)
  have hchanged : ∀ row, (source.find? fun item => key row = key item) = cell key source (key row) := by
    intro row
    unfold cell
    congr 1
    funext item
    exact decide_eq_decide.mpr eq_comm
  have hkey : ∀ row, key ((cell key source (key row)).elim row fun item =>
      if rank row < rank item then item else row) = key row := by
    intro row
    cases hcell : cell key source (key row) with
    | none => rfl
    | some item => exact key_newest ((cell_eq_some hsource).mp hcell).2.symm
  refine ⟨_, merge_eq_ok hpairwise, ?_, ?_⟩
  · simp only [hchanged, List.filterMap_some, List.map_append, List.map_map, Function.comp_def, hkey]
    apply List.Nodup.append htarget
    · exact hsource.sublist (List.filter_sublist.map key)
    · intro k hk hk'
      obtain ⟨row, hrow, rfl⟩ := List.mem_map.mp hk
      obtain ⟨item, hitem, hsame⟩ := List.mem_map.mp hk'
      have hnone := (List.mem_filter.mp hitem).2
      rw [Bool.not_eq_true', List.any_eq_false] at hnone
      exact hnone row hrow (by simpa using hsame.symm)
  · intro k
    simp only [hchanged, List.filterMap_some]
    have hsame : (fun row => decide (key row = k)) ∘ (fun row => (cell key source (key row)).elim row
        fun item => if rank row < rank item then item else row) = fun row => decide (key row = k) := by
      funext row
      rw [Function.comp_apply, hkey]
    have hkept : cell key (target.map fun row => (cell key source (key row)).elim row fun item =>
        if rank row < rank item then item else row) k = (cell key target k).map fun row =>
          (cell key source (key row)).elim row fun item =>
            if rank row < rank item then item else row := by
      rw [cell, List.find?_map, hsame]
      rfl
    have happend : ∀ rows rows' : List T, cell key (rows ++ rows') k =
        (cell key rows k).or (cell key rows' k) := fun _ _ => List.find?_append
    rw [happend, hkept]
    cases hcell : cell key target k with
    | none =>
        have hmissing : ∀ row ∈ target, key row ≠ k := by
          intro row hrow hk
          have hfound := (cell_eq_some htarget).mpr ⟨hrow, hk⟩
          rw [hcell] at hfound
          cases hfound
        rw [Option.map_none, Option.none_or, newest_none_left, cell, List.find?_filter]
        apply congrArg source.find?
        funext item
        by_cases hitem : key item = k
        · simpa [hitem] using hmissing
        · simp [hitem]
    | some row =>
        have hk := ((cell_eq_some htarget).mp hcell).2
        rw [Option.map_some, Option.some_or, hk]
        cases cell key source k with
        | none => rfl
        | some item =>
            rw [newest_some]
            exact apply_ite some (rank row < rank item) item row

end Newest

end MiniLakehouse
