import Mathlib

/-!
# Journals

A list of entries in the order in which they were made.  `Justified R` says that
every entry stands in `R` to the entries before it; appending an entry asks only
for its own justification (`justified_snoc`).  `journaled` is a machine that notes
what its steps do, and `journaled_invariant` the rule for its runs.
-/

namespace MiniLakehouse

variable {α : Type}

/-- Every entry is justified by what precedes it. -/
def Justified (R : List α → α → Prop) (journal : List α) : Prop :=
  ∀ before entry after, journal = before ++ entry :: after → R before entry

theorem justified_nil (R : List α → α → Prop) : Justified R [] := by
  intro before entry after h
  simp at h

/-- One more entry is justified by the whole journal. -/
theorem justified_snoc {R : List α → α → Prop} {journal : List α} {entry : α} :
    Justified R (journal ++ [entry]) ↔ Justified R journal ∧ R journal entry := by
  constructor
  · intro h
    constructor
    · intro before found after hsplit
      exact h before found (after ++ [entry]) (by simp [hsplit])
    · exact h journal entry [] rfl
  · rintro ⟨hjournal, hentry⟩ before found after hsplit
    rcases List.eq_nil_or_concat after with rfl | ⟨rest, last, rfl⟩
    · obtain ⟨rfl, hsame⟩ := List.append_inj' hsplit rfl
      obtain rfl := List.singleton_inj.mp hsame
      exact hentry
    · have hsplit' : journal ++ [entry] = (before ++ found :: rest) ++ [last] := by
        simpa using hsplit
      exact hjournal before found rest (List.append_inj' hsplit' rfl).1

/-- A weaker justification. -/
theorem Justified.imp {R S : List α → α → Prop} {journal : List α} (h : Justified R journal)
    (himp : ∀ before entry, R before entry → S before entry) : Justified S journal :=
  fun before entry after hsplit => himp before entry (h before entry after hsplit)

/-- What justifies an entry against each entry before it orders the journal. -/
theorem Justified.pairwise {R : α → α → Prop} {journal : List α}
    (h : Justified (fun before entry => ∀ earlier ∈ before, R earlier entry) journal) :
    journal.Pairwise R := by
  induction journal using List.reverseRecOn with
  | nil => exact List.Pairwise.nil
  | append_singleton journal entry ih =>
      obtain ⟨hjournal, hentry⟩ := justified_snoc.mp h
      refine List.pairwise_append.mpr ⟨ih hjournal, List.pairwise_singleton _ _, ?_⟩
      intro earlier hearlier last hlast
      rw [List.mem_singleton.mp hlast]
      exact hentry earlier hearlier

/-- A journal splits in one way at its last entry of a kind. -/
theorem split_last_unique {p : α → Prop} {before before' after after' : List α} {entry entry' : α}
    (h : before ++ entry :: after = before' ++ entry' :: after') (hentry : p entry)
    (hentry' : p entry') (hafter : ∀ later ∈ after, ¬p later)
    (hafter' : ∀ later ∈ after', ¬p later) :
    before = before' ∧ entry = entry' ∧ after = after' := by
  rcases List.append_eq_append_iff.mp h with ⟨between, rfl, hrest⟩ | ⟨between, rfl, hrest⟩
  · cases between with
    | nil =>
        obtain ⟨rfl, rfl⟩ := List.cons.inj hrest
        exact ⟨(List.append_nil _).symm, rfl, rfl⟩
    | cons first between =>
        obtain ⟨rfl, rfl⟩ := List.cons.inj hrest
        exact absurd hentry' (hafter entry' (by simp))
  · cases between with
    | nil =>
        obtain ⟨rfl, rfl⟩ := List.cons.inj hrest
        exact ⟨List.append_nil _, rfl, rfl⟩
    | cons first between =>
        obtain ⟨rfl, rfl⟩ := List.cons.inj hrest
        exact absurd hentry (hafter' entry (by simp))

/-! ## Machines that keep a journal -/

variable {σ ε : Type} {step : σ → α → Option (σ × Option ε)}

/-- One step of a machine, with what it notes added to the journal. -/
def journaled (step : σ → α → Option (σ × Option ε)) (run : σ × List ε) (action : α) :
    Option (σ × List ε) :=
  (step run.1 action).map fun next => (next.1, run.2 ++ next.2.toList)

/-- **Run rule.**  What holds at the start, with nothing noted, and is carried across every
step that is taken, with what the step notes, holds after every run. -/
theorem journaled_invariant {I : σ → List ε → Prop} {start : σ} (hstart : I start [])
    (hstep : ∀ state journal action state' entry, I state journal →
      step state action = some (state', entry) → I state' (journal ++ entry.toList))
    {actions : List α} {state : σ} {journal : List ε}
    (hrun : actions.foldlM (journaled step) (start, []) = some (state, journal)) :
    I state journal := by
  induction actions using List.reverseRecOn generalizing state journal with
  | nil =>
      obtain ⟨rfl, rfl⟩ := Prod.mk.inj (Option.some.inj hrun)
      exact hstart
  | append_singleton actions action ih =>
      rw [List.foldlM_append] at hrun
      obtain ⟨⟨before, noted⟩, hbefore, hlast⟩ := Option.bind_eq_some_iff.mp hrun
      simp only [List.foldlM_cons, List.foldlM_nil, bind_pure] at hlast
      obtain ⟨⟨after, entry⟩, hentry, hpair⟩ := Option.map_eq_some_iff.mp hlast
      obtain ⟨rfl, rfl⟩ := Prod.mk.inj hpair
      exact hstep before noted action after entry (ih hbefore) hentry

end MiniLakehouse
