import Mathlib

/-!
# Trailing windows

A list of observations in the order of their times, pruned from the front.
Pruning a list in order is filtering it (`prune_eq_filter`), and a window that
starts at or after the cutoff of a pruning does not see it (`within_prune`).
-/

namespace MiniLakehouse

variable {α τ : Type} [LinearOrder τ] (time : α → τ)

/-- Drop the observations at or before a cutoff from the front. -/
def prune (cutoff : τ) (xs : List α) : List α :=
  xs.dropWhile fun x => time x ≤ cutoff

/-- The observations after one time and up to another. -/
def within (after upTo : τ) (xs : List α) : List α :=
  xs.filter fun x => after < time x && time x ≤ upTo

variable {time}

/-- Pruning a list in order keeps exactly what follows the cutoff. -/
theorem prune_eq_filter {cutoff : τ} {xs : List α}
    (h : xs.Pairwise fun a b => time a ≤ time b) :
    prune time cutoff xs = xs.filter fun x => cutoff < time x := by
  induction xs with
  | nil => rfl
  | cons x xs ih =>
      obtain ⟨hhead, htail⟩ := List.pairwise_cons.mp h
      by_cases hx : time x ≤ cutoff
      · rw [prune, List.dropWhile_cons_of_pos (by simpa using hx),
          List.filter_cons_of_neg (by simpa using hx)]
        exact ih htail
      · have hafter : cutoff < time x := not_le.mp hx
        rw [prune, List.dropWhile_cons_of_neg (by simpa using hx), List.filter_eq_self.mpr]
        intro y hy
        rcases List.mem_cons.mp hy with rfl | hy
        · simpa using hafter
        · simpa using lt_of_lt_of_le hafter (hhead y hy)

/-- Taking from a list in order keeps exactly what is up to an instant. -/
theorem takeWhile_eq_filter {upTo : τ} {xs : List α}
    (h : xs.Pairwise fun a b => time a ≤ time b) :
    xs.takeWhile (fun x => time x ≤ upTo) = xs.filter fun x => time x ≤ upTo := by
  induction xs with
  | nil => rfl
  | cons x xs ih =>
      obtain ⟨hhead, htail⟩ := List.pairwise_cons.mp h
      by_cases hx : time x ≤ upTo
      · rw [List.takeWhile_cons_of_pos (by simpa using hx),
          List.filter_cons_of_pos (by simpa using hx), ih htail]
      · rw [List.takeWhile_cons_of_neg (by simpa using hx)]
        symm
        rw [List.filter_eq_nil_iff]
        intro y hy
        rcases List.mem_cons.mp hy with rfl | hy
        · simpa using hx
        · simpa using lt_of_lt_of_le (not_le.mp hx) (hhead y hy)

/-- A filter by a later cutoff absorbs one by an earlier. -/
theorem filter_after_filter {cutoff cutoff' : τ} (h : cutoff ≤ cutoff') (xs : List α) :
    (xs.filter fun x => cutoff < time x).filter (fun x => cutoff' < time x) =
      xs.filter fun x => cutoff' < time x := by
  rw [List.filter_filter]
  apply List.filter_congr
  intro x _
  have hless : cutoff' < time x → cutoff < time x := lt_of_le_of_lt h
  by_cases hx : cutoff' < time x
  · simp [hx, hless hx]
  · simp [hx]

/-- A window does not see a filter by a cutoff that it starts after. -/
theorem within_filter {cutoff after upTo : τ} (h : cutoff ≤ after) (xs : List α) :
    within time after upTo (xs.filter fun x => cutoff < time x) = within time after upTo xs := by
  rw [within, within, List.filter_filter]
  apply List.filter_congr
  intro x _
  have hless : after < time x → cutoff < time x := lt_of_le_of_lt h
  by_cases hx : after < time x
  · simp [hx, hless hx]
  · simp [hx]

/-- A window does not see what precedes its start. -/
theorem within_append_of_le {after upTo : τ} {old recent : List α}
    (h : ∀ x ∈ old, time x ≤ after) :
    within time after upTo (old ++ recent) = within time after upTo recent := by
  have hnone : within time after upTo old = [] := by
    rw [within, List.filter_eq_nil_iff]
    intro x hx
    simp [h x hx]
  rw [within, List.filter_append]
  change within time after upTo old ++ _ = _
  rw [hnone]
  rfl

/-- A pruned list that still shows every window of a history from an instant on. -/
structure Shows (time : α → τ) (since : τ) (xs history : List α) : Prop where
  sublist : xs.Sublist history
  same : ∀ after upTo, since ≤ after → within time after upTo xs = within time after upTo history

namespace Shows

theorem refl (since : τ) (history : List α) : Shows time since history history :=
  ⟨List.Sublist.refl history, fun _ _ _ => rfl⟩

theorem mono {since since' : τ} {xs history : List α} (h : Shows time since xs history)
    (hle : since ≤ since') : Shows time since' xs history :=
  ⟨h.sublist, fun after upTo hafter => h.same after upTo (hle.trans hafter)⟩

/-- New observations enter both. -/
theorem append {since : τ} {xs history : List α} (h : Shows time since xs history)
    (new : List α) : Shows time since (xs ++ new) (history ++ new) where
  sublist := h.sublist.append (List.Sublist.refl new)
  same := by
    intro after upTo hafter
    have hsame := h.same after upTo hafter
    unfold within at hsame ⊢
    rw [List.filter_append, List.filter_append, hsame]

/-- Pruning up to the instant loses nothing that it shows. -/
theorem prune {since : τ} {xs history : List α} (h : Shows time since xs history)
    (hordered : history.Pairwise fun a b => time a ≤ time b) :
    Shows time since (MiniLakehouse.prune time since xs) history where
  sublist := (List.dropWhile_sublist _).trans h.sublist
  same := by
    intro after upTo hafter
    rw [prune_eq_filter (hordered.sublist h.sublist), within_filter hafter]
    exact h.same after upTo hafter

end Shows

end MiniLakehouse
