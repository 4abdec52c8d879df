import MiniLakehouse.Library.Checked

/-!
# Lists that only grow

A list evolves into another when each member keeps its place, as something that it may become,
and what is new stands behind the members and is of a kind that may be added.  Where a member
may become itself, what it becomes and what that becomes, and what may be added stays so, the
evolutions compose.
-/

namespace MiniLakehouse

variable {α : Type} {R : α → α → Prop} {free : α → Prop}

/-- The members keep their places, and only what is free is added behind them. -/
def Evolves (R : α → α → Prop) (free : α → Prop) (xs ys : List α) : Prop :=
  ∃ kept added, ys = kept ++ added ∧ List.Forall₂ R xs kept ∧ ∀ y ∈ added, free y

theorem Evolves.refl (hrefl : ∀ x, R x x) (xs : List α) : Evolves R free xs xs := by
  refine ⟨xs, [], (List.append_nil xs).symm, ?_, fun y hy => absurd hy List.not_mem_nil⟩
  exact List.forall₂_same.mpr fun x _ => hrefl x

/-- A list that evolves is not longer than what it becomes. -/
theorem Evolves.length_le {xs ys : List α} (h : Evolves R free xs ys) : xs.length ≤ ys.length := by
  obtain ⟨kept, added, rfl, hkept, -⟩ := h
  rw [hkept.length_eq, List.length_append]
  exact Nat.le_add_right _ _

/-- What a list has become splits where the list ends. -/
theorem Evolves.split {xs ys : List α} (h : Evolves R free xs ys) :
    List.Forall₂ R xs (ys.take xs.length) ∧ ∀ y ∈ ys.drop xs.length, free y := by
  obtain ⟨kept, added, rfl, hkept, hadded⟩ := h
  rw [hkept.length_eq, List.take_left, List.drop_left]
  exact ⟨hkept, hadded⟩

theorem evolves_iff {xs ys : List α} : Evolves R free xs ys ↔
    List.Forall₂ R xs (ys.take xs.length) ∧ ∀ y ∈ ys.drop xs.length, free y :=
  ⟨Evolves.split, fun h => ⟨_, _, (List.take_append_drop _ _).symm, h.1, h.2⟩⟩

/-- The members that have become others, and those others further ones. -/
theorem forall₂_trans (htrans : ∀ x y z, R x y → R y z → R x z) {xs ys zs : List α}
    (h : List.Forall₂ R xs ys) (h' : List.Forall₂ R ys zs) : List.Forall₂ R xs zs := by
  induction h generalizing zs with
  | nil => exact h'
  | cons hfirst _ ih =>
      cases h' with
      | cons hnext hrest => exact .cons (htrans _ _ _ hfirst hnext) (ih hrest)

/-- **Evolutions compose.** -/
theorem Evolves.trans (htrans : ∀ x y z, R x y → R y z → R x z)
    (hfree : ∀ x y, R x y → free x → free y) {xs ys zs : List α} (h : Evolves R free xs ys)
    (h' : Evolves R free ys zs) : Evolves R free xs zs := by
  obtain ⟨kept, added, rfl, hkept, hadded⟩ := h
  obtain ⟨middle, last, rfl, hmiddle, hlast⟩ := h'
  have hfront := List.forall₂_take_append middle kept added hmiddle.flip
  have hback := List.forall₂_drop_append middle kept added hmiddle.flip
  refine ⟨middle.take kept.length, middle.drop kept.length ++ last, ?_, ?_, ?_⟩
  · rw [← List.append_assoc, List.take_append_drop]
  · exact forall₂_trans htrans hkept hfront.flip
  · intro z hz
    rcases List.mem_append.mp hz with hz | hz
    · obtain ⟨y, hy, hbecomes⟩ := exists_of_mem_forall₂ hback.flip hz
      exact hfree y z hbecomes (hadded y hy)
    · exact hlast z hz

end MiniLakehouse
