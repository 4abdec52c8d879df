import Mathlib.Data.List.Basic

/-!
# Texts split at a separator

What `List.splitOn` does not say itself: no part has the separator in it, and a text that
ends with another character ends in its last part.
-/

namespace MiniLakehouse

variable {α : Type} [BEq α] [LawfulBEq α] {sep : α}

theorem separator_not_mem_splitOn (text : List α) : ∀ part ∈ text.splitOn sep, sep ∉ part := by
  induction text with
  | nil => simp
  | cons c rest ih =>
      intro part hpart
      rw [List.splitOn, List.splitOnP_cons_eq_if_modifyHead] at hpart
      by_cases hsep : (c == sep) = true
      · rw [if_pos hsep] at hpart
        rcases List.mem_cons.mp hpart with rfl | hpart
        · exact List.not_mem_nil
        · exact ih part hpart
      · rw [if_neg hsep] at hpart
        have hother : c ≠ sep := by simpa using hsep
        obtain ⟨first, parts, hparts⟩ :=
          List.exists_cons_of_ne_nil (List.splitOnP_ne_nil (· == sep) rest)
        rw [hparts, List.modifyHead_cons] at hpart
        have hrest : rest.splitOn sep = first :: parts := hparts
        rcases List.mem_cons.mp hpart with rfl | hpart
        · intro hmem
          rcases List.mem_cons.mp hmem with hmem | hmem
          · exact hother hmem.symm
          · exact ih first (by rw [hrest]; exact List.mem_cons_self) hmem
        · exact ih part (by rw [hrest]; exact List.mem_cons_of_mem _ hpart)

end MiniLakehouse
