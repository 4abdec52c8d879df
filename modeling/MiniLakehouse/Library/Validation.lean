import Mathlib

/-!
# Validated records

A validator is an ordered list of checks, each with the error it raises.  A
record whose checks all hold carries `AllHold` as a field, so that an invalid
record cannot be built; `validated` is the constructor that raises the error of
the first check that fails.
-/

namespace MiniLakehouse

variable {ε α : Type}

/-- One check of a validator and the error it raises when it fails. -/
structure Check (ε : Type) where
  holds : Bool
  error : ε

/-- Every check of a validator holds. -/
def AllHold (checks : List (Check ε)) : Prop :=
  ∀ check ∈ checks, check.holds = true

instance (checks : List (Check ε)) : Decidable (AllHold checks) := by
  unfold AllHold; infer_instance

@[simp] theorem allHold_nil : AllHold ([] : List (Check ε)) := by simp [AllHold]

@[simp] theorem allHold_cons {check : Check ε} {rest : List (Check ε)} :
    AllHold (check :: rest) ↔ check.holds = true ∧ AllHold rest := by
  simp [AllHold]

@[simp] theorem allHold_append {first second : List (Check ε)} :
    AllHold (first ++ second) ↔ AllHold first ∧ AllHold second := by
  simp only [AllHold, List.mem_append]
  constructor
  · intro h
    exact ⟨fun check hc => h check (.inl hc), fun check hc => h check (.inr hc)⟩
  · rintro ⟨hfirst, hsecond⟩ check (hc | hc)
    · exact hfirst check hc
    · exact hsecond check hc

/-- The first check that fails. -/
def firstFailure : List (Check ε) → Option ε
  | [] => none
  | check :: rest => if check.holds then firstFailure rest else some check.error

theorem firstFailure_eq_none {checks : List (Check ε)} :
    firstFailure checks = none ↔ AllHold checks := by
  induction checks with
  | nil => simp [firstFailure]
  | cons check rest ih =>
      cases hc : check.holds <;> simp [firstFailure, hc, ih]

/-- Build a record once its checks hold; raise the first failure otherwise. -/
def validated (checks : List (Check ε)) (make : AllHold checks → α) : Except ε α :=
  match h : firstFailure checks with
  | some error => .error error
  | none => .ok (make (firstFailure_eq_none.mp h))

theorem validated_eq_ok {checks : List (Check ε)} {make : AllHold checks → α} {a : α} :
    validated checks make = .ok a ↔ ∃ h : AllHold checks, make h = a := by
  unfold validated
  split
  · next error h =>
      have hnot : ¬AllHold checks := by
        intro hall
        rw [firstFailure_eq_none.mpr hall] at h
        cases h
      simp [hnot]
  · next h => simp [firstFailure_eq_none.mp h]

/-- What is raised is the error of the first check that fails. -/
theorem validated_eq_error {checks : List (Check ε)} {make : AllHold checks → α} {error : ε} :
    validated checks make = .error error ↔ firstFailure checks = some error := by
  unfold validated
  split
  · next raised h => simp [h]
  · next h => simp [h]

theorem validated_of {checks : List (Check ε)} {make : AllHold checks → α}
    (h : AllHold checks) : validated checks make = .ok (make h) :=
  validated_eq_ok.mpr ⟨h, rfl⟩

end MiniLakehouse
