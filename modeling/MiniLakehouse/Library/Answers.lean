import Mathlib

/-!
# Machines that answer

A machine takes one action after another and answers each of them.  Two machines answer
alike when a relation between their states makes each action answered alike and is kept by
it.
-/

namespace MiniLakehouse

variable {S T A B : Type} (step : S → A → S × B) (step' : T → A → T × B)

/-- The state after a list of actions, and the answer to each of them. -/
def answerAll : S → List A → S × List B
  | s, [] => (s, [])
  | s, action :: actions =>
      let rest := answerAll (step s action).1 actions
      (rest.1, (step s action).2 :: rest.2)

/-- Every action is answered alike in related states, and leaves related states. -/
def AnswersAlike (R : S → T → Prop) : Prop :=
  ∀ s t action, R s t →
    (step s action).2 = (step' t action).2 ∧ R (step s action).1 (step' t action).1

variable {step step'}

/-- **Two machines in step answer alike for ever.** -/
theorem AnswersAlike.run {R : S → T → Prop} (h : AnswersAlike step step' R) {s : S} {t : T}
    (hrelated : R s t) (actions : List A) :
    (answerAll step s actions).2 = (answerAll step' t actions).2 ∧
      R (answerAll step s actions).1 (answerAll step' t actions).1 := by
  induction actions generalizing s t with
  | nil => exact ⟨rfl, hrelated⟩
  | cons action actions ih =>
      obtain ⟨hanswer, hnext⟩ := h s t action hrelated
      obtain ⟨hrest, hlast⟩ := ih hnext
      refine ⟨?_, hlast⟩
      simp only [answerAll, hanswer, hrest]

/-- What every step keeps holds of the state after any list of actions. -/
theorem answerAll_invariant {I : S → Prop} (hstep : ∀ s action, I s → I (step s action).1) {s : S}
    (hstart : I s) (actions : List A) : I (answerAll step s actions).1 := by
  induction actions generalizing s with
  | nil => exact hstart
  | cons action actions ih => exact ih (hstep s action hstart)

/-- Each answer is that of one step, in a state that satisfies what every step keeps. -/
theorem answerAll_answers {I : S → Prop} {P : B → Prop}
    (hstep : ∀ s action, I s → I (step s action).1) (hanswer : ∀ s action, I s → P (step s action).2)
    {s : S} (hstart : I s) (actions : List A) : ∀ answer ∈ (answerAll step s actions).2, P answer := by
  induction actions generalizing s with
  | nil => simp [answerAll]
  | cons action actions ih =>
      intro answer hmem
      rcases List.mem_cons.mp hmem with rfl | hmem
      · exact hanswer s action hstart
      · exact ih (hstep s action hstart) answer hmem

end MiniLakehouse
