import Mathlib

/-!
# Programs that can stop anywhere

A program performs operations on a world, one after another, and returns or
raises.  Which world and which reply an operation leads to is the relation
`step`, so that an answer can be lost or a service refuse.  The process may be
cut off between any two operations: `Visits` are the worlds that it can leave
behind, `Returns` the runs that finish.

`Secures step C Q p w` says that every world on the way satisfies `C` and every
end of a run satisfies `Q`.  It is computed from the program, `secures_bind`
composes it, and `Secures.visits` and `Secures.returns` read it back.
-/

namespace MiniLakehouse

/-- Operations of type `Op`, each with the reply that the rest depends on. -/
inductive Prog (Op : Type) (Reply : Op → Type) (ε α : Type) where
  | done (result : Except ε α)
  | call (op : Op) (next : Reply op → Prog Op Reply ε α)

variable {Op : Type} {Reply : Op → Type} {ε α β W : Type}

namespace Prog

protected def bind : Prog Op Reply ε α → (α → Prog Op Reply ε β) → Prog Op Reply ε β
  | done (.ok a), f => f a
  | done (.error error), _ => done (.error error)
  | call op next, f => call op fun reply => (next reply).bind f

instance : Monad (Prog Op Reply ε) where
  pure a := done (.ok a)
  bind := Prog.bind

/-- Raise an error. -/
def raise (error : ε) : Prog Op Reply ε α := done (.error error)

/-- Perform one operation. -/
def perform (op : Op) : Prog Op Reply ε (Reply op) := call op fun reply => done (.ok reply)

/-- `try … except`: the handler goes on from where the error was raised. -/
protected def tryCatch : Prog Op Reply ε α → (ε → Prog Op Reply ε α) → Prog Op Reply ε α
  | done (.ok a), _ => done (.ok a)
  | done (.error error), handler => handler error
  | call op next, handler => call op fun reply => (next reply).tryCatch handler

instance : MonadExcept ε (Prog Op Reply ε) where
  throw := raise
  tryCatch := Prog.tryCatch

/-- A computation without operations. -/
def lift (result : Except ε α) : Prog Op Reply ε α := done result

/-- `try`: the result of a program, raised or not. -/
def attempt : Prog Op Reply ε α → Prog Op Reply ε (Except ε α)
  | done result => done (.ok result)
  | call op next => call op fun reply => (next reply).attempt

end Prog

/-! ## Runs -/

variable (step : (op : Op) → W → W → Reply op → Prop)

/-- The worlds that a program can leave behind when it is cut off. -/
inductive Visits : Prog Op Reply ε α → W → W → Prop
  | here {program : Prog Op Reply ε α} {w : W} : Visits program w w
  | call {op : Op} {next : Reply op → Prog Op Reply ε α} {w w' last : W} {reply : Reply op}
      (hstep : step op w w' reply) (hrest : Visits (next reply) w' last) :
      Visits (.call op next) w last

/-- The finished runs of a program. -/
inductive Returns : Prog Op Reply ε α → W → Except ε α → W → Prop
  | done {result : Except ε α} {w : W} : Returns (.done result) w result w
  | call {op : Op} {next : Reply op → Prog Op Reply ε α} {w w' last : W} {reply : Reply op}
      {result : Except ε α} (hstep : step op w w' reply)
      (hrest : Returns (next reply) w' result last) : Returns (.call op next) w result last

variable {step}

/-- The last world of a finished run is one it can be cut off in. -/
theorem Returns.visits {program : Prog Op Reply ε α} {w last : W} {result : Except ε α}
    (h : Returns step program w result last) : Visits step program w last := by
  induction h with
  | done => exact .here
  | call hstep _ ih => exact .call hstep ih

variable (step)

/-- Every world on the way satisfies `C`, and every end of a run `Q`. -/
def Secures (C : W → Prop) (Q : Except ε α → W → Prop) : Prog Op Reply ε α → W → Prop
  | .done result, w => C w ∧ Q result w
  | .call op next, w => C w ∧ ∀ w' reply, step op w w' reply → Secures C Q (next reply) w'

variable {step} {C : W → Prop} {Q : Except ε α → W → Prop}

theorem Secures.here {program : Prog Op Reply ε α} {w : W} (h : Secures step C Q program w) : C w := by
  cases program with
  | done result => exact h.1
  | call op next => exact h.1

theorem Secures.visits {program : Prog Op Reply ε α} {w w' : W} (h : Secures step C Q program w)
    (hvisits : Visits step program w w') : C w' := by
  induction hvisits with
  | here => exact h.here
  | call hstep _ ih => exact ih (h.2 _ _ hstep)

theorem Secures.returns {program : Prog Op Reply ε α} {w last : W} {result : Except ε α}
    (h : Secures step C Q program w) (hreturns : Returns step program w result last) :
    Q result last := by
  induction hreturns with
  | done => exact h.2
  | call hstep _ ih => exact ih (h.2 _ _ hstep)

/-- A weaker crash condition and a weaker postcondition. -/
theorem Secures.imp {C' : W → Prop} {Q' : Except ε α → W → Prop} {program : Prog Op Reply ε α}
    {w : W} (h : Secures step C Q program w) (hcrash : ∀ w, C w → C' w)
    (hpost : ∀ result w, C w → Q result w → Q' result w) : Secures step C' Q' program w := by
  induction program generalizing w with
  | done result => exact ⟨hcrash w h.1, hpost result w h.1 h.2⟩
  | call op next ih =>
      refine ⟨hcrash w h.1, ?_⟩
      intro w' reply hstep
      exact ih reply (h.2 w' reply hstep)

@[simp] theorem secures_done {result : Except ε α} {w : W} :
    Secures step C Q (Prog.done result) w ↔ C w ∧ Q result w := Iff.rfl

@[simp] theorem secures_pure {a : α} {w : W} :
    Secures step C Q (pure a : Prog Op Reply ε α) w ↔ C w ∧ Q (.ok a) w := Iff.rfl

@[simp] theorem secures_raise {error : ε} {w : W} :
    Secures step C Q (Prog.raise error : Prog Op Reply ε α) w ↔ C w ∧ Q (.error error) w := Iff.rfl

@[simp] theorem secures_lift {result : Except ε α} {w : W} :
    Secures step C Q (Prog.lift result : Prog Op Reply ε α) w ↔ C w ∧ Q result w := Iff.rfl

/-- What the rest of a program is to establish after the result of its first part. -/
def Proceeds (step : (op : Op) → W → W → Reply op → Prop) (C : W → Prop)
    (Q : Except ε β → W → Prop) (f : α → Prog Op Reply ε β) : Except ε α → W → Prop
  | .ok a, w => Secures step C Q (f a) w
  | .error error, w => Q (.error error) w

/-- **Sequencing.** -/
@[simp] theorem secures_bind {Q : Except ε β → W → Prop} {program : Prog Op Reply ε α}
    {f : α → Prog Op Reply ε β} {w : W} :
    Secures step C Q (program >>= f) w ↔ Secures step C (Proceeds step C Q f) program w := by
  induction program generalizing w with
  | done result =>
      cases result with
      | ok a => exact ⟨fun h => ⟨Secures.here h, h⟩, fun h => h.2⟩
      | error error => exact Iff.rfl
  | call op next ih =>
      constructor
      · intro h
        exact ⟨h.1, fun w' reply hstep => (ih reply).mp (h.2 w' reply hstep)⟩
      · intro h
        exact ⟨h.1, fun w' reply hstep => (ih reply).mpr (h.2 w' reply hstep)⟩

@[simp] theorem proceeds_ok {Q : Except ε β → W → Prop} {f : α → Prog Op Reply ε β} {a : α}
    {w : W} : Proceeds step C Q f (.ok a) w ↔ Secures step C Q (f a) w := Iff.rfl

@[simp] theorem proceeds_error {Q : Except ε β → W → Prop} {f : α → Prog Op Reply ε β}
    {error : ε} {w : W} : Proceeds step C Q f (.error error) w ↔ Q (.error error) w := Iff.rfl

/-- One operation: every step that it can take leads to the postcondition. -/
@[simp] theorem secures_perform {op : Op} {Q : Except ε (Reply op) → W → Prop} {w : W} :
    Secures step C Q (Prog.perform op) w ↔
      C w ∧ ∀ w' reply, step op w w' reply → C w' ∧ Q (.ok reply) w' := Iff.rfl

/-- A program whose errors are caught. -/
@[simp] theorem secures_attempt {Q : Except ε (Except ε α) → W → Prop}
    {program : Prog Op Reply ε α} {w : W} :
    Secures step C Q program.attempt w ↔ Secures step C (fun result => Q (.ok result)) program w := by
  induction program generalizing w with
  | done result => exact Iff.rfl
  | call op next ih =>
      constructor
      · intro h
        exact ⟨h.1, fun w' reply hstep => (ih reply).mp (h.2 w' reply hstep)⟩
      · intro h
        exact ⟨h.1, fun w' reply hstep => (ih reply).mpr (h.2 w' reply hstep)⟩

/-! ## Calls -/

/-- Every operation that a program can perform satisfies `P`. -/
def Prog.Calls (P : Op → Prop) : Prog Op Reply ε α → Prop
  | .done _ => True
  | .call op next => P op ∧ ∀ reply, (next reply).Calls P

namespace Prog.Calls

variable {P : Op → Prop}

theorem pure (a : α) : Calls P (Pure.pure a : Prog Op Reply ε α) := trivial

theorem throw (error : ε) : Calls P (MonadExcept.throw error : Prog Op Reply ε α) := trivial

theorem lift (result : Except ε α) : Calls P (Prog.lift result : Prog Op Reply ε α) := trivial

theorem perform {op : Op} (h : P op) : Calls P (Prog.perform op : Prog Op Reply ε (Reply op)) :=
  ⟨h, fun _ => trivial⟩

theorem bind {program : Prog Op Reply ε α} {f : α → Prog Op Reply ε β} (h : program.Calls P)
    (hrest : ∀ a, (f a).Calls P) : (program >>= f).Calls P := by
  induction program with
  | done result =>
      cases result with
      | ok a => exact hrest a
      | error error => trivial
  | call op next ih => exact ⟨h.1, fun reply => ih reply (h.2 reply)⟩

theorem attempt {program : Prog Op Reply ε α} (h : program.Calls P) : program.attempt.Calls P := by
  induction program with
  | done result => trivial
  | call op next ih => exact ⟨h.1, fun reply => ih reply (h.2 reply)⟩

/-- What the operations of a program keep, the program keeps. -/
theorem secures {program : Prog Op Reply ε α} {w : W} (h : program.Calls P)
    (hkeeps : ∀ op w w' reply, P op → C w → step op w w' reply → C w') (hw : C w) :
    Secures step C (fun _ => C) program w := by
  induction program generalizing w with
  | done result => exact ⟨hw, hw⟩
  | call op next ih =>
      refine ⟨hw, ?_⟩
      intro w' reply hstep
      exact ih reply (h.2 reply) (hkeeps op w w' reply h.1 hw hstep)

end Prog.Calls

/-- A run is also one of any wider step relation. -/
theorem Returns.mono {step' : (op : Op) → W → W → Reply op → Prop}
    (hstep : ∀ op w w' reply, step op w w' reply → step' op w w' reply)
    {program : Prog Op Reply ε α} {w last : W} {result : Except ε α}
    (h : Returns step program w result last) : Returns step' program w result last := by
  induction h with
  | done => exact .done
  | call hop _ ih => exact .call (hstep _ _ _ _ hop) ih

/-! ## Observation -/

variable (step) in
/-- A program that leaves the world as it is and ends with `result`, or else with an error
that it may meet at any time. -/
def Inspects (fails : ε → Prop) (program : Prog Op Reply ε α) (w : W)
    (result : Except ε α) : Prop :=
  ∀ C Q, C w → Q result w → (∀ error, fails error → Q (.error error) w) →
    Secures step C Q program w

namespace Inspects

variable {fails : ε → Prop} {w : W}

theorem pure (a : α) : Inspects step fails (pure a : Prog Op Reply ε α) w (.ok a) :=
  fun _ _ hcrash hpost _ => ⟨hcrash, hpost⟩

theorem throw (error : ε) :
    Inspects step fails (throw error : Prog Op Reply ε α) w (.error error) :=
  fun _ _ hcrash hpost _ => ⟨hcrash, hpost⟩

theorem bind {program : Prog Op Reply ε α} {result : Except ε α} {f : α → Prog Op Reply ε β}
    {g : α → Except ε β} (h : Inspects step fails program w result)
    (hrest : ∀ a, result = .ok a → Inspects step fails (f a) w (g a)) :
    Inspects step fails (program >>= f) w (result >>= g) := by
  intro C Q hcrash hpost hfails
  rw [secures_bind]
  apply h C _ hcrash
  · cases result with
    | error error => exact hpost
    | ok a => exact hrest a rfl C Q hcrash hpost hfails
  · intro error herror
    exact hfails error herror

theorem foldlM {σ : Type} {f : σ → α → Prog Op Reply ε σ} {g : σ → α → Except ε σ} {xs : List α}
    {s : σ} (h : ∀ s, ∀ x ∈ xs, Inspects step fails (f s x) w (g s x)) :
    Inspects step fails (xs.foldlM f s) w (xs.foldlM g s) := by
  induction xs generalizing s with
  | nil => exact pure s
  | cons x xs ih =>
      rw [List.foldlM_cons, List.foldlM_cons]
      apply bind (h s x (by simp))
      intro s' _
      exact ih fun s y hy => h s y (by simp [hy])

end Inspects

/-- Every operation has an answer, so every program has a finished run. -/
theorem exists_returns (htotal : ∀ op w, ∃ w' reply, step op w w' reply)
    (program : Prog Op Reply ε α) (w : W) : ∃ result last, Returns step program w result last := by
  induction program generalizing w with
  | done result => exact ⟨result, w, .done⟩
  | call op next ih =>
      obtain ⟨w', reply, hstep⟩ := htotal op w
      obtain ⟨result, last, hrest⟩ := ih reply w'
      exact ⟨result, last, .call hstep hrest⟩

/-! ## Execution -/

namespace Prog

/-- A run in which every operation is answered by a function. -/
def run (answer : (op : Op) → W → W × Reply op) : Prog Op Reply ε α → W → Except ε α × W
  | done result, w => (result, w)
  | call op next, w => (next (answer op w).2).run answer (answer op w).1

theorem run_returns {answer : (op : Op) → W → W × Reply op} {program : Prog Op Reply ε α} {w : W}
    (h : ∀ op w, step op w (answer op w).1 (answer op w).2) :
    Returns step program w (program.run answer w).1 (program.run answer w).2 := by
  induction program generalizing w with
  | done result => exact .done
  | call op next ih => exact .call (h op w) (ih _)

/-- Sequencing, where the first part returns. -/
theorem run_bind_ok {answer : (op : Op) → W → W × Reply op} {program : Prog Op Reply ε α}
    {f : α → Prog Op Reply ε β} {w w' : W} {a : α} (h : program.run answer w = (.ok a, w')) :
    (program >>= f).run answer w = (f a).run answer w' := by
  induction program generalizing w with
  | done result =>
      obtain ⟨rfl, rfl⟩ := Prod.mk.inj h
      rfl
  | call op next ih => exact ih _ h

/-- Sequencing, where the first part raises. -/
theorem run_bind_error {answer : (op : Op) → W → W × Reply op} {program : Prog Op Reply ε α}
    {f : α → Prog Op Reply ε β} {w w' : W} {error : ε}
    (h : program.run answer w = (.error error, w')) :
    (program >>= f).run answer w = (.error error, w') := by
  induction program generalizing w with
  | done result =>
      obtain ⟨rfl, rfl⟩ := Prod.mk.inj h
      rfl
  | call op next ih => exact ih _ h

/-- A program whose errors are caught. -/
theorem run_attempt {answer : (op : Op) → W → W × Reply op} {program : Prog Op Reply ε α}
    {w w' : W} {result : Except ε α} (h : program.run answer w = (result, w')) :
    program.attempt.run answer w = (.ok result, w') := by
  induction program generalizing w with
  | done returned =>
      obtain ⟨rfl, rfl⟩ := Prod.mk.inj h
      rfl
  | call op next ih => exact ih _ h

end Prog

/-- A program that is followed by another can be cut off where it can by itself. -/
theorem Visits.bind {program : Prog Op Reply ε α} {f : α → Prog Op Reply ε β} {w last : W}
    (h : Visits step program w last) : Visits step (program >>= f) w last := by
  induction h with
  | here => exact .here
  | call hstep _ ih => exact .call hstep ih

/-- A program can be cut off in its last part. -/
theorem visits_bind_ok {answer : (op : Op) → W → W × Reply op} {program : Prog Op Reply ε α}
    {f : α → Prog Op Reply ε β} {w w' last : W} {a : α}
    (hanswer : ∀ op w, step op w (answer op w).1 (answer op w).2)
    (h : program.run answer w = (.ok a, w')) (hrest : Visits step (f a) w' last) :
    Visits step (program >>= f) w last := by
  induction program generalizing w with
  | done result =>
      obtain ⟨rfl, rfl⟩ := Prod.mk.inj h
      exact hrest
  | call op next ih => exact .call (hanswer op w) (ih _ h)

end MiniLakehouse
