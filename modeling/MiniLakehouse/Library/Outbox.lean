import Mathlib

/-!
# Outboxes

Objects wait under their keys until they are published to a store that keeps what it has.
Some keys commit the others: what is under them is published only while nothing else waits.

* `Outbox.Held.steps`: an object that waits or is stored does so for ever.
* `Outbox.Committed.steps`: what commits is stored after everything that was held before it.
* `Outbox.Settled.steps`: where every key has one content, that is all there is under it.
-/

namespace MiniLakehouse

/-- What waits under each key, and what is stored. -/
structure Outbox (K B : Type) where
  pending : K → Option B
  stored : K → Option B

namespace Outbox

variable {K B : Type} [DecidableEq K]

/-- What can happen to an outbox.  `stages` says which objects are staged under which keys,
`publishes` what an object is published as, and `commits` which keys commit the others. -/
inductive Step (stages : K → B → Prop) (publishes : K → B → B → Prop) (commits : K → Prop) :
    Outbox K B → Outbox K B → Prop
  | stage {o : Outbox K B} {key : K} {body : B} (hstages : stages key body)
      (hnew : o.pending key = none) :
      Step stages publishes commits o
        { o with pending := Function.update o.pending key (some body) }
  | publish {o : Outbox K B} {key : K} {body putting : B} (hpending : o.pending key = some body)
      (hpublishes : publishes key body putting) (hfree : o.stored key = none)
      (hlast : commits key → ∀ other, o.pending other ≠ none → commits other) :
      Step stages publishes commits o
        { o with stored := Function.update o.stored key (some putting) }
  | release {o : Outbox K B} {key : K} {body : B} (hpending : o.pending key = some body)
      (hstored : o.stored key = some body) :
      Step stages publishes commits o { o with pending := Function.update o.pending key none }

/-- Any number of steps. -/
abbrev Steps (stages : K → B → Prop) (publishes : K → B → B → Prop) (commits : K → Prop) :
    Outbox K B → Outbox K B → Prop :=
  Relation.ReflTransGen (Step stages publishes commits)

variable {stages : K → B → Prop} {publishes : K → B → B → Prop} {commits : K → Prop}
  {o o' : Outbox K B} {key : K} {body : B}

/-! ## Nothing is lost -/

/-- An object waits under its key or is stored under it. -/
def Held (o : Outbox K B) (key : K) (body : B) : Prop :=
  o.pending key = some body ∨ o.stored key = some body

theorem stored_step (h : o.stored key = some body) (hstep : Step stages publishes commits o o') :
    o'.stored key = some body := by
  cases hstep with
  | stage => exact h
  | release => exact h
  | @publish other _ _ _ _ hfree _ =>
      have hne : key ≠ other := by
        rintro rfl
        rw [hfree] at h
        cases h
      simpa only [Function.update_of_ne hne] using h

theorem Held.step (h : o.Held key body) (hstep : Step stages publishes commits o o') :
    o'.Held key body := by
  rcases h with hpending | hstored
  case inr => exact .inr (stored_step hstored hstep)
  cases hstep with
  | publish => exact .inl hpending
  | @stage other _ _ hnew =>
      have hne : key ≠ other := by
        rintro rfl
        rw [hnew] at hpending
        cases hpending
      exact .inl ((Function.update_of_ne hne _ _).trans hpending)
  | @release other found hfound hstored =>
      by_cases hsame : key = other
      · subst hsame
        rw [hpending] at hfound
        exact .inr (hstored.trans hfound.symm)
      · exact .inl ((Function.update_of_ne hsame _ _).trans hpending)

/-- **What is held stays held.** -/
theorem Held.steps (h : o.Held key body) (hsteps : Steps stages publishes commits o o') :
    o'.Held key body := by
  induction hsteps with
  | refl => exact h
  | tail _ hstep ih => exact ih.step hstep

theorem stored_steps (h : o.stored key = some body)
    (hsteps : Steps stages publishes commits o o') : o'.stored key = some body := by
  induction hsteps with
  | refl => exact h
  | tail _ hstep ih => exact stored_step ih hstep

/-! ## What commits comes last -/

/-- An object is held, and nothing is stored under a committing key before it is. -/
structure Committed (o : Outbox K B) (key : K) (body : B) (commit : K) : Prop where
  held : o.Held key body
  behind : o.stored commit = none ∨ o.stored key = some body

theorem Committed.step {commit : K} (hkey : ¬commits key) (hcommit : commits commit)
    (h : o.Committed key body commit) (hstep : Step stages publishes commits o o') :
    o'.Committed key body commit := by
  refine ⟨h.held.step hstep, ?_⟩
  rcases h.behind with hnone | hstored
  case inr => exact .inr (stored_step hstored hstep)
  cases hstep with
  | stage => exact .inl hnone
  | release => exact .inl hnone
  | @publish other _ _ _ _ hfree hlast =>
      by_cases hsame : commit = other
      · subst hsame
        -- nothing but what commits waits, so the object is stored already
        have hstored : o.stored key = some body := by
          refine h.held.resolve_left fun hpending => hkey (hlast hcommit key ?_)
          rw [hpending]
          exact Option.some_ne_none _
        have hne : key ≠ commit := by
          rintro rfl
          exact hkey hcommit
        exact .inr ((Function.update_of_ne hne _ _).trans hstored)
      · exact .inl ((Function.update_of_ne hsame _ _).trans hnone)

/-- **What commits is stored last.** -/
theorem Committed.steps {commit : K} (hkey : ¬commits key) (hcommit : commits commit)
    (h : o.Committed key body commit) (hsteps : Steps stages publishes commits o o') :
    o'.Committed key body commit := by
  induction hsteps with
  | refl => exact h
  | tail _ hstep ih => exact ih.step hkey hcommit hstep

/-! ## One content for each key -/

/-- What waits and what is stored under a key is its one content, published as it is. -/
structure Settled (publishes : K → B → B → Prop) (content : K → B) (o : Outbox K B) : Prop where
  pending : ∀ key body, o.pending key = some body → body = content key
  stored : ∀ key body, o.stored key = some body → body = content key
  published : ∀ key putting, o.pending key ≠ none →
    (publishes key (content key) putting ↔ putting = content key)

theorem Settled.step {content : K → B}
    (hstages : ∀ key body, stages key body → body = content key ∧
      ∀ putting, publishes key body putting ↔ putting = body)
    (h : o.Settled publishes content) (hstep : Step stages publishes commits o o') :
    o'.Settled publishes content := by
  cases hstep with
  | @stage key body hstaged _ =>
      obtain ⟨rfl, hpublished⟩ := hstages key body hstaged
      refine ⟨?_, h.stored, ?_⟩
      · intro other found hfound
        by_cases hsame : other = key
        · subst hsame
          simp only [Function.update_self, Option.some.injEq] at hfound
          exact hfound.symm
        · exact h.pending other found ((Function.update_of_ne hsame _ _).symm.trans hfound)
      · intro other putting hother
        by_cases hsame : other = key
        · subst hsame
          exact hpublished putting
        · refine h.published other putting ?_
          rwa [← Function.update_of_ne hsame (some (content key)) o.pending]
  | @publish key body putting hpending hpublishes _ _ =>
      refine ⟨h.pending, ?_, h.published⟩
      intro other found hfound
      by_cases hsame : other = key
      · subst hsame
        simp only [Function.update_self, Option.some.injEq] at hfound
        subst hfound
        rw [h.pending other body hpending] at hpublishes
        exact (h.published other putting (by simp [hpending])).mp hpublishes
      · exact h.stored other found ((Function.update_of_ne hsame _ _).symm.trans hfound)
  | @release key body _ _ =>
      refine ⟨?_, h.stored, ?_⟩
      · intro other found hfound
        by_cases hsame : other = key
        · subst hsame
          simp only [Function.update_self] at hfound
          cases hfound
        · exact h.pending other found ((Function.update_of_ne hsame _ _).symm.trans hfound)
      · intro other putting hother
        refine h.published other putting ?_
        by_cases hsame : other = key
        · subst hsame
          exact absurd (Function.update_self _ _ _) hother
        · rwa [← Function.update_of_ne hsame none o.pending]

/-- **One content for each key** stays the only one. -/
theorem Settled.steps {content : K → B}
    (hstages : ∀ key body, stages key body → body = content key ∧
      ∀ putting, publishes key body putting ↔ putting = body)
    (h : o.Settled publishes content) (hsteps : Steps stages publishes commits o o') :
    o'.Settled publishes content := by
  induction hsteps with
  | refl => exact h
  | tail _ hstep ih => exact ih.step hstages hstep

end Outbox

end MiniLakehouse
