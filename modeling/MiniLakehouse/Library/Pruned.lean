import Mathlib

/-!
# Pruned maps

A map that forgets what lies below a cutoff, and the map that forgets nothing.
`AgreesFrom cutoff full pruned` says that both answer alike from the cutoff on; it is kept
by an update of both and by pruning further, so that a bounded memory is invisible to a
reader who asks above the cutoff only.
-/

namespace MiniLakehouse

variable {K V T : Type} [LinearOrder T] (rank : K → T)

/-- Keep the entries from the cutoff on. -/
def pruneBelow (cutoff : T) (entries : K → Option V) (key : K) : Option V :=
  if cutoff ≤ rank key then entries key else none

/-- The two maps answer alike from the cutoff on. -/
def AgreesFrom (cutoff : T) (full pruned : K → Option V) : Prop :=
  ∀ key, cutoff ≤ rank key → pruned key = full key

variable {rank} {cutoff cutoff' : T} {full pruned : K → Option V}

theorem AgreesFrom.mono (h : AgreesFrom rank cutoff full pruned) (hle : cutoff ≤ cutoff') :
    AgreesFrom rank cutoff' full pruned :=
  fun key hkey => h key (hle.trans hkey)

/-- What is dropped is below the cutoff. -/
theorem AgreesFrom.prune (h : AgreesFrom rank cutoff full pruned) :
    AgreesFrom rank cutoff full (pruneBelow rank cutoff pruned) := by
  intro key hkey
  rw [pruneBelow, if_pos hkey]
  exact h key hkey

/-- An entry that is replaced by what depends on its old value only. -/
theorem AgreesFrom.update [DecidableEq K] (h : AgreesFrom rank cutoff full pruned) (key : K)
    (replace : Option V → Option V) :
    AgreesFrom rank cutoff (Function.update full key (replace (full key)))
      (Function.update pruned key (replace (pruned key))) := by
  intro other hother
  by_cases hsame : other = key
  · subst hsame
    rw [Function.update_self, Function.update_self, h other hother]
  · rw [Function.update_of_ne hsame, Function.update_of_ne hsame]
    exact h other hother

end MiniLakehouse
