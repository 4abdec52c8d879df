import MiniLakehouse.Library.Checked
import MiniLakehouse.Library.Time
import MiniLakehouse.Raised

/-!
# Stream gaps

Bounded loss-of-transport intervals between immutable stream segments
(`StreamGap` of `capture/reader.py`).
-/

namespace MiniLakehouse

structure StreamGap where
  startedAt : Instant
  endedAt : Instant
  positive : startedAt < endedAt
  deriving DecidableEq

namespace StreamGap

def modelValidate (startedAt endedAt : Instant) : Except Raised StreamGap :=
  if h : startedAt < endedAt then .ok ⟨startedAt, endedAt, h⟩
  else .error (.valueError "stream gap must have positive duration")

theorem modelValidate_eq_ok {startedAt endedAt : Instant} {gap : StreamGap} :
    modelValidate startedAt endedAt = .ok gap ↔
      gap.startedAt = startedAt ∧ gap.endedAt = endedAt := by
  unfold modelValidate
  by_cases h : startedAt < endedAt
  · rw [dif_pos h]
    constructor
    · intro hgap
      cases hgap
      exact ⟨rfl, rfl⟩
    · intro hgap
      cases gap
      simp_all
  · rw [dif_neg h]
    constructor
    · intro hgap
      cases hgap
    · rintro ⟨rfl, rfl⟩
      exact absurd gap.positive h

/-- `overlaps`: whether a half-open interval meets unavailable transport. -/
def overlaps (gap : StreamGap) (startedAt endedAt : Instant) : Bool :=
  startedAt < gap.endedAt && gap.startedAt < endedAt

/-- `duration_milliseconds`, an exact half rounded to the even neighbour. -/
def durationMilliseconds (gap : StreamGap) : Int :=
  let duration := gap.endedAt - gap.startedAt
  let floor := duration / 1000
  let rest := duration % 1000
  if rest < 500 then floor
  else if rest = 500 then (if floor % 2 = 0 then floor else floor + 1)
  else floor + 1

end StreamGap

end MiniLakehouse
