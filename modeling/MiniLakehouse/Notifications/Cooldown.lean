import MiniLakehouse.Notifications.Delivery

/-!
# The shared cooldown

A rate limit is the destination's, so `finish` moves the cooldown of the control
row before it looks for the row of its claim.  Both statements are one
transaction: where the lease is lost the second one raises, and the cooldown
goes back to what it was.  No other transaction touches it, so what is stored
blocks every later claim (`Transaction.keeps_cooldown`, `claim_cooled`).
-/

namespace MiniLakehouse

variable {P D T : Type}

/-- The stored cooldown lasts at least until an instant. -/
def DeliveryControl.CoolsUntil (control : DeliveryControl) (instant : Instant) : Prop :=
  ∃ cooldown ∈ control.cooldownUntil, instant ≤ cooldown

namespace DeliveryStore

/-- The claim's row is still being sent under its token, and the lease is not over. -/
def HoldsLease [DecidableEq D] [DecidableEq T] (store : DeliveryStore D T)
    (claim : DeliveryClaim D T) (now : Instant) : Prop :=
  ∃ row ∈ store.rows, row.selectionId = claim.selectionId ∧
    ∃ leaseUntil, row.status = .sending claim.token leaseUntil ∧ now < leaseUntil

/-- A rate limit moves the cooldown, and never back. -/
theorem coolDown_coolsUntil {store : DeliveryStore D T} {request : FinishRequest}
    {now instant : Instant} (h : request.errorCode = some "RATE_LIMIT") :
    (store.coolDown request now).control.CoolsUntil instant ↔
      store.control.CoolsUntil instant ∨ instant ≤ now + request.retryAfter := by
  unfold coolDown DeliveryControl.CoolsUntil
  rw [if_pos h]
  cases hcooldown : store.control.cooldownUntil with
  | none => simp [withControl]
  | some cooldown => simp [withControl, or_comm]

theorem coolDown_keeps {store : DeliveryStore D T} {request : FinishRequest}
    {now instant : Instant} (h : store.control.CoolsUntil instant) :
    (store.coolDown request now).control.CoolsUntil instant := by
  by_cases hlimit : request.errorCode = some "RATE_LIMIT"
  · exact (coolDown_coolsUntil hlimit).mpr (.inl h)
  · unfold coolDown
    rwa [if_neg hlimit]

variable [Hashing D]

theorem enqueue_control {store store' : DeliveryStore D T} {selection : RealtimeSelection D}
    {lifetime : Int} {now : Instant} {id : D}
    (h : store.enqueue selection lifetime now = .ok (id, store')) :
    store'.control = store.control := by
  simp only [enqueue, bind_eq_ok, pure_eq_ok, Prod.mk.injEq] at h
  obtain ⟨_, -, _, -, -, rfl⟩ := h
  unfold insert
  split <;> rfl

theorem claim_control {store store' : DeliveryStore D T} {lease : Int} {token : T}
    {lostAt expiredAt claimedAt : Instant} {result : Option (DeliveryClaim D T)}
    (h : store.claim lease token lostAt expiredAt claimedAt = .ok (result, store')) :
    store'.control = store.control := by
  simp only [claim, bind_eq_ok] at h
  obtain ⟨_, -, h⟩ := h
  split at h <;>
  · obtain ⟨-, rfl⟩ := Prod.mk.inj (pure_eq_ok.mp h)
    rfl

/-- A claim succeeds only when the cooldown is over. -/
theorem claim_cooled {store store' : DeliveryStore D T} {lease : Int} {token : T}
    {lostAt expiredAt claimedAt : Instant} {claimed : DeliveryClaim D T}
    (h : store.claim lease token lostAt expiredAt claimedAt = .ok (some claimed, store')) :
    store.control.cooled claimedAt = true := by
  simp only [claim, bind_eq_ok] at h
  obtain ⟨_, -, h⟩ := h
  split at h
  · cases (Prod.mk.inj (pure_eq_ok.mp h)).1
  · next row hnext =>
      have hmem := (sortOn_perm _ _).mem_iff.mp (List.mem_of_head? hnext)
      have hclaimable := (List.mem_filter.mp hmem).2
      simp only [claimable, Bool.and_eq_true] at hclaimable
      exact hclaimable.1.2

variable [DecidableEq T]

theorem finishable_iff {claim : DeliveryClaim D T} {now : Instant} {row : Delivery D T} :
    finishable claim now row = true ↔ row.selectionId = claim.selectionId ∧
      ∃ leaseUntil, row.status = .sending claim.token leaseUntil ∧ now < leaseUntil := by
  cases hstatus : row.status <;>
    simp [finishable, leasedTo, RowStatus.leaseLost, hstatus, and_assoc]

theorem holdsLease_iff {store : DeliveryStore D T} {claim : DeliveryClaim D T} {now : Instant} :
    store.HoldsLease claim now ↔ ∃ row ∈ store.rows, finishable claim now row = true := by
  simp only [HoldsLease, finishable_iff]

/-- **`finish` commits exactly when the lease is held**, with the cooldown of its request. -/
theorem finish_control (store : DeliveryStore D T) (claim : DeliveryClaim D T)
    {request : FinishRequest} (cooledAt finishedAt : Instant) (hdelay : 0 ≤ request.retryAfter) :
    (store.HoldsLease claim finishedAt → ∃ status store',
      store.finish claim request cooledAt finishedAt = .ok (status, store') ∧
        store'.control = (store.coolDown request cooledAt).control) ∧
    (¬store.HoldsLease claim finishedAt → ∃ raised,
      store.finish claim request cooledAt finishedAt = .error raised) := by
  have hrows : (store.coolDown request cooledAt).rows = store.rows := by
    unfold coolDown
    split <;> rfl
  simp only [finish, require_of hdelay, ok_bind, hrows, holdsLease_iff]
  cases hfind : store.rows.find? (finishable claim finishedAt) with
  | none =>
      rw [List.find?_eq_none] at hfind
      refine ⟨?_, fun _ => ⟨_, rfl⟩⟩
      rintro ⟨row, hrow, hfinishable⟩
      exact absurd hfinishable (hfind row hrow)
  | some row =>
      refine ⟨fun _ => ⟨_, _, rfl, rfl⟩, ?_⟩
      intro hlost
      exact absurd ⟨row, List.mem_of_find?_eq_some hfind, List.find?_some hfind⟩ hlost

theorem finish_keeps {store store' : DeliveryStore D T} {claim : DeliveryClaim D T}
    {request : FinishRequest} {cooledAt finishedAt instant : Instant} {status : DeliveryStatus}
    (h : store.finish claim request cooledAt finishedAt = .ok (status, store'))
    (hcools : store.control.CoolsUntil instant) : store'.control.CoolsUntil instant := by
  have hdelay : 0 ≤ request.retryAfter := by
    simp only [finish, bind_eq_ok, require_eq_ok] at h
    obtain ⟨_, hdelay, -⟩ := h
    exact hdelay
  obtain ⟨hheld, hlost⟩ := finish_control store claim cooledAt finishedAt hdelay
  by_cases hlease : store.HoldsLease claim finishedAt
  · obtain ⟨_, _, hfinish, hcontrol⟩ := hheld hlease
    rw [h] at hfinish
    cases hfinish
    rw [hcontrol]
    exact coolDown_keeps hcools
  · obtain ⟨_, hraised⟩ := hlost hlease
    rw [h] at hraised
    cases hraised

end DeliveryStore

variable [Hashing D] [DecidableEq T]

/-- No transaction shortens the cooldown. -/
theorem Transaction.keeps_cooldown {store store' : DeliveryStore D T} {instant : Instant}
    (h : Transaction store store') (hcools : store.control.CoolsUntil instant) :
    store'.control.CoolsUntil instant := by
  cases h with
  | nothing => exact hcools
  | invalidate disconnectedAt => exact hcools
  | enqueue henqueue => rwa [DeliveryStore.enqueue_control henqueue]
  | claim hclaim => rwa [DeliveryStore.claim_control hclaim]
  | finish hfinish => exact DeliveryStore.finish_keeps hfinish hcools

namespace DeliverySystem

variable [DecidableEq P] {settings : P → DispatchSettings} {system system' : DeliverySystem P D T}

/-- A stored cooldown outlasts every run. -/
theorem run_keeps_cooldown {actions : List (DeliveryAction P D T)} {instant : Instant}
    (hrun : system.run settings actions = some system')
    (hcools : system.store.control.CoolsUntil instant) :
    system'.store.control.CoolsUntil instant := by
  induction actions generalizing system with
  | nil =>
      obtain rfl := Option.some_inj.mp hrun
      exact hcools
  | cons action rest ih =>
      obtain ⟨next, hstep, hrest⟩ := Option.bind_eq_some_iff.mp hrun
      exact ih hrest ((step_transaction hstep).keeps_cooldown hcools)

/-- A process claims something in a step, at a reading of the clock. -/
def ClaimsAt (settings : P → DispatchSettings) (system : DeliverySystem P D T)
    (process : P) (claimedAt : Instant) : Prop :=
  ∃ token lostAt expiredAt next claim,
    system.step settings (.claim process token lostAt expiredAt claimedAt) = some next ∧
      system.stages process = .idle ∧ next.stages process = .claimed claim

theorem claimsAt_cooled {process : P} {claimedAt instant : Instant}
    (h : system.ClaimsAt settings process claimedAt)
    (hcools : system.store.control.CoolsUntil instant) : instant ≤ claimedAt := by
  obtain ⟨token, lostAt, expiredAt, next, claim, hstep, hidle, hclaimed⟩ := h
  have hsucceeds : ∃ claim store', system.store.claim (settings process).lease token lostAt
      expiredAt claimedAt = .ok (some claim, store') := by
    simp only [DeliverySystem.step, hidle] at hstep
    split at hstep
    · split at hstep
      · next hclaim => exact ⟨_, _, hclaim⟩
      · obtain rfl := Option.some_inj.mp hstep
        simp [commit, hidle] at hclaimed
      · obtain rfl := Option.some_inj.mp hstep
        simp [commit, hidle] at hclaimed
    · cases hstep
  obtain ⟨_, _, hclaim⟩ := hsucceeds
  have hcooled := DeliveryStore.claim_cooled hclaim
  obtain ⟨cooldown, hcooldown, hle⟩ := hcools
  rw [DeliveryControl.cooled, Option.mem_def.mp hcooldown] at hcooled
  exact hle.trans (by simpa using hcooled)

/-- What a rate-limited `finish` leaves as the cooldown. -/
theorem finish_cools {process : P} {claim : DeliveryClaim D T}
    {request : DeliveryStore.FinishRequest} {cooledAt finishedAt : Instant}
    (hstage : system.stages process = .finishing claim request)
    (hlimit : request.errorCode = some "RATE_LIMIT") (hdelay : 0 ≤ request.retryAfter)
    (hstep : system.step settings (.finish process cooledAt finishedAt) = some system') :
    system'.store.control.CoolsUntil (cooledAt + request.retryAfter) ↔
      system.store.HoldsLease claim finishedAt ∨
        system.store.control.CoolsUntil (cooledAt + request.retryAfter) := by
  obtain ⟨hheld, hlost⟩ := DeliveryStore.finish_control system.store claim cooledAt finishedAt
    hdelay
  simp only [DeliverySystem.step, hstage] at hstep
  split at hstep
  · by_cases hlease : system.store.HoldsLease claim finishedAt
    · obtain ⟨status, store', hfinish, hcontrol⟩ := hheld hlease
      rw [hfinish] at hstep
      obtain rfl := Option.some_inj.mp hstep
      change store'.control.CoolsUntil _ ↔ _
      rw [hcontrol, DeliveryStore.coolDown_coolsUntil hlimit]
      simp [hlease]
    · obtain ⟨raised, hfinish⟩ := hlost hlease
      rw [hfinish] at hstep
      obtain rfl := Option.some_inj.mp hstep
      simp [hlease, moveTo, commit]
  · cases hstep

end DeliverySystem

open DeliverySystem in
/-- **A rate limit holds back every later claim** where its process still holds the lease, or
the cooldown already lasts as long; elsewhere the cooldown it asked for is not stored. -/
theorem rate_limit_cools_down [DecidableEq P] {settings : P → DispatchSettings}
    {system finished : DeliverySystem P D T} {process : P} {claim : DeliveryClaim D T}
    {request : DeliveryStore.FinishRequest} {cooledAt finishedAt : Instant}
    (hstage : system.stages process = .finishing claim request)
    (hlimit : request.errorCode = some "RATE_LIMIT") (hdelay : 0 ≤ request.retryAfter)
    (hfinish : system.step settings (.finish process cooledAt finishedAt) = some finished) :
    (finished.store.control.CoolsUntil (cooledAt + request.retryAfter) ↔
      system.store.HoldsLease claim finishedAt ∨
        system.store.control.CoolsUntil (cooledAt + request.retryAfter)) ∧
    (system.store.HoldsLease claim finishedAt ∨
        system.store.control.CoolsUntil (cooledAt + request.retryAfter) →
      ∀ actions later other claimedAt, finished.run settings actions = some later →
        later.ClaimsAt settings other claimedAt → cooledAt + request.retryAfter ≤ claimedAt) := by
  have hcools := finish_cools hstage hlimit hdelay hfinish
  refine ⟨hcools, ?_⟩
  intro hcondition actions later other claimedAt hrun hclaims
  exact claimsAt_cooled hclaims (run_keeps_cooldown hrun (hcools.mpr hcondition))

namespace Rehearsal

/-- The next candidate of the rehearsed day. -/
def laterCandidate : BaselineCandidate Spelled where
  strategy := .momentumPullback
  symbol := "VIC"
  tradeDate := day
  decisionAt := clock 10
  featureSnapshotSha256 := mark 1
  peerFeatureSnapshotSha256 := none
  contextSnapshotSha256 := some (mark 2)
  contextVersion := some "decision-context-v3"
  contextConfigurationSha256 := some lineage.contextConfigurationSha256
  contextDataMode := some .live
  marketRegime := .trendUp
  groups := candidate.groups
  strength := 1
  blockReasons := []
  valid := by decide +kernel

def laterArbitration : CandidateArbitration Spelled where
  arbitrationVersion := Trading.candidateArbitration.version
  arbitrationConfigurationSha256 := Trading.candidateArbitration.sha256
  candidateVersion := baselineVersion
  candidateSha256 := laterCandidate.sha256
  strategy := "momentum_pullback"
  symbol := "VIC"
  tradeDate := day
  decisionAt := clock 10
  horizonSeconds := 300
  strength := 1
  status := .selected
  rejectionReason := none
  priority := some 1
  selectedCandidateSha256 := some laterCandidate.sha256
  valid := by decide +kernel

def laterNotified : RealtimeSelection Spelled where
  candidate := laterCandidate
  arbitration := laterArbitration
  evidence := .arr [.sha (mark 7)]
  selected := by decide +kernel

/-- A process is rate limited for a minute. -/
def limited : List (DeliveryAction Bool Spelled Nat) := [
  .enqueue notified (seconds 60) (clock 1),
  .claim false 1 (clock 2) (clock 2) (clock 2),
  .read false true,
  .maySend false (clock 2) 0,
  .send false,
  .answer false (.retryAfter (seconds 60)),
  .enqueue laterNotified (seconds 120) (clock 11)]

/-- The system in which it is about to finish its claim. -/
def limitedSystem : Option (DeliverySystem Bool Spelled Nat) :=
  (DeliverySystem.initial (clock 0)).run (fun _ => notifier) limited

/-- What a process is finishing its claim with. -/
def finishingWith : DispatchStage Spelled Nat →
    Option (DeliveryClaim Spelled Nat × DeliveryStore.FinishRequest)
  | .finishing claim request => some (claim, request)
  | .idle | .claimed _ | .readable _ | .allowed _ | .sending _ => none

theorem finishingWith_eq_some {stage : DispatchStage Spelled Nat}
    {claim : DeliveryClaim Spelled Nat} {request : DeliveryStore.FinishRequest}
    (h : finishingWith stage = some (claim, request)) : stage = .finishing claim request := by
  cases stage <;> cases h
  rfl

/-- The rate-limited process finishes at an offset of the clock. -/
def finishLimited (offset : Int) (system : DeliverySystem Bool Spelled Nat) :
    Option (DeliverySystem Bool Spelled Nat) :=
  system.step (fun _ => notifier) (.finish false (clock offset) (clock offset))

/-- Another process claims at an offset of the clock. -/
def claimOther (offset : Int) (system : DeliverySystem Bool Spelled Nat) :
    Option (DeliverySystem Bool Spelled Nat) :=
  system.step (fun _ => notifier) (.claim true 2 (clock offset) (clock offset) (clock offset))

/-- Whether a process is finishing a rate limit of a minute. -/
def isLimited (stage : DispatchStage Spelled Nat) : Bool :=
  (finishingWith stage).any fun finishing =>
    finishing.2.errorCode = some "RATE_LIMIT" && finishing.2.retryAfter = seconds 60

theorem isLimited_cases {stage : DispatchStage Spelled Nat} (h : isLimited stage = true) :
    ∃ claim request, stage = .finishing claim request ∧
      request.errorCode = some "RATE_LIMIT" ∧ request.retryAfter = seconds 60 := by
  obtain ⟨⟨claim, request⟩, hfinishing, hlimit⟩ := (Option.any_eq_true _ _).mp h
  simp only [Bool.and_eq_true, decide_eq_true_eq] at hlimit
  exact ⟨claim, request, finishingWith_eq_some hfinishing, hlimit.1, hlimit.2⟩

/-- Whether a process has just claimed. -/
def isClaimed : DispatchStage Spelled Nat → Bool
  | .claimed _ => true
  | .idle | .readable _ | .allowed _ | .sending _ | .finishing _ _ => false

theorem isClaimed_cases {stage : DispatchStage Spelled Nat} (h : isClaimed stage = true) :
    ∃ claim, stage = .claimed claim := by
  cases stage with
  | claimed claim => exact ⟨claim, rfl⟩
  | _ => cases h

/-- Whether a process is idle. -/
def isIdle : DispatchStage Spelled Nat → Bool
  | .idle => true
  | .claimed _ | .readable _ | .allowed _ | .sending _ | .finishing _ _ => false

theorem isIdle_cases {stage : DispatchStage Spelled Nat} (h : isIdle stage = true) :
    stage = .idle := by
  cases stage <;> cases h
  rfl

end Rehearsal

/-- A process that lost its lease is rate limited for a minute at 10:00:20, and another
one claims a second later. -/
theorem rate_limit_lost_with_lease : ∃ system finished : DeliverySystem Bool Spelled Nat,
    ∃ claim request, Rehearsal.limitedSystem = some system ∧
      system.stages false = .finishing claim request ∧
      request.errorCode = some "RATE_LIMIT" ∧ request.retryAfter = seconds 60 ∧
      Rehearsal.finishLimited 20 system = some finished ∧
      finished.ClaimsAt (fun _ => Rehearsal.notifier) true (Rehearsal.clock 21) ∧
      Rehearsal.clock 21 < Rehearsal.clock 20 + request.retryAfter := by
  have hrun : (Rehearsal.limitedSystem.any fun system =>
      Rehearsal.isLimited (system.stages false) &&
        (Rehearsal.finishLimited 20 system).any fun finished =>
          Rehearsal.isIdle (finished.stages true) &&
            (Rehearsal.claimOther 21 finished).any fun next =>
              Rehearsal.isClaimed (next.stages true)) = true := by
    decide +kernel
  obtain ⟨system, hsystem, hrun⟩ := (Option.any_eq_true _ _).mp hrun
  rw [Bool.and_eq_true] at hrun
  obtain ⟨claim, request, hstage, hcode, hdelay⟩ := Rehearsal.isLimited_cases hrun.1
  obtain ⟨finished, hfinished, hrest⟩ := (Option.any_eq_true _ _).mp hrun.2
  rw [Bool.and_eq_true] at hrest
  obtain ⟨next, hnext, hclaimed⟩ := (Option.any_eq_true _ _).mp hrest.2
  obtain ⟨claimed, hclaimed⟩ := Rehearsal.isClaimed_cases hclaimed
  refine ⟨system, finished, claim, request, hsystem, hstage, hcode, hdelay, hfinished, ?_, ?_⟩
  · exact ⟨2, _, _, next, claimed, hnext, Rehearsal.isIdle_cases hrest.1, hclaimed⟩
  · rw [hdelay]
    decide

/-- A process that holds its lease is rate limited for a minute at 10:00:12: nothing is
claimed before 10:01:12. -/
theorem rate_limit_cools_down_rehearsal :
    ∃ system finished : DeliverySystem Bool Spelled Nat,
      Rehearsal.limitedSystem = some system ∧
      Rehearsal.finishLimited 12 system = some finished ∧
      ∀ actions later other claimedAt,
        finished.run (fun _ => Rehearsal.notifier) actions = some later →
        later.ClaimsAt (fun _ => Rehearsal.notifier) other claimedAt →
        Rehearsal.clock 72 ≤ claimedAt := by
  have hrun : (Rehearsal.limitedSystem.any fun system =>
      Rehearsal.isLimited (system.stages false) &&
        (Rehearsal.finishLimited 12 system).any fun finished =>
          finished.store.control.cooldownUntil = some (Rehearsal.clock 72)) = true := by
    decide +kernel
  obtain ⟨system, hsystem, hrun⟩ := (Option.any_eq_true _ _).mp hrun
  rw [Bool.and_eq_true] at hrun
  obtain ⟨claim, request, hstage, hcode, hdelay⟩ := Rehearsal.isLimited_cases hrun.1
  obtain ⟨finished, hfinished, hcooldown⟩ := (Option.any_eq_true _ _).mp hrun.2
  rw [decide_eq_true_eq] at hcooldown
  have hend : Rehearsal.clock 12 + request.retryAfter = Rehearsal.clock 72 := by
    rw [hdelay]
    decide
  have hpositive : 0 ≤ request.retryAfter := by
    rw [hdelay]
    decide
  obtain ⟨hcools, hclaims⟩ := rate_limit_cools_down hstage hcode hpositive hfinished
  rw [hend] at hcools hclaims
  exact ⟨system, finished, hsystem, hfinished,
    hclaims (hcools.mp ⟨_, hcooldown, le_refl _⟩)⟩

end MiniLakehouse
