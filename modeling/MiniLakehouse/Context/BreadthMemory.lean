import MiniLakehouse.Context.Breadth
import MiniLakehouse.Library.Answers

/-!
# The memory of the breadth engine

The reference keeps every bar that it has received and looks for the latest revision of a
minute among all of them.  The engine's map is that of the reference with the minutes below
its cutoff dropped, and a request asks above the cutoff only, so that the two answer alike.
-/

namespace MiniLakehouse

variable {D : Type}

/-! ## The latest revision -/

/-- The latest revision of a minute by its observation, the one received last among equals. -/
def latestRevision (received : List (BarRevision D)) (key : BarKey) : Option (BarRevision D) :=
  (received.filter (·.key = key)).foldl (fun best revision => revision.newer best) none

theorem latestRevision_snoc (received : List (BarRevision D)) (revision : BarRevision D) :
    latestRevision (received ++ [revision]) =
      Function.update (latestRevision received) revision.key
        (revision.newer (latestRevision received revision.key)) := by
  funext key
  by_cases hkey : key = revision.key
  · subst hkey
    simp [latestRevision, List.filter_append]
  · have hother : ¬revision.key = key := fun hsame => hkey hsame.symm
    simp [latestRevision, List.filter_append, hother, hkey]

/-- A revision of a minute that no other one follows by its observation. -/
def IsLatest (received : List (BarRevision D)) (key : BarKey) (revision : BarRevision D) : Prop :=
  ∃ before after, received = before ++ revision :: after ∧ revision.key = key ∧
    (∀ other ∈ before, other.key = key → other.bar.observedAt ≤ revision.bar.observedAt) ∧
    ∀ other ∈ after, other.key = key → other.bar.observedAt < revision.bar.observedAt

theorem latestRevision_eq_none {received : List (BarRevision D)} {key : BarKey}
    (h : latestRevision received key = none) : ∀ revision ∈ received, revision.key ≠ key := by
  induction received using List.reverseRecOn with
  | nil => simp
  | append_singleton received last ih =>
      rw [latestRevision_snoc] at h
      by_cases hkey : key = last.key
      · subst hkey
        rw [Function.update_self, BarRevision.newer] at h
        split at h
        · cases h
        · next hrewinds =>
            rw [h] at hrewinds
            exact absurd rfl hrewinds
      · rw [Function.update_of_ne hkey] at h
        intro revision hrevision
        rcases List.mem_append.mp hrevision with hrevision | hrevision
        · exact ih h revision hrevision
        · rw [List.mem_singleton.mp hrevision]
          exact Ne.symm hkey

/-- The others of the minute are not later than its latest revision. -/
theorem IsLatest.le {received : List (BarRevision D)} {key : BarKey} {revision : BarRevision D}
    (h : IsLatest received key revision) {other : BarRevision D} (hother : other ∈ received)
    (hkey : other.key = key) : other.bar.observedAt ≤ revision.bar.observedAt := by
  obtain ⟨before, after, rfl, -, hbefore, hafter⟩ := h
  rcases List.mem_append.mp hother with hother | hother
  · exact hbefore other hother hkey
  · rcases List.mem_cons.mp hother with rfl | hother
    · exact le_refl _
    · exact (hafter other hother hkey).le

/-- **The fold finds the latest revision.** -/
theorem latestRevision_isLatest {received : List (BarRevision D)} {key : BarKey}
    {revision : BarRevision D} (h : latestRevision received key = some revision) :
    IsLatest received key revision := by
  induction received using List.reverseRecOn generalizing revision with
  | nil => cases h
  | append_singleton received last ih =>
      rw [latestRevision_snoc] at h
      -- an earlier revision stays the latest where the last one is older or of another minute
      have hkept : ∀ found, latestRevision received key = some found →
          (last.key = key → last.bar.observedAt < found.bar.observedAt) →
          IsLatest (received ++ [last]) key found := by
        intro found hfound hlast
        obtain ⟨before, after, hreceived, hrevision, hbefore, hafter⟩ := ih hfound
        refine ⟨before, after ++ [last], by simp [hreceived], hrevision, hbefore, ?_⟩
        intro other hother hsame
        rcases List.mem_append.mp hother with hother | hother
        · exact hafter other hother hsame
        · rw [List.mem_singleton.mp hother] at hsame ⊢
          exact hlast hsame
      by_cases hkey : key = last.key
      · subst hkey
        rw [Function.update_self, BarRevision.newer] at h
        split at h
        · next hnewer =>
            obtain rfl := Option.some.inj h
            refine ⟨received, [], rfl, rfl, ?_, by simp⟩
            intro other hother hsame
            cases hbest : latestRevision received last.key with
            | none => exact absurd hsame (latestRevision_eq_none hbest other hother)
            | some best =>
                rw [hbest, Option.all_some, decide_eq_true_eq] at hnewer
                exact ((ih hbest).le hother hsame).trans hnewer
        · next holder =>
            rw [h, Option.all_some, decide_eq_true_eq, not_le] at holder
            exact hkept revision h fun _ => holder
      · rw [Function.update_of_ne hkey] at h
        exact hkept revision h fun hsame => absurd hsame.symm hkey

/-! ## The reference -/

/-- Every bar that was ever received, in the order of receipt. -/
structure BreadthReference (D : Type) where
  received : List (BarRevision D)
  lastReceivedAt : Option Instant
  lastDecisionAt : Option Instant

/-- What an engine is asked for. -/
inductive BreadthAction (D : Type) where
  | apply (envelope : StreamEnvelope D)
  | build (at' : Instant)

inductive BreadthAnswer (D : Type) where
  | applied (result : Except Raised Unit)
  | built (result : Except Raised (List (BreadthContext D)))

variable [Hashing D] [IntervalSdk] (configuration : TradingVersion) (policy : BreadthVersion)
  (membership : Option (BreadthMembershipSnapshot D))

namespace BreadthReference

def initial : BreadthReference D := ⟨[], none, none⟩

def apply (reference : BreadthReference D) (envelope : StreamEnvelope D) :
    BreadthReference D × Except Raised Unit :=
  if reference.lastReceivedAt.any (envelope.receivedAt < ·) then
    (reference, .error (.valueError "breadth envelopes must be receipt ordered"))
  else
    let received := { reference with lastReceivedAt := some envelope.receivedAt }
    match envelopeBar configuration membership envelope with
    | .error error => (received, .error error)
    | .ok none => (received, .ok ())
    | .ok (some revision) =>
        ({ received with received := reference.received ++ [revision] }, .ok ())

def build (reference : BreadthReference D) (at' : Instant) :
    BreadthReference D × Except Raised (List (BreadthContext D)) :=
  match checkBuild configuration policy reference.lastReceivedAt reference.lastDecisionAt at' with
  | .error error => (reference, .error error)
  | .ok () =>
      ({ reference with lastDecisionAt := some at' },
        breadthContexts configuration policy membership at'
          (fun symbol => latestRevision reference.received (symbol, policy.baseStart at'))
          (fun symbol =>
            latestRevision reference.received (symbol, BreadthVersion.currentStart at')))

def step (reference : BreadthReference D) :
    BreadthAction D → BreadthReference D × BreadthAnswer D
  | .apply envelope =>
      ((reference.apply configuration membership envelope).1,
        .applied (reference.apply configuration membership envelope).2)
  | .build at' =>
      ((reference.build configuration policy membership at').1,
        .built (reference.build configuration policy membership at').2)

end BreadthReference

def BreadthEngine.step (engine : BreadthEngine D) :
    BreadthAction D → BreadthEngine D × BreadthAnswer D
  | .apply envelope =>
      ((engine.apply configuration policy membership envelope).1,
        .applied (engine.apply configuration policy membership envelope).2)
  | .build at' =>
      ((engine.build configuration policy membership at').1,
        .built (engine.build configuration policy membership at').2)

omit [IntervalSdk] in
theorem checkBuild_ok {lastReceivedAt lastDecisionAt : Option Instant} {at' : Instant}
    (h : checkBuild configuration policy lastReceivedAt lastDecisionAt at' = .ok ()) :
    (∀ received ∈ lastReceivedAt, received ≤ at') ∧ (∀ decision ∈ lastDecisionAt, decision < at') ∧
      policy.contains (configuration.market.timezone.date at') := by
  unfold checkBuild at h
  simp only [bind_eq_ok, require_eq_ok] at h
  obtain ⟨-, hreceived, -, hdecided, hcovered⟩ := h
  exact ⟨hreceived, hdecided, hcovered⟩

omit [IntervalSdk] in
/-- Both minutes of a request are closed. -/
theorem currentStart_closed (at' : Instant) :
    BreadthVersion.currentStart at' + seconds 60 ≤ at' := by
  have hmodulo : 0 ≤ at' % seconds 60 := Int.emod_nonneg _ (by decide)
  unfold BreadthVersion.currentStart
  linarith

omit [IntervalSdk] in
theorem baseStart_le (at' : Instant) :
    policy.baseStart at' ≤ BreadthVersion.currentStart at' := by
  have hlookback : 0 ≤ seconds policy.lookbackSeconds :=
    Int.mul_nonneg (Int.natCast_nonneg _) (by decide)
  unfold BreadthVersion.baseStart
  linarith

/-! ## The engine against the reference -/

/-- The clocks are the same, and the engine's map is that of the reference from every cutoff
that the last receipt leaves in reach. -/
structure Remembers (reference : BreadthReference D) (engine : BreadthEngine D) : Prop where
  received : engine.lastReceivedAt = reference.lastReceivedAt
  decided : engine.lastDecisionAt = reference.lastDecisionAt
  agrees : ∀ cutoff,
    (∀ last ∈ reference.lastReceivedAt, last - BreadthEngine.retention policy ≤ cutoff) →
    AgreesFrom Prod.snd cutoff (latestRevision reference.received) engine.bars

omit [IntervalSdk] in
/-- A request does not reach below what the last receipt before it keeps. -/
theorem retention_covers {last at' : Instant} (hle : last ≤ at') :
    last - BreadthEngine.retention policy ≤ policy.baseStart at' := by
  have hstale : (60 : Int) ≤ policy.staleAfterSeconds := by exact_mod_cast policy.stale_bounds.1
  have hmodulo : at' % seconds 60 < seconds 60 := Int.emod_lt_of_pos _ (by decide)
  have hretention : BreadthEngine.retention policy =
      seconds policy.lookbackSeconds + seconds policy.staleAfterSeconds + seconds 60 := by
    unfold BreadthEngine.retention seconds
    ring
  have hcovers : seconds 60 ≤ seconds policy.staleAfterSeconds :=
    Int.mul_le_mul_of_nonneg_right hstale (by decide)
  rw [hretention]
  unfold BreadthVersion.baseStart BreadthVersion.currentStart
  linarith

/-- A receipt keeps the engine's map in step with the reference. -/
theorem Remembers.apply {reference : BreadthReference D} {engine : BreadthEngine D}
    (h : Remembers policy reference engine) (envelope : StreamEnvelope D) :
    (engine.apply configuration policy membership envelope).2 =
        (reference.apply configuration membership envelope).2 ∧
      Remembers policy (reference.apply configuration membership envelope).1
        (engine.apply configuration policy membership envelope).1 := by
  unfold BreadthEngine.apply BreadthReference.apply
  rw [h.received]
  split
  · exact ⟨rfl, h⟩
  · next hordered =>
      have hearlier : ∀ last ∈ reference.lastReceivedAt, last ≤ envelope.receivedAt := by
        intro last hlast
        by_contra hlater
        refine hordered ?_
        rw [Option.mem_def.mp hlast, Option.any_some, decide_eq_true_eq]
        exact not_le.mp hlater
      -- what the new receipt leaves in reach, the last one did
      have hreach : ∀ cutoff, envelope.receivedAt - BreadthEngine.retention policy ≤ cutoff →
          AgreesFrom Prod.snd cutoff (latestRevision reference.received) engine.bars := by
        intro cutoff hcutoff
        refine h.agrees cutoff fun last hlast => ?_
        exact (Int.sub_le_sub_right (hearlier last hlast) _).trans hcutoff
      cases envelopeBar configuration membership envelope with
      | error error =>
          exact ⟨rfl, ⟨rfl, h.decided, fun cutoff hcutoff => hreach cutoff (hcutoff _ rfl)⟩⟩
      | ok bar =>
          cases bar with
          | none =>
              exact ⟨rfl, ⟨rfl, h.decided, fun cutoff hcutoff => hreach cutoff (hcutoff _ rfl)⟩⟩
          | some revision =>
              refine ⟨rfl, ⟨rfl, h.decided, fun cutoff hcutoff => ?_⟩⟩
              have hkept := (hreach _ (le_refl _)).update revision.key revision.newer
              rw [← latestRevision_snoc] at hkept
              exact hkept.prune.mono (hcutoff _ rfl)

omit [IntervalSdk] in
/-- A request is answered alike: it asks above the cutoff only. -/
theorem Remembers.build {reference : BreadthReference D} {engine : BreadthEngine D}
    (h : Remembers policy reference engine) (at' : Instant) :
    (engine.build configuration policy membership at').2 =
        (reference.build configuration policy membership at').2 ∧
      Remembers policy (reference.build configuration policy membership at').1
        (engine.build configuration policy membership at').1 := by
  unfold BreadthEngine.build BreadthReference.build
  rw [h.received, h.decided]
  cases hcheck : checkBuild configuration policy reference.lastReceivedAt
      reference.lastDecisionAt at' with
  | error error => exact ⟨rfl, h⟩
  | ok checked =>
      cases checked
      obtain ⟨hreceived, -, -⟩ := checkBuild_ok configuration policy hcheck
      have hagrees := h.agrees (policy.baseStart at') fun last hlast =>
        retention_covers policy (hreceived last hlast)
      have hbase : (fun symbol => engine.bars (symbol, policy.baseStart at')) =
          fun symbol => latestRevision reference.received (symbol, policy.baseStart at') := by
        funext symbol
        exact hagrees (symbol, policy.baseStart at') (le_refl _)
      have hcurrent : (fun symbol => engine.bars (symbol, BreadthVersion.currentStart at')) =
          fun symbol =>
            latestRevision reference.received (symbol, BreadthVersion.currentStart at') := by
        funext symbol
        exact hagrees (symbol, BreadthVersion.currentStart at') (baseStart_le policy at')
      dsimp only
      rw [hbase, hcurrent]
      exact ⟨rfl, ⟨rfl, rfl, h.agrees⟩⟩

theorem remembers_step : AnswersAlike (BreadthReference.step configuration policy membership)
    (BreadthEngine.step configuration policy membership) (Remembers (D := D) policy) := by
  intro reference engine action h
  cases action with
  | apply envelope =>
      obtain ⟨hanswer, hnext⟩ := h.apply configuration policy membership envelope
      exact ⟨congrArg BreadthAnswer.applied hanswer.symm, hnext⟩
  | build at' =>
      obtain ⟨hanswer, hnext⟩ := h.build configuration policy membership at'
      exact ⟨congrArg BreadthAnswer.built hanswer.symm, hnext⟩

/-! ## What the contexts are computed of -/

/-- Every bar was received by the last receipt. -/
def ReceivedInOrder (reference : BreadthReference D) : Prop :=
  ∀ revision ∈ reference.received, ∃ last, reference.lastReceivedAt = some last ∧
    revision.receivedAt ≤ last

theorem envelopeBar_receivedAt {envelope : StreamEnvelope D} {revision : BarRevision D}
    (h : envelopeBar configuration membership envelope = .ok (some revision)) :
    revision.receivedAt = envelope.receivedAt := by
  unfold envelopeBar at h
  dsimp only at h
  split at h
  · obtain ⟨bar, -, hbar⟩ := bind_eq_ok.mp h
    obtain ⟨found, -, rfl⟩ := Option.map_eq_some_iff.mp (pure_eq_ok.mp hbar)
    rfl
  · cases pure_eq_ok.mp h

theorem receivedInOrder_step (reference : BreadthReference D) (action : BreadthAction D)
    (h : ReceivedInOrder reference) :
    ReceivedInOrder (reference.step configuration policy membership action).1 := by
  cases action with
  | build at' =>
      unfold BreadthReference.step BreadthReference.build
      dsimp only
      split
      · exact h
      · exact h
  | apply envelope =>
      unfold BreadthReference.step BreadthReference.apply
      dsimp only
      split
      · exact h
      · next hordered =>
          have hearlier : ∀ revision ∈ reference.received,
              revision.receivedAt ≤ envelope.receivedAt := by
            intro revision hrevision
            obtain ⟨last, hlast, hle⟩ := h revision hrevision
            refine hle.trans ?_
            by_contra hlater
            refine hordered ?_
            rw [hlast, Option.any_some, decide_eq_true_eq]
            exact not_le.mp hlater
          split
          · exact fun revision hrevision => ⟨_, rfl, hearlier revision hrevision⟩
          · exact fun revision hrevision => ⟨_, rfl, hearlier revision hrevision⟩
          · next last hbar =>
              intro revision hrevision
              refine ⟨_, rfl, ?_⟩
              rcases List.mem_append.mp hrevision with hrevision | hrevision
              · exact hearlier revision hrevision
              · rw [List.mem_singleton.mp hrevision]
                exact (envelopeBar_receivedAt configuration membership hbar).le

/-- The revision that a lookup finds is the latest one of a closed minute, and was received. -/
structure Available (received : List (BarRevision D)) (at' : Instant) (key : BarKey)
    (revision : BarRevision D) : Prop where
  latest : IsLatest received key revision
  closed : revision.bar.start + seconds 60 ≤ at'
  available : revision.receivedAt ≤ at'

omit [Hashing D] [IntervalSdk] in
theorem ReceivedInOrder.available {reference : BreadthReference D}
    (h : ReceivedInOrder reference) {at' : Instant}
    (hreceived : ∀ received ∈ reference.lastReceivedAt, received ≤ at') {key : BarKey}
    (hkey : key.2 ≤ BreadthVersion.currentStart at') {revision : BarRevision D}
    (hfound : latestRevision reference.received key = some revision) :
    Available reference.received at' key revision := by
  have hlatest := latestRevision_isLatest hfound
  obtain ⟨before, after, hsplit, hrevision, -, -⟩ := id hlatest
  have hstart : revision.bar.start = key.2 := congrArg Prod.snd hrevision
  have hmem : revision ∈ reference.received := by simp [hsplit]
  obtain ⟨last, hlast, hle⟩ := h revision hmem
  refine ⟨hlatest, ?_, hle.trans (hreceived last hlast)⟩
  calc revision.bar.start + seconds 60 = key.2 + seconds 60 := by rw [hstart]
    _ ≤ BreadthVersion.currentStart at' + seconds 60 := by linarith
    _ ≤ at' := currentStart_closed at'

omit [IntervalSdk] in
/-- A built list holds valid contexts only. -/
theorem breadthContexts_valid (at' : Instant) (baseline current : String → Option (BarRevision D)) :
    ∃ contexts, breadthContexts configuration policy membership at' baseline current =
      .ok contexts ∧ ∀ context ∈ contexts, AllHold context.checks := by
  have hvalid := breadthContext_valid configuration policy membership at' baseline current
  have heach : ∀ index ∈ policy.indices.mergeSort (· ≤ ·), ∃ context,
      breadthContext configuration policy membership at' baseline current index = .ok context :=
    fun index _ => (hvalid index).imp fun context hcontext => hcontext.1
  obtain ⟨contexts, hcontexts⟩ := mapM_total heach
  refine ⟨contexts, hcontexts, ?_⟩
  intro context hcontext
  obtain ⟨index, -, hindex⟩ := exists_of_mem_forall₂ (mapM_eq_ok.mp hcontexts) hcontext
  obtain ⟨found, hfound, hchecks⟩ := hvalid index
  rw [hindex] at hfound
  obtain rfl := Except.ok.inj hfound
  exact hchecks

/-- The answer to a request holds valid contexts only. -/
def BreadthAnswer.Valid (answer : BreadthAnswer D) : Prop :=
  ∀ contexts, answer = .built (.ok contexts) → ∀ context ∈ contexts, AllHold context.checks

theorem step_answer_valid (reference : BreadthReference D) (action : BreadthAction D) :
    (reference.step configuration policy membership action).2.Valid := by
  intro contexts hanswer
  cases action with
  | apply envelope => cases hanswer
  | build at' =>
      have hbuilt := BreadthAnswer.built.inj hanswer
      unfold BreadthReference.build at hbuilt
      split at hbuilt
      · cases hbuilt
      · obtain ⟨found, hfound, hvalid⟩ := breadthContexts_valid configuration policy membership at'
          (fun symbol => latestRevision reference.received (symbol, policy.baseStart at'))
          (fun symbol =>
            latestRevision reference.received (symbol, BreadthVersion.currentStart at'))
        obtain rfl := Except.ok.inj (hfound.symm.trans hbuilt)
        exact hvalid

/-- The reference after a list of receipts and requests. -/
def referenceAfter (actions : List (BreadthAction D)) : BreadthReference D :=
  (answerAll (BreadthReference.step configuration policy membership) .initial actions).1

/-- **The bounded memory is invisible.**  Whatever envelopes arrive and whatever contexts are
asked for, the engine answers as the reference that keeps every bar; each context that it
returns is valid; and a request that the clocks allow is answered out of the latest revisions
of closed minutes that were received by then. -/
theorem breadth_memory_invisible (actions : List (BreadthAction D)) :
    (answerAll (BreadthEngine.step configuration policy membership) .initial actions).2 =
        (answerAll (BreadthReference.step configuration policy membership) .initial actions).2 ∧
      (∀ answer ∈ (answerAll (BreadthEngine.step configuration policy membership) .initial
        actions).2, answer.Valid) ∧
      ∀ at', checkBuild configuration policy
          (referenceAfter configuration policy membership actions).lastReceivedAt
          (referenceAfter configuration policy membership actions).lastDecisionAt at' = .ok () →
        (∃ contexts, ((referenceAfter configuration policy membership actions).build
          configuration policy membership at').2 = .ok contexts) ∧
        ∀ key revision, key.2 = policy.baseStart at' ∨ key.2 = BreadthVersion.currentStart at' →
          latestRevision (referenceAfter configuration policy membership actions).received key =
            some revision →
          Available (referenceAfter configuration policy membership actions).received at' key
            revision := by
  have hinitial : Remembers (D := D) policy .initial .initial :=
    ⟨rfl, rfl, fun cutoff _ key _ => rfl⟩
  obtain ⟨hanswers, -⟩ :=
    (remembers_step configuration policy membership).run hinitial actions
  have hordered : ReceivedInOrder (referenceAfter configuration policy membership actions) :=
    answerAll_invariant (receivedInOrder_step configuration policy membership)
      (fun revision hrevision => absurd hrevision List.not_mem_nil) actions
  refine ⟨hanswers.symm, ?_, ?_⟩
  · rw [← hanswers]
    exact answerAll_answers (I := fun _ => True) (fun _ _ _ => trivial)
      (fun reference action _ => step_answer_valid configuration policy membership reference action)
      trivial actions
  · intro at' hcheck
    obtain ⟨hreceived, -, -⟩ := checkBuild_ok configuration policy hcheck
    constructor
    · obtain ⟨contexts, hcontexts, -⟩ := breadthContexts_valid configuration policy membership at'
        (fun symbol => latestRevision
          (referenceAfter configuration policy membership actions).received
          (symbol, policy.baseStart at'))
        (fun symbol => latestRevision
          (referenceAfter configuration policy membership actions).received
          (symbol, BreadthVersion.currentStart at'))
      refine ⟨contexts, ?_⟩
      rw [BreadthReference.build, hcheck]
      exact hcontexts
    · intro key revision hkey hfound
      refine hordered.available hreceived ?_ hfound
      rcases hkey with hkey | hkey
      · rw [hkey]
        exact baseStart_le policy at'
      · exact hkey.le

end MiniLakehouse
