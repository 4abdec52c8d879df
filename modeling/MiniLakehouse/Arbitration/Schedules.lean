import MiniLakehouse.Arbitration.Pipeline

/-!
# Schedules of a shadow journal

However a journal is called (in whatever batches it takes in the envelopes, however often it is
advanced, across reconnects), once it has closed its records are those of one replay of all
that it has taken in (`closed_journal_replays`), which are the ones that an audit recomputes
(`closed_journal_audited`).
-/

namespace MiniLakehouse

variable {D : Type} [Hashing D]

namespace ShadowArbitrationJournal

variable {settings : JournalSettings D} {journal journal' : ShadowArbitrationJournal D}

/-- What a journal decides with. -/
def engines (journal : ShadowArbitrationJournal D) : JournalEngines D :=
  (((journal.featureEngine, journal.contextEngine), journal.featureHistory), journal.arbitrator)

/-- What decisions do not touch. -/
structure SameSession (journal journal' : ShadowArbitrationJournal D) : Prop where
  decisionTimes : journal'.decisionTimes = journal.decisionTimes
  openGap : journal'.openGap = journal.openGap
  gaps : journal'.gaps = journal.gaps
  failed : journal'.failed = journal.failed
  manifest : journal'.manifest = journal.manifest

theorem SameSession.refl (journal : ShadowArbitrationJournal D) : SameSession journal journal :=
  ⟨rfl, rfl, rfl, rfl, rfl⟩

theorem SameSession.trans {journal'' : ShadowArbitrationJournal D}
    (h : SameSession journal journal') (h' : SameSession journal' journal'') :
    SameSession journal journal'' where
  decisionTimes := h'.decisionTimes.trans h.decisionTimes
  openGap := h'.openGap.trans h.openGap
  gaps := h'.gaps.trans h.gaps
  failed := h'.failed.trans h.failed
  manifest := h'.manifest.trans h.manifest

theorem SameSession.gapAffected (h : SameSession journal journal') :
    journal'.gapAffected settings = journal.gapAffected settings := by
  funext decisionAt
  rw [ShadowArbitrationJournal.gapAffected, ShadowArbitrationJournal.gapAffected, h.openGap, h.gaps]

theorem leaving_eq_ok {α : Type} {result : Except Raised α} {value : α} :
    journal.leaving result = .ok value ↔ result = .ok value := by
  cases result with
  | error raised => simp [leaving, Except.mapError]
  | ok found => simp [leaving, Except.mapError]

/-! ## One decision -/

/-- Handing selections over touches only what concerns the consumer. -/
theorem handOff_keeps (journal : ShadowArbitrationJournal D)
    (accepts : SelectedEvidence D → Bool)
    (select : CandidateArbitration D → Except Raised (SelectedEvidence D))
    (arbitrations : List (CandidateArbitration D)) :
    ∃ selecting handed, handOff accepts select journal arbitrations =
      { journal with selecting := selecting, handed := handed } := by
  induction arbitrations generalizing journal with
  | nil => exact ⟨journal.selecting, journal.handed, rfl⟩
  | cons arbitration rest ih =>
      unfold handOff
      by_cases hselected : arbitration.status ≠ .selected
      · rw [if_pos hselected]
        exact ih journal
      · rw [if_neg hselected]
        cases select arbitration with
        | error raised => exact ⟨false, journal.handed, rfl⟩
        | ok evidence =>
            by_cases haccepts : accepts evidence
            · simp only [haccepts, if_true]
              obtain ⟨selecting, handed, hkept⟩ :=
                ih { journal with handed := journal.handed ++ [evidence] }
              exact ⟨selecting, handed, hkept⟩
            · simp only [haccepts]
              exact ⟨false, journal.handed ++ [evidence], rfl⟩

variable [Sdk] [IntervalSdk] [StatusSdk]

/-- Taking in what is pending is what the machine of the contexts does. -/
theorem applyPending_eq (cutoff : Instant) (engines : FeatureEngine × LiveDecisionContextEngine D)
    (pending : List (StreamEnvelope D)) :
    applyPending settings cutoff engines pending =
      (contextMachine settings).applyUntil (·.receivedAt) cutoff engines pending := by
  induction pending generalizing engines with
  | nil => rfl
  | cons envelope rest ih =>
      have hone : applyEnvelope settings engines envelope =
          (contextMachine settings).apply engines envelope := by
        simp only [applyEnvelope, contextMachine, Clocked.andThen, FeatureEngine.machine,
          LiveDecisionContextEngine.machine]
        cases hupdate : engines.1.apply settings.configuration envelope with
        | mk update featureEngine =>
            cases update with
            | error raised => rfl
            | ok update => rfl
      by_cases hreceived : envelope.receivedAt ≤ cutoff
      · simp only [applyPending, Clocked.applyUntil, if_pos hreceived, hone]
        exact bind_congr fun next => ih next
      · simp only [applyPending, Clocked.applyUntil, if_neg hreceived]

theorem journalMachine_applyUntil (cutoff : Instant) (engines : JournalEngines D)
    (pending : List (StreamEnvelope D)) :
    (journalMachine settings).applyUntil (·.receivedAt) cutoff engines pending =
      applyPending settings cutoff engines.1.1 pending >>= fun taken =>
        .ok (((taken.1, engines.1.2), engines.2), taken.2) := by
  obtain ⟨⟨both, history⟩, arbitrator⟩ := engines
  have hidle : ∀ (state : List (FeatureSnapshot D)) (envelope : StreamEnvelope D),
      scoringMachine.apply state envelope = .ok state := fun _ _ => rfl
  have hidle' : ∀ (state : CandidateArbitrator D) (envelope : StreamEnvelope D),
      (CandidateArbitrator.machine (α := List (FeatureSnapshot D) × DecisionContext D)).apply state
        envelope = .ok state := fun _ _ => rfl
  rw [applyPending_eq, journalMachine, Clocked.applyUntil_andThen_idle hidle',
    Clocked.applyUntil_andThen_idle hidle, bind_assoc]
  rfl

/-- What one decision does: it takes in what has arrived, decides and writes what the clock
leaves. -/
theorem decideAt_ok {realtime : Bool} {clock : Instant} {rest : List Instant}
    (h : decideAt settings realtime clock rest journal = .ok journal') :
    ∃ taken decided, (journalMachine settings).applyUntil (·.receivedAt) clock journal.engines
        journal.pending = .ok taken ∧
      (journalMachine settings).decide taken.1 clock (journal.gapAffected settings clock) =
        .ok decided ∧
      journal'.engines = decided.1 ∧ journal'.pending = taken.2 ∧ journal'.remaining = rest ∧
      journal'.candidates = journal.candidates ++ decided.2.1.2 ∧
      journal'.arbitrations = journal.arbitrations ++ decided.2.2 ∧
      SameSession journal journal' := by
  simp only [decideAt, bind_eq_ok, leaving_eq_ok] at h
  obtain ⟨taken, htaken, current, hcurrent, built, hbuilt, candidates, hcandidates, arbitrations,
    harbitrations, h⟩ := h
  generalize hsnapshots : (if journal.gapAffected settings clock = true then
    current.1.map (·.noteGap) else current.1) = snapshots at h hbuilt hcandidates
  have hkept : ∃ selecting handed, journal' = { journal with
      candidates := journal.candidates ++ candidates
      remaining := rest
      featureEngine := current.2
      contextEngine := built.1
      arbitrator := (journal.arbitrator.decide candidates).2
      pending := taken.2
      featureHistory := recentHistory journal.featureHistory clock ++ snapshots
      arbitrations := journal.arbitrations ++ arbitrations
      selecting := selecting
      handed := handed } := by
    cases hconsumer : settings.onSelection with
    | none =>
        simp only [hconsumer, pure_eq_ok] at h
        exact ⟨journal.selecting, journal.handed, h.symm⟩
    | some accepts =>
        simp only [hconsumer] at h
        by_cases hblock : realtime ∧ journal.selecting ∧
            built.2.selectionBlockReason true = none
        · rw [if_pos hblock, pure_eq_ok] at h
          obtain ⟨selecting, handed, hkept⟩ := handOff_keeps _ accepts _ arbitrations
          rw [hkept] at h
          exact ⟨selecting, handed, h.symm⟩
        · rw [if_neg hblock, pure_eq_ok] at h
          exact ⟨journal.selecting, journal.handed, h.symm⟩
  obtain ⟨selecting, handed, rfl⟩ := hkept
  refine ⟨(((taken.1, journal.featureHistory), journal.arbitrator), taken.2), ((((current.2, built.1), recentHistory journal.featureHistory clock ++ snapshots),
    (journal.arbitrator.decide candidates).2), (((snapshots, built.2), candidates),
    arbitrations)), ?_, ?_, rfl, rfl, rfl, rfl, rfl, ⟨rfl, rfl, rfl, rfl, rfl⟩⟩
  · rw [journalMachine_applyUntil]
    exact bind_eq_ok.mpr ⟨taken, htaken, rfl⟩
  · have hfeatures : (FeatureEngine.machine settings.configuration).decide taken.1.1 clock
        (journal.gapAffected settings clock) = .ok (current.2, snapshots) := by
      simp only [FeatureEngine.machine, hcurrent, ok_bind, hsnapshots]
      rfl
    have hcontexts : (LiveDecisionContextEngine.machine settings.toContextSettings).decide
        taken.1.2 clock snapshots = .ok built := hbuilt
    have hscored : scoringMachine.decide journal.featureHistory clock (snapshots, built.2) =
        .ok (recentHistory journal.featureHistory clock ++ snapshots, candidates) := by
      simp only [scoringMachine, hcandidates, ok_bind]
      rfl
    have harbitrated : CandidateArbitrator.machine.decide journal.arbitrator clock
        ((snapshots, built.2), candidates) =
        .ok ((journal.arbitrator.decide candidates).2, arbitrations) :=
      CandidateArbitrator.machine_decide.mpr ⟨harbitrations, rfl⟩
    simp only [journalMachine, contextMachine, Clocked.andThen, hfeatures, hcontexts, hscored,
      harbitrated, ok_bind, pure_bind]
    rfl

/-! ## Advancing -/

/-- A manifest that commits records: their numbers and their digests. -/
structure Commits (manifest : ShadowArbitrationManifest D)
    (candidates : List (BaselineCandidate D)) (arbitrations : List (CandidateArbitration D)) :
    Prop where
  candidateCount : manifest.candidateCount = candidates.length
  candidateSha256 : manifest.candidateSha256 =
    sha256 (.list (fun candidate => candidate.modelDump) candidates)
  arbitrationCount : manifest.arbitrationCount = arbitrations.length
  arbitrationSha256 : manifest.arbitrationSha256 =
    sha256 (.list (fun arbitration => arbitration.modelDump) arbitrations)

/-- A pump that has answered what a journal has written. -/
structure Follows (journal : ShadowArbitrationJournal D)
    (pump : Clocked.Pump (JournalEngines D) (StreamEnvelope D) (ClockRecord D) Instant) :
    Prop where
  clocks : pump.clocks = journal.remaining
  candidates : journal.candidates = pump.answers.flatMap (·.1.2)
  arbitrations : journal.arbitrations = pump.answers.flatMap (·.2)
  engines : journal.manifest = none → pump.state = journal.engines
  pending : journal.manifest = none → pump.pending = journal.pending
  reached : journal.manifest.isSome → journal.remaining = []
  committed : ∀ manifest ∈ journal.manifest,
    Commits manifest journal.candidates journal.arbitrations

/-- **Advancing a journal drives the machine** over the clocks up to the cutoff. -/
theorem advanceClocks_drive {realtime : Bool} {cutoff : Instant} {clocks : List Instant}
    {answers : List (ClockRecord D)} (hremaining : journal.remaining = clocks)
    (hopen : journal.manifest = none)
    (hcandidates : journal.candidates = answers.flatMap (·.1.2))
    (harbitrations : journal.arbitrations = answers.flatMap (·.2))
    (h : advanceClocks settings realtime cutoff clocks journal = .ok journal') :
    ∃ pump, (journalMachine settings).drive (·.receivedAt) (journal.gapAffected settings) cutoff
        clocks journal.engines journal.pending answers = .ok pump ∧
      Follows journal' pump ∧ SameSession journal journal' ∧
      journal'.remaining = clocks.dropWhile (· ≤ cutoff) := by
  induction clocks generalizing journal answers with
  | nil =>
      obtain rfl := Except.ok.inj h
      refine ⟨_, rfl, ⟨hremaining.symm, hcandidates, harbitrations, fun _ => rfl, fun _ => rfl,
        fun _ => hremaining, fun manifest hmanifest => ?_⟩, ⟨rfl, rfl, rfl, rfl, rfl⟩, hremaining⟩
      simp [hopen] at hmanifest
  | cons clock rest ih =>
      unfold advanceClocks at h
      unfold Clocked.drive
      by_cases hclock : clock ≤ cutoff
      · rw [if_pos hclock, bind_eq_ok] at h
        obtain ⟨next, hdecided, hrest⟩ := h
        obtain ⟨taken, decided, htaken, hdecide, hengines, hpending, hnext, hwritten, hresults,
          hsame⟩ := decideAt_ok hdecided
        have hcandidates' : next.candidates = (answers ++ [decided.2]).flatMap (·.1.2) := by
          rw [hwritten, hcandidates]
          simp
        have harbitrations' : next.arbitrations = (answers ++ [decided.2]).flatMap (·.2) := by
          rw [hresults, harbitrations]
          simp
        obtain ⟨pump, hpump, hfollows, hlater, hleft⟩ :=
          ih hnext (hsame.manifest.trans hopen) hcandidates' harbitrations' hrest
        refine ⟨pump, ?_, hfollows, hsame.trans hlater, by simpa [hclock] using hleft⟩
        rw [hsame.gapAffected, hengines, hpending] at hpump
        simp only [if_pos hclock, htaken, hdecide, ok_bind]
        exact hpump
      · rw [if_neg hclock] at h
        simp only [bind_eq_ok, leaving_eq_ok, pure_eq_ok] at h
        obtain ⟨taken, htaken, rfl⟩ := h
        have happlied : (journalMachine settings).applyUntil (·.receivedAt) cutoff journal.engines
            journal.pending =
            .ok (((taken.1, journal.featureHistory), journal.arbitrator), taken.2) := by
          rw [journalMachine_applyUntil]
          exact bind_eq_ok.mpr ⟨taken, htaken, rfl⟩
        refine ⟨⟨((taken.1, journal.featureHistory), journal.arbitrator), taken.2, clock :: rest,
          answers⟩, ?_, ⟨hremaining.symm, hcandidates, harbitrations, fun _ => rfl, fun _ => rfl,
          fun hmanifest => ?_, fun manifest hmanifest => ?_⟩, ⟨rfl, rfl, rfl, rfl, rfl⟩,
          by simpa [hclock] using hremaining⟩
        · simp only [if_neg hclock, happlied, ok_bind]
          rfl
        · simp [hopen] at hmanifest
        · simp [hopen] at hmanifest

/-! ## Calls -/

/-- The envelopes that a call hands over. -/
def Call.envelopes : Call D → List (StreamEnvelope D)
  | .ingest envelopes => envelopes
  | _ => []

/-- The instant up to which a call decides. -/
def Call.cutoff (settings : JournalSettings D) : Call D → Option Instant
  | .advance observedAt => some (observedAt - seconds settings.configuration.features.cadenceSeconds)
  | .disconnected disconnectedAt _ => some disconnectedAt
  | .close observedAt _ => some observedAt
  | .connected _ _ => none
  | .ingest _ => none

/-- The journal that a call decides with: a disconnection has opened its gap. -/
def noticing (journal : ShadowArbitrationJournal D) : Call D → ShadowArbitrationJournal D
  | .disconnected disconnectedAt unavailable =>
      if unavailable ∧ journal.openGap = none then
        { journal with openGap := some disconnectedAt }
      else journal
  | _ => journal

/-- What a call is to a pump. -/
def event (settings : JournalSettings D) (journal : ShadowArbitrationJournal D) (call : Call D) :
    Option (Clocked.PumpEvent (StreamEnvelope D) Bool Instant) :=
  match call with
  | .connected _ _ => none
  | .ingest envelopes => some (.ingest envelopes)
  | call => (call.cutoff settings).map
      (.advance ((journal.noticing call).gapAffected settings))

/-- What the calls are to a pump, each as the journal is when it comes. -/
def events (settings : JournalSettings D) :
    ShadowArbitrationJournal D → List (Call D) →
      List (Clocked.PumpEvent (StreamEnvelope D) Bool Instant)
  | _, [] => []
  | journal, call :: calls =>
      (event settings journal call).toList ++ events settings (journal.call settings call) calls

/-- The journal after calls. -/
def run (settings : JournalSettings D) (journal : ShadowArbitrationJournal D)
    (calls : List (Call D)) : ShadowArbitrationJournal D :=
  calls.foldl (ShadowArbitrationJournal.call settings) journal

theorem call_of_failed (h : journal.failed.isSome) (call : Call D) :
    journal.call settings call = journal := by
  rw [ShadowArbitrationJournal.call, if_pos (.inl h)]

theorem run_of_failed (h : journal.failed.isSome) (calls : List (Call D)) :
    journal.run settings calls = journal := by
  induction calls with
  | nil => rfl
  | cons call calls ih =>
      rw [run, List.foldl_cons, call_of_failed h]
      exact ih

/-- What a call of a journal that goes on is: its operation, which does not raise. -/
theorem call_going {call : Call D} (hopen : journal.manifest = none)
    (hfailed : (journal.call settings call).failed = none) :
    journal.failed = none ∧ journal.operation settings call = .ok (journal.call settings call) := by
  have hgoing : journal.failed = none := by
    by_contra hsome
    have hfailedNow : journal.failed.isSome := Option.isSome_iff_ne_none.mpr hsome
    rw [call_of_failed hfailedNow] at hfailed
    exact hsome hfailed
  refine ⟨hgoing, ?_⟩
  have hguard : ¬(journal.failed.isSome ∨ journal.manifest.isSome) := by simp [hgoing, hopen]
  rw [ShadowArbitrationJournal.call, if_neg hguard] at hfailed ⊢
  cases hoperation : journal.operation settings call with
  | ok next => rfl
  | error raised => simp [hoperation] at hfailed

omit [Sdk] [IntervalSdk] [StatusSdk] in
/-- A connection ends the gap that is open, which is kept unless it is empty. -/
theorem connect_ok {streamSessionId : String} {connectedAt : Instant}
    (h : connect settings streamSessionId connectedAt journal = .ok journal') :
    ∃ sessionIds firstConnectedAt gaps, journal' = { journal with
        sessionIds := sessionIds
        firstConnectedAt := firstConnectedAt
        openGap := none
        gaps := gaps } ∧
      (gaps = journal.gaps ∧ (∀ startedAt ∈ journal.openGap, startedAt = connectedAt) ∨
        ∃ startedAt ∈ journal.openGap, ∃ gap : StreamGap, gap.startedAt = startedAt ∧
          gap.endedAt = connectedAt ∧ gaps = journal.gaps ++ [gap]) := by
  simp only [connect, bind_eq_ok, require_eq_ok] at h
  obtain ⟨_, -, _, -, _, -, h⟩ := h
  unfold endGap at h
  cases hgap : journal.openGap with
  | none =>
      simp only [hgap, Except.ok.injEq] at h
      refine ⟨_, _, journal.gaps, h.symm, .inl ⟨rfl, ?_⟩⟩
      intro startedAt hmem
      cases hmem
  | some startedAt =>
      simp only [hgap, bind_eq_ok, require_eq_ok] at h
      obtain ⟨_, hordered, h⟩ := h
      by_cases hless : startedAt < connectedAt
      · rw [if_pos hless] at h
        simp only [bind_eq_ok, pure_eq_ok, StreamGap.modelValidate_eq_ok] at h
        obtain ⟨gap, ⟨hstarted, hended⟩, rfl⟩ := h
        exact ⟨_, _, _, rfl, .inr ⟨startedAt, rfl, gap, hstarted, hended, rfl⟩⟩
      · rw [if_neg hless, pure_eq_ok] at h
        refine ⟨_, _, journal.gaps, h.symm, .inl ⟨rfl, ?_⟩⟩
        intro found hmem
        obtain rfl : startedAt = found := Option.some.inj hmem
        exact le_antisymm hordered (not_lt.mp hless)

omit [Sdk] [IntervalSdk] [StatusSdk] in
theorem accept_ok {envelopes : List (StreamEnvelope D)}
    (h : envelopes.foldlM (accept settings) journal = .ok journal') :
    ∃ last, journal' = { journal with
      pending := journal.pending ++ envelopes
      lastIngestedAt := last } := by
  induction envelopes generalizing journal with
  | nil =>
      obtain rfl : journal = journal' := by simpa using h
      exact ⟨journal.lastIngestedAt, by simp⟩
  | cons envelope rest ih =>
      rw [List.foldlM_cons, bind_eq_ok] at h
      obtain ⟨next, hnext, hrest⟩ := h
      simp only [accept, bind_eq_ok, require_eq_ok, pure_eq_ok] at hnext
      obtain ⟨_, -, _, -, rfl⟩ := hnext
      obtain ⟨last, rfl⟩ := ih hrest
      exact ⟨last, by simp⟩

/-- What a call that advances does: it drives the machine with the gaps that it has noticed. -/
theorem advanceTo_drive {realtime : Bool} {cutoff : Instant} (call : Call D)
    {pump : Clocked.Pump (JournalEngines D) (StreamEnvelope D) (ClockRecord D) Instant}
    (hopen : journal.manifest = none) (hfollows : Follows journal pump)
    (h : advanceTo settings realtime cutoff (journal.noticing call) = .ok journal') :
    ∃ pump', (journalMachine settings).pump (·.receivedAt) pump
        (.advance ((journal.noticing call).gapAffected settings) cutoff) = .ok pump' ∧
      Follows journal' pump' ∧ SameSession (journal.noticing call) journal' ∧
      journal'.remaining = journal.remaining.dropWhile (· ≤ cutoff) := by
  have hnoticed : ∃ openGap, journal.noticing call = { journal with openGap := openGap } := by
    unfold noticing
    split
    · split
      · exact ⟨_, rfl⟩
      · exact ⟨journal.openGap, rfl⟩
    · exact ⟨journal.openGap, rfl⟩
  obtain ⟨openGap, hnoticed⟩ := hnoticed
  rw [hnoticed] at h ⊢
  obtain ⟨pump', hpump, hfollows', hsame, hleft⟩ :=
    advanceClocks_drive (show ({ journal with openGap := openGap } :
      ShadowArbitrationJournal D).remaining = journal.remaining from rfl) hopen
      hfollows.candidates hfollows.arbitrations h
  refine ⟨pump', ?_, hfollows', hsame, hleft⟩
  simp only [Clocked.pump, hfollows.clocks, hfollows.engines hopen, hfollows.pending hopen]
  exact hpump

omit [Sdk] [IntervalSdk] [StatusSdk] in
/-- A commit adds the manifest to a journal that has reached every clock. -/
theorem commit_ok {completedAt : Instant} {captureManifestUris : List CaptureUri}
    (h : commit settings completedAt captureManifestUris journal = .ok journal') :
    journal.remaining = [] ∧ ∃ manifest, journal' = { journal with manifest := some manifest } ∧
      ∃ firstConnectedAt, manifest.toShadowArbitrationManifestFields =
        journal.manifestFields settings firstConnectedAt completedAt captureManifestUris := by
  simp only [commit, bind_eq_ok, require_eq_ok] at h
  obtain ⟨_, hreached, h⟩ := h
  cases hfirst : journal.firstConnectedAt with
  | none => simp [hfirst] at h
  | some firstConnectedAt =>
      simp only [hfirst, ShadowArbitrationManifest.modelValidate, bind_eq_ok, validated_eq_ok,
        pure_eq_ok] at h
      obtain ⟨_, ⟨valid, rfl⟩, rfl⟩ := h
      exact ⟨hreached, _, rfl, firstConnectedAt, rfl⟩

/-! ### What a call does to the gaps -/

/-- A clock that the journal has decided. -/
def Decided (journal : ShadowArbitrationJournal D) (clock : Instant) : Prop :=
  ∃ before, journal.decisionTimes = before ++ journal.remaining ∧ clock ∈ before

/-- A connection, or the start of an outage, comes after the clocks that have been decided. -/
def Timely (journal : ShadowArbitrationJournal D) : Call D → Prop
  | .connected _ connectedAt => ∀ clock, journal.Decided clock → clock < connectedAt
  | .disconnected disconnectedAt true => ∀ clock, journal.Decided clock → clock < disconnectedAt
  | _ => True

/-- What a call does to the clocks and to what a gap affects. -/
structure Effect (settings : JournalSettings D) (journal : ShadowArbitrationJournal D)
    (call : Call D) (journal' : ShadowArbitrationJournal D) : Prop where
  decisionTimes : journal'.decisionTimes = journal.decisionTimes
  remaining : journal'.remaining = (call.cutoff settings).elim journal.remaining fun cutoff =>
    journal.remaining.dropWhile (· ≤ cutoff)
  noticed : call.cutoff settings ≠ none → ∀ clock ∈ journal.remaining,
    journal'.gapAffected settings clock = (journal.noticing call).gapAffected settings clock
  settled : journal.Timely call → ∀ clock, journal.Decided clock →
    journal'.gapAffected settings clock = journal.gapAffected settings clock

omit [Sdk] [IntervalSdk] [StatusSdk] in
theorem noticing_settled {call : Call D} {clock : Instant} (h : journal.Timely call)
    (hdecided : journal.Decided clock) :
    (journal.noticing call).gapAffected settings clock = journal.gapAffected settings clock := by
  cases call with
  | disconnected disconnectedAt unavailable =>
      by_cases hopens : unavailable = true ∧ journal.openGap = none
      · obtain ⟨rfl, hnone⟩ := hopens
        have hlater : ¬disconnectedAt ≤ clock := not_le.mpr (h clock hdecided)
        simp [noticing, gapAffected, hnone, hlater]
      · rw [noticing, if_neg hopens]
  | connected _ _ => rfl
  | ingest _ => rfl
  | advance _ => rfl
  | close _ _ => rfl

omit [Sdk] [IntervalSdk] [StatusSdk] in
/-- A connection leaves what affects the clocks before it. -/
theorem connect_settled {streamSessionId : String} {connectedAt clock : Instant}
    (h : connect settings streamSessionId connectedAt journal = .ok journal')
    (hclock : clock < connectedAt) :
    journal'.gapAffected settings clock = journal.gapAffected settings clock := by
  obtain ⟨_, _, gaps, rfl, hgaps⟩ := connect_ok h
  rcases hgaps with ⟨rfl, hempty⟩ | ⟨startedAt, hopen, gap, rfl, rfl, rfl⟩
  · cases hopen : journal.openGap with
    | none => simp [gapAffected, hopen]
    | some startedAt =>
        have hlater : ¬startedAt ≤ clock := by
          rw [hempty startedAt hopen]
          exact not_le.mpr hclock
        simp [gapAffected, hopen, hlater]
  · have hwarmup : clock < gap.endedAt + seconds settings.configuration.features.warmupSeconds := by
      have hpositive : (0 : Int) ≤ seconds settings.configuration.features.warmupSeconds := by
        simp only [seconds]
        omega
      exact hclock.trans_le (le_add_of_nonneg_right hpositive)
    rw [Option.mem_def] at hopen
    simp [gapAffected, MiniLakehouse.gapAffected, hopen, hwarmup, Bool.or_comm]

omit [Sdk] [IntervalSdk] [StatusSdk] in
theorem Effect.of_same {call : Call D} (hsame : SameSession (journal.noticing call) journal')
    (hremaining : journal'.remaining = (call.cutoff settings).elim journal.remaining
      fun cutoff => journal.remaining.dropWhile (· ≤ cutoff)) :
    Effect settings journal call journal' := by
  have htimes : (journal.noticing call).decisionTimes = journal.decisionTimes := by
    unfold noticing
    split
    · split <;> rfl
    · rfl
  refine ⟨hsame.decisionTimes.trans htimes, hremaining, ?_, ?_⟩
  · intro _ clock _
    rw [hsame.gapAffected]
  · intro htimely clock hdecided
    rw [hsame.gapAffected]
    exact noticing_settled htimely hdecided

/-- A journal that has closed is left as it is. -/
theorem call_of_closed (h : journal.manifest.isSome) (call : Call D) :
    journal.call settings call = journal := by
  rw [ShadowArbitrationJournal.call, if_pos (.inr h)]

/-- **One call** is what its event is to a pump. -/
theorem call_follows {call : Call D}
    {pump : Clocked.Pump (JournalEngines D) (StreamEnvelope D) (ClockRecord D) Instant}
    (hfollows : Follows journal pump) (hfailed : (journal.call settings call).failed = none) :
    ∃ pump', (event settings journal call).toList.foldlM
        ((journalMachine settings).pump (·.receivedAt)) pump = .ok pump' ∧
      Follows (journal.call settings call) pump' ∧
      Effect settings journal call (journal.call settings call) := by
  cases hmanifest : journal.manifest with
  | some manifest =>
      have hclosed : journal.manifest.isSome := by simp [hmanifest]
      rw [call_of_closed hclosed]
      have hreached := hfollows.reached hclosed
      have hclocks : pump.clocks = [] := hfollows.clocks.trans hreached
      have heffect : Effect settings journal call journal := by
        refine ⟨rfl, ?_, fun _ clock hclock => ?_, fun _ _ _ => rfl⟩
        · cases call.cutoff settings <;> simp [hreached]
        · rw [hreached] at hclock
          exact absurd hclock List.not_mem_nil
      have hkept : ∀ pump' : Clocked.Pump (JournalEngines D) (StreamEnvelope D) (ClockRecord D)
          Instant, pump'.clocks = [] → pump'.answers = pump.answers → Follows journal pump' := by
        intro pump' hclocks' hanswers
        refine ⟨?_, ?_, ?_, ?_, ?_, hfollows.reached, hfollows.committed⟩
        · rw [hclocks', hreached]
        · rw [hanswers]
          exact hfollows.candidates
        · rw [hanswers]
          exact hfollows.arbitrations
        · intro hnone
          simp [hmanifest] at hnone
        · intro hnone
          simp [hmanifest] at hnone
      cases call with
      | connected _ _ => exact ⟨pump, rfl, hfollows, heffect⟩
      | ingest envelopes =>
          exact ⟨pump, by simp [event, Clocked.pump, hclocks], hfollows, heffect⟩
      | advance observedAt =>
          refine ⟨⟨pump.state, [], [], pump.answers⟩, ?_, hkept _ rfl rfl, heffect⟩
          simp [event, Call.cutoff, Clocked.pump, hclocks, Clocked.drive]
      | disconnected disconnectedAt unavailable =>
          refine ⟨⟨pump.state, [], [], pump.answers⟩, ?_, hkept _ rfl rfl, heffect⟩
          simp [event, Call.cutoff, Clocked.pump, hclocks, Clocked.drive]
      | close observedAt captureManifestUris =>
          refine ⟨⟨pump.state, [], [], pump.answers⟩, ?_, hkept _ rfl rfl, heffect⟩
          simp [event, Call.cutoff, Clocked.pump, hclocks, Clocked.drive]
  | none =>
      obtain ⟨-, hoperation⟩ := call_going hmanifest hfailed
      cases call with
      | connected streamSessionId connectedAt =>
          have hconnect := leaving_eq_ok.mp hoperation
          have hsettled : ∀ clock < connectedAt, (journal.call settings
              (.connected streamSessionId connectedAt)).gapAffected settings clock =
              journal.gapAffected settings clock := fun clock => connect_settled hconnect
          obtain ⟨sessionIds, firstConnectedAt, gaps, hconnected, -⟩ := connect_ok hconnect
          refine ⟨pump, rfl, ?_, ?_, ?_, ?_, ?_⟩
          · rw [hconnected]
            exact ⟨hfollows.clocks, hfollows.candidates, hfollows.arbitrations, hfollows.engines,
              hfollows.pending, hfollows.reached, hfollows.committed⟩
          · rw [hconnected]
          · rw [hconnected]
            rfl
          · intro hcutoff
            exact absurd rfl hcutoff
          · exact fun htimely clock hdecided => hsettled clock (htimely clock hdecided)
      | ingest envelopes =>
          simp only [operation] at hoperation
          by_cases hreached : journal.remaining = []
          · rw [if_pos hreached, Except.ok.injEq] at hoperation
            rw [← hoperation]
            exact ⟨pump, by simp [event, Clocked.pump, hfollows.clocks, hreached], hfollows,
              .of_same (SameSession.refl journal) rfl⟩
          · rw [if_neg hreached] at hoperation
            obtain ⟨last, haccepted⟩ := accept_ok (leaving_eq_ok.mp hoperation)
            rw [haccepted]
            refine ⟨{ pump with pending := pump.pending ++ envelopes }, ?_, ?_, ?_⟩
            · simp [event, Clocked.pump, hfollows.clocks, hreached]
            · refine ⟨hfollows.clocks, hfollows.candidates, hfollows.arbitrations,
                hfollows.engines, ?_, hfollows.reached, hfollows.committed⟩
              intro hnone
              simp only [hfollows.pending hmanifest]
            · exact .of_same ⟨rfl, rfl, rfl, rfl, rfl⟩ rfl
      | advance observedAt =>
          obtain ⟨pump', hpump, hfollows', hsame, hleft⟩ := advanceTo_drive
            (.advance observedAt) hmanifest hfollows hoperation
          exact ⟨pump', by simpa [event, Call.cutoff] using hpump, hfollows', .of_same hsame hleft⟩
      | disconnected disconnectedAt unavailable =>
          obtain ⟨pump', hpump, hfollows', hsame, hleft⟩ := advanceTo_drive
            (.disconnected disconnectedAt unavailable) hmanifest hfollows hoperation
          exact ⟨pump', by simpa [event, Call.cutoff] using hpump, hfollows', .of_same hsame hleft⟩
      | close observedAt captureManifestUris =>
          simp only [operation, bind_eq_ok] at hoperation
          obtain ⟨advanced, hadvanced, hcommitted⟩ := hoperation
          obtain ⟨pump', hpump, hfollows', hsame, hleft⟩ := advanceTo_drive
            (.close observedAt captureManifestUris) hmanifest hfollows hadvanced
          have heffect : Effect settings journal (.close observedAt captureManifestUris)
              advanced := .of_same hsame hleft
          obtain ⟨hreached, manifest, hcommit, _, hfields⟩ :=
            commit_ok (leaving_eq_ok.mp hcommitted)
          refine ⟨pump', by simpa [event, Call.cutoff] using hpump, ?_, ?_⟩
          · rw [hcommit]
            refine ⟨hfollows'.clocks, hfollows'.candidates, hfollows'.arbitrations, ?_, ?_,
              fun _ => hreached, ?_⟩
            · intro hnone
              cases hnone
            · intro hnone
              cases hnone
            · intro found hfound
              obtain rfl : manifest = found := Option.some.inj hfound
              exact ⟨by rw [hfields]; rfl, by rw [hfields]; rfl, by rw [hfields]; rfl,
                by rw [hfields]; rfl⟩
          · rw [hcommit]
            exact ⟨heffect.decisionTimes, heffect.remaining, heffect.noticed, heffect.settled⟩

/-! ## Runs -/

theorem failed_of_run {call : Call D} {calls : List (Call D)}
    (h : (journal.run settings (call :: calls)).failed = none) :
    (journal.call settings call).failed = none := by
  by_contra hsome
  have hfailed : (journal.call settings call).failed.isSome := Option.isSome_iff_ne_none.mpr hsome
  have hrun : journal.run settings (call :: calls) = journal.call settings call :=
    run_of_failed hfailed calls
  rw [hrun] at h
  exact hsome h

/-- **A run of calls** is what its events are to a pump. -/
theorem run_follows {calls : List (Call D)}
    {pump : Clocked.Pump (JournalEngines D) (StreamEnvelope D) (ClockRecord D) Instant}
    (hfollows : Follows journal pump) (hfailed : (journal.run settings calls).failed = none) :
    ∃ pump', (events settings journal calls).foldlM
        ((journalMachine settings).pump (·.receivedAt)) pump = .ok pump' ∧
      Follows (journal.run settings calls) pump' := by
  induction calls generalizing journal pump with
  | nil => exact ⟨pump, rfl, hfollows⟩
  | cons call calls ih =>
      obtain ⟨next, hnext, hnextFollows, -⟩ := call_follows hfollows (failed_of_run hfailed)
      obtain ⟨final, hfinal, hfinalFollows⟩ := ih hnextFollows hfailed
      refine ⟨final, ?_, hfinalFollows⟩
      rw [events, List.foldlM_append, hnext]
      exact hfinal

/-- No envelope is handed over once a cutoff has passed its receipt. -/
def Punctual (settings : JournalSettings D) : List (Call D) → Prop
  | [] => True
  | call :: calls =>
      (∀ cutoff ∈ call.cutoff settings, ∀ envelope ∈ calls.flatMap Call.envelopes,
        cutoff < envelope.receivedAt) ∧ Punctual settings calls

theorem ingested_events (journal : ShadowArbitrationJournal D) (calls : List (Call D)) :
    Clocked.PumpEvent.ingested (events settings journal calls) =
      calls.flatMap Call.envelopes := by
  induction calls generalizing journal with
  | nil => rfl
  | cons call calls ih =>
      have hone : Clocked.PumpEvent.ingested (event settings journal call).toList =
          call.envelopes := by
        cases call <;>
          simp [event, Call.cutoff, Call.envelopes, Clocked.PumpEvent.ingested,
            Clocked.PumpEvent.inputs]
      rw [events, Clocked.PumpEvent.ingested, List.flatMap_append, List.flatMap_cons, ← hone,
        ← ih (journal.call settings call)]
      rfl

theorem punctual_events {calls : List (Call D)} (h : Punctual settings calls)
    (journal : ShadowArbitrationJournal D) :
    Clocked.PumpEvent.Punctual (·.receivedAt) (events settings journal calls) := by
  induction calls generalizing journal with
  | nil => exact trivial
  | cons call calls ih =>
      have hrest := ih h.2 (journal.call settings call)
      rw [events]
      cases call with
      | connected _ _ => exact hrest
      | ingest envelopes => exact hrest
      | advance observedAt =>
          refine ⟨fun envelope hmem => h.1 _ rfl envelope ?_, hrest⟩
          rw [← ingested_events (journal.call settings _) calls]
          exact hmem
      | disconnected disconnectedAt unavailable =>
          refine ⟨fun envelope hmem => h.1 _ rfl envelope ?_, hrest⟩
          rw [← ingested_events (journal.call settings _) calls]
          exact hmem
      | close observedAt captureManifestUris =>
          refine ⟨fun envelope hmem => h.1 _ rfl envelope ?_, hrest⟩
          rw [← ingested_events (journal.call settings _) calls]
          exact hmem

/-! ### Marks -/

/-- Every call of a run is timely when it comes. -/
def AllTimely (settings : JournalSettings D) : ShadowArbitrationJournal D → List (Call D) → Prop
  | _, [] => True
  | journal, call :: calls =>
      journal.Timely call ∧ AllTimely settings (journal.call settings call) calls

omit [Sdk] [IntervalSdk] [StatusSdk] in
theorem event_of_cutoff {call : Call D} {cutoff : Instant}
    (h : call.cutoff settings = some cutoff) :
    event settings journal call =
      some (.advance ((journal.noticing call).gapAffected settings) cutoff) := by
  cases call with
  | connected _ _ => cases h
  | ingest _ => cases h
  | advance observedAt =>
      simp only [Call.cutoff, Option.some.injEq] at h
      simp [event, Call.cutoff, h]
  | disconnected disconnectedAt unavailable =>
      simp only [Call.cutoff, Option.some.injEq] at h
      simp [event, Call.cutoff, h]
  | close observedAt captureManifestUris =>
      simp only [Call.cutoff, Option.some.injEq] at h
      simp [event, Call.cutoff, h]

omit [Sdk] [IntervalSdk] [StatusSdk] in
/-- The clocks up to the cutoff are decided by the call, and those before it stay decided. -/
theorem Effect.decided {call : Call D} (h : Effect settings journal call journal')
    {before : List Instant} (hsplit : journal.decisionTimes = before ++ journal.remaining) :
    ∃ taken, journal'.decisionTimes = (before ++ taken) ++ journal'.remaining ∧
      ∀ cutoff ∈ call.cutoff settings, taken = journal.remaining.takeWhile (· ≤ cutoff) := by
  have hremaining := h.remaining
  cases hcutoff : call.cutoff settings with
  | none =>
      rw [hcutoff, Option.elim_none] at hremaining
      refine ⟨[], by rw [h.decisionTimes, hremaining, List.append_nil, hsplit], ?_⟩
      intro cutoff hmem
      cases hmem
  | some cutoff =>
      rw [hcutoff, Option.elim_some] at hremaining
      refine ⟨journal.remaining.takeWhile (· ≤ cutoff), ?_, ?_⟩
      · rw [h.decisionTimes, hremaining, List.append_assoc, List.takeWhile_append_dropWhile, hsplit]
      · intro found hmem
        obtain rfl : cutoff = found := Option.some.inj hmem
        rfl

/-- **Marks.**  In a timely run every clock is decided with the mark that the journal gives it
in the end. -/
theorem reads_events {calls : List (Call D)} {before : List Instant}
    {pump : Clocked.Pump (JournalEngines D) (StreamEnvelope D) (ClockRecord D) Instant}
    (hsplit : journal.decisionTimes = before ++ journal.remaining)
    (hfollows : Follows journal pump) (hfailed : (journal.run settings calls).failed = none)
    (htimely : AllTimely settings journal calls) :
    (journalMachine settings).Reads (·.receivedAt)
        ((journal.run settings calls).gapAffected settings) pump (events settings journal calls) ∧
      ∀ clock ∈ before, (journal.run settings calls).gapAffected settings clock =
        journal.gapAffected settings clock := by
  induction calls generalizing journal before pump with
  | nil => exact ⟨trivial, fun _ _ => rfl⟩
  | cons call calls ih =>
      obtain ⟨next, hnext, hnextFollows, heffect⟩ := call_follows hfollows (failed_of_run hfailed)
      obtain ⟨taken, hnextSplit, htaken⟩ := heffect.decided hsplit
      obtain ⟨hreads, hsettled⟩ := ih hnextSplit hnextFollows hfailed htimely.2
      have hrun : journal.run settings (call :: calls) =
          (journal.call settings call).run settings calls := rfl
      rw [hrun]
      refine ⟨?_, ?_⟩
      · rw [events]
        cases hcutoff : call.cutoff settings with
        | some cutoff =>
            rw [event_of_cutoff hcutoff] at hnext ⊢
            have hpump : (journalMachine settings).pump (·.receivedAt) pump (.advance
                ((journal.noticing call).gapAffected settings) cutoff) = .ok next := by
              simpa using hnext
            refine ⟨?_, ?_⟩
            · intro clock hclock
              rw [hfollows.clocks] at hclock
              have hin : clock ∈ journal.remaining := (List.takeWhile_sublist _).subset hclock
              rw [hsettled clock (List.mem_append_right _ (htaken cutoff hcutoff ▸ hclock))]
              exact (heffect.noticed (by simp [hcutoff]) clock hin).symm
            · intro found hfound
              obtain rfl := Except.ok.inj (hpump.symm.trans hfound)
              exact hreads
        | none =>
            cases call with
            | connected _ _ =>
                obtain rfl : pump = next := by simpa [event] using hnext
                exact hreads
            | ingest envelopes =>
                intro found hfound
                have hpump : (journalMachine settings).pump (·.receivedAt) pump
                    (.ingest envelopes) = .ok next := by simpa [event] using hnext
                obtain rfl := Except.ok.inj (hpump.symm.trans hfound)
                exact hreads
            | advance _ => cases hcutoff
            | disconnected _ _ => cases hcutoff
            | close _ _ => cases hcutoff
      · intro clock hclock
        rw [hsettled clock (List.mem_append_left _ hclock)]
        exact heffect.settled htimely.1 clock ⟨before, hsplit, hclock⟩

end ShadowArbitrationJournal

open ShadowArbitrationJournal

variable {settings : JournalSettings D} {start : ShadowArbitrationJournal D}

/-- What a journal starts as. -/
theorem init_ok (h : ShadowArbitrationJournal.init settings = .ok start) :
    ∃ contextEngine times, LiveDecisionContextEngine.init settings.toContextSettings =
        .ok contextEngine ∧
      decisionTimes settings.configuration settings.tradeDate = .ok times ∧
      start.engines = opening settings contextEngine ∧ start.decisionTimes = times ∧
      start.remaining = times ∧ start.pending = [] ∧ start.candidates = [] ∧
      start.arbitrations = [] ∧ start.failed = none ∧ start.manifest = none := by
  simp only [ShadowArbitrationJournal.init, bind_eq_ok, require_eq_ok, pure_eq_ok] at h
  obtain ⟨_, -, _, -, _, -, contextEngine, hcontext, times, htimes, _, -, rfl⟩ := h
  exact ⟨contextEngine, times, hcontext, htimes, rfl, rfl, rfl, rfl, rfl, rfl, rfl, rfl⟩

section

variable [Sdk] [IntervalSdk] [StatusSdk]

/-- **A closed journal is a replay.**  Whatever the batches in which a journal takes in the
envelopes, however often it is advanced and across all reconnects: once it has closed without
failing, its records are those of one replay of all envelopes over all clocks, each marked as
the journal's gaps mark it. -/
theorem closed_journal_replays {calls : List (Call D)}
    (hinit : ShadowArbitrationJournal.init settings = .ok start)
    (hpunctual : Punctual settings calls) (htimely : AllTimely settings start calls)
    (hfailed : (start.run settings calls).failed = none)
    (hclosed : (start.run settings calls).manifest.isSome) :
    ∃ contextEngine times records,
      LiveDecisionContextEngine.init settings.toContextSettings = .ok contextEngine ∧
      decisionTimes settings.configuration settings.tradeDate = .ok times ∧
      (journalMachine settings).replay (·.receivedAt) (opening settings contextEngine)
        (calls.flatMap Call.envelopes)
        (Clocked.marked ((start.run settings calls).gapAffected settings) times) = .ok records ∧
      (start.run settings calls).candidates = records.flatMap (·.1.2) ∧
      (start.run settings calls).arbitrations = records.flatMap (·.2) ∧
      ∀ manifest ∈ (start.run settings calls).manifest, Commits manifest
        (records.flatMap (·.1.2)) (records.flatMap (·.2)) := by
  obtain ⟨contextEngine, times, hcontext, htimes, hengines, hdecision, hremaining, hpending,
    hcandidates, harbitrations, -, hopen⟩ := init_ok hinit
  have hfollows : ShadowArbitrationJournal.Follows start ⟨opening settings contextEngine, [], times, []⟩ := by
    refine ⟨hremaining.symm, hcandidates, harbitrations, fun _ => hengines.symm,
      fun _ => hpending.symm, fun hmanifest => ?_, fun manifest hmanifest => ?_⟩
    · simp [hopen] at hmanifest
    · simp [hopen] at hmanifest
  have hsplit : start.decisionTimes = [] ++ start.remaining := by
    rw [hdecision, hremaining, List.nil_append]
  obtain ⟨pump, hpump, hend⟩ := run_follows hfollows hfailed
  obtain ⟨hreads, -⟩ := reads_events hsplit hfollows hfailed htimely
  have hdone : pump.clocks = [] := hend.clocks.trans (hend.reached hclosed)
  have hreplay := Clocked.pump_replay (punctual_events hpunctual start) hreads hpump hdone
  rw [ingested_events, Clocked.outlook, bind_eq_ok] at hreplay
  obtain ⟨records, hrecords, hanswers⟩ := hreplay
  have hsame : records = pump.answers := by simpa [pure_eq_ok] using hanswers
  have hwritten : (start.run settings calls).candidates = records.flatMap (·.1.2) := by
    rw [hsame]
    exact hend.candidates
  have hresults : (start.run settings calls).arbitrations = records.flatMap (·.2) := by
    rw [hsame]
    exact hend.arbitrations
  refine ⟨contextEngine, times, records, hcontext, htimes, by simpa using hrecords, hwritten,
    hresults, ?_⟩
  rw [← hwritten, ← hresults]
  exact hend.committed

/-- **An audit finds what a journal has written**, once it completes its replay with gaps that
affect the clocks that the journal's gaps affect. -/
theorem closed_journal_audited {calls : List (Call D)} {gaps : List StreamGap}
    {shadow : List (BaselineCandidate D) × List (CandidateArbitration D)}
    (hinit : ShadowArbitrationJournal.init settings = .ok start)
    (hpunctual : Punctual settings calls) (htimely : AllTimely settings start calls)
    (hfailed : (start.run settings calls).failed = none)
    (hclosed : (start.run settings calls).manifest.isSome)
    (hgaps : ∀ clock ∈ start.decisionTimes, gapAffected settings.configuration gaps clock =
      (start.run settings calls).gapAffected settings clock)
    (haudit : replayShadow settings (calls.flatMap Call.envelopes) gaps = .ok shadow) :
    (start.run settings calls).candidates = shadow.1 ∧
      (start.run settings calls).arbitrations = shadow.2 ∧
      ∀ manifest ∈ (start.run settings calls).manifest, Commits manifest shadow.1 shadow.2 := by
  obtain ⟨contextEngine, times, records, hcontext, htimes, hreplay, hwritten, hresults,
    hcommits⟩ := closed_journal_replays hinit hpunctual htimely hfailed hclosed
  obtain ⟨times', contextEngine', records', htimes', hcontext', -, hreplay', rfl⟩ :=
    replayShadow_replay haudit
  obtain rfl := Except.ok.inj (htimes.symm.trans htimes')
  obtain rfl := Except.ok.inj (hcontext.symm.trans hcontext')
  obtain ⟨_, _, _, hfound, _, hdecision, _⟩ := init_ok hinit
  obtain rfl := Except.ok.inj (htimes.symm.trans hfound)
  have hmarks : Clocked.marked (gapAffected settings.configuration gaps) times =
      Clocked.marked ((start.run settings calls).gapAffected settings) times := by
    apply List.map_congr_left
    intro clock hclock
    rw [hgaps clock (hdecision ▸ hclock)]
  rw [hmarks] at hreplay'
  obtain rfl := Except.ok.inj (hreplay.symm.trans hreplay')
  exact ⟨hwritten, hresults, hcommits⟩

end

namespace Rehearsal

/-- One session, whose quotes come in two batches with the journal advanced in between. -/
def shortCalls : List (Call Spelled) :=
  [.connected "session-1" (20700 * dayLength + seconds 8100),
    .ingest (shortCapture.take 1),
    .advance (20700 * dayLength + seconds 8195),
    .ingest (shortCapture.drop 1),
    .disconnected (20700 * dayLength + seconds 8400) false,
    .close (20700 * dayLength + seconds 8401) [.manifest "landing" 20700 "session-1"]]

def shortStart : Except Raised (ShadowArbitrationJournal Spelled) :=
  ShadowArbitrationJournal.init shortSettings

/-- The journal after the calls. -/
def shortRun (start : ShadowArbitrationJournal Spelled) : ShadowArbitrationJournal Spelled :=
  letI := quoteSdk
  letI := intervalSdk
  letI := statusSdk
  start.run shortSettings shortCalls

/-- The journal closes, without a gap, with the records of its only clock. -/
private def journalRehearsal : Bool :=
  shortStart.toOption.any fun start =>
    (shortRun start).failed.isNone && (shortRun start).manifest.isSome &&
      (shortRun start).openGap.isNone && (shortRun start).gaps.isEmpty

private theorem journalRehearsal_holds : journalRehearsal = true := by decide +kernel

theorem shortCalls_envelopes : shortCalls.flatMap Call.envelopes = shortCapture := by
  simp only [shortCalls, Call.envelopes, List.flatMap_cons, List.flatMap_nil, List.nil_append,
    List.append_nil]
  exact List.take_append_drop 1 shortCapture

theorem shortCalls_punctual : Punctual shortSettings shortCalls := by
  have hsecond : ∀ envelope ∈ shortCapture.drop 1,
      (20700 * dayLength + seconds 8195 - seconds 60 : Int) < envelope.receivedAt := by
    intro envelope hmem
    obtain rfl := List.mem_singleton.mp hmem
    decide
  refine ⟨fun cutoff h => ?_, fun cutoff h => ?_, ?_, fun cutoff h => ?_, ?_, ?_, trivial⟩
  · cases h
  · cases h
  · intro cutoff h envelope hmem
    obtain rfl := Option.some.inj h
    exact hsecond envelope (by simpa [Call.envelopes] using hmem)
  · cases h
  · intro _ _ envelope hmem
    simp [Call.envelopes] at hmem
  · intro _ _ envelope hmem
    cases hmem

end Rehearsal

open Rehearsal in
/-- The rehearsed journal, handed its quotes in two batches, and the audit of its capture. -/
theorem closed_journal_audited_rehearsal : ∃ start shadow,
    shortStart = .ok start ∧ shortShadow shortCapture = .ok shadow ∧
      (shortRun start).candidates = shadow.1 ∧ (shortRun start).arbitrations = shadow.2 ∧
      shadow.1.length = 6 ∧ shadow.2.length = 6 := by
  have hrehearsal := journalRehearsal_holds
  have hreplayed := shadowRehearsal_holds
  simp only [journalRehearsal, shadowRehearsal, Option.any_eq_true, Option.isSome_iff_exists,
    Bool.and_eq_true, beq_iff_eq, Option.isNone_iff_eq_none, List.isEmpty_iff]
    at hrehearsal hreplayed
  obtain ⟨start, hstart, ⟨⟨hfailed, hclosed⟩, hopen⟩, hnone⟩ := hrehearsal
  obtain ⟨⟨shadow, hshadow, hcandidates, harbitrations⟩, -⟩ := hreplayed
  have hinit := toOption_eq_some.mp hstart
  have haudit := toOption_eq_some.mp hshadow
  obtain ⟨_, _, _, _, _, hdecision, hremaining, _⟩ := init_ok hinit
  have htimely : letI := quoteSdk
      letI := intervalSdk
      letI := statusSdk
      AllTimely shortSettings start shortCalls := by
    refine ⟨?_, trivial, trivial, trivial, trivial, trivial, trivial⟩
    intro clock hdecided
    obtain ⟨before, hsplit, hclock⟩ := hdecided
    rw [hdecision, hremaining] at hsplit
    obtain rfl : before = [] := by simpa using hsplit
    cases hclock
  have hgaps : ∀ clock ∈ start.decisionTimes, gapAffected shortSettings.configuration [] clock =
      (shortRun start).gapAffected shortSettings clock := by
    intro clock _
    simp [ShadowArbitrationJournal.gapAffected, hopen, hnone]
  obtain ⟨hwritten, hresults, -⟩ :=
    @closed_journal_audited Spelled _ shortSettings start quoteSdk intervalSdk statusSdk
      shortCalls [] shadow hinit shortCalls_punctual htimely hfailed
      (Option.isSome_iff_exists.mpr hclosed) hgaps (shortCalls_envelopes ▸ haudit)
  exact ⟨start, shadow, hinit, haudit, hwritten, hresults, hcandidates, harbitrations⟩

end MiniLakehouse
