import MiniLakehouse.Arbitration.Engine
import MiniLakehouse.Arbitration.Selection
import MiniLakehouse.Context.Engine
import MiniLakehouse.Strategy.Baselines

/-!
# Shadow arbitration journal

`ShadowArbitrationJournal` (`arbitration/journal.py`): it observes captured envelopes and writes
the candidates and arbitrations of each decision clock once a watermark has passed the clock.
An operation that raises leaves a journal that has failed and does nothing any more.  The
output files are the records that they hold; a decision that raises has written what it had
written by then.
-/

namespace MiniLakehouse

variable {D : Type} [Hashing D]

/-! ## Manifest -/

/-- A capture manifest's URI, read as what it spells. -/
inductive CaptureUri where
  /-- `s3://bucket/…/trade_date=…/…/session=…/manifest.json` -/
  | manifest (bucket : String) (tradeDate : Day) (streamSessionId : String)
  | other (text : String)
  deriving DecidableEq

structure ShadowArbitrationManifestFields (D : Type) where
  tradeDate : Day
  firstConnectedAt : Instant
  completedAt : Instant
  streamSessionIds : List String
  captureManifestUris : List CaptureUri
  configurationVersion : String
  configurationSha256 : D
  featureVersion : String
  contextVersion : String
  contextConfigurationSha256 : D
  baselineVersion : String
  arbitrationVersion : String
  arbitrationConfigurationSha256 : D
  expectedCandidateCount : Nat
  candidateCount : Nat
  candidateSha256 : D
  expectedArbitrationCount : Nat
  arbitrationCount : Nat
  arbitrationSha256 : D

namespace ShadowArbitrationManifestFields

omit [Hashing D] in
/-- The URI of a session's manifest on the journal's date. -/
def namesSession (fields : ShadowArbitrationManifestFields D) (streamSessionId : String) :
    CaptureUri → Bool
  | .manifest bucket tradeDate session =>
      bucket != "" && tradeDate == fields.tradeDate && session == streamSessionId
  | .other _ => false

omit [Hashing D] in
/-- `ShadowArbitrationManifest.validate_manifest` with the field constraints; the names of the
output files are left out. -/
def checks (fields : ShadowArbitrationManifestFields D) : List (Check Raised) :=
  [⟨isVersionName fields.configurationVersion, .fieldError "configuration_version"⟩,
    ⟨isVersionName fields.featureVersion, .fieldError "feature_version"⟩,
    ⟨isVersionName fields.contextVersion, .fieldError "context_version"⟩,
    ⟨isVersionName fields.baselineVersion, .fieldError "baseline_version"⟩,
    ⟨isVersionName fields.arbitrationVersion, .fieldError "arbitration_version"⟩,
    ⟨1 ≤ fields.expectedCandidateCount, .fieldError "expected_candidate_count"⟩,
    ⟨1 ≤ fields.candidateCount, .fieldError "candidate_count"⟩,
    ⟨1 ≤ fields.expectedArbitrationCount, .fieldError "expected_arbitration_count"⟩,
    ⟨1 ≤ fields.arbitrationCount, .fieldError "arbitration_count"⟩,
    ⟨fields.firstConnectedAt ≤ fields.completedAt,
      .valueError "shadow journal timestamps are not ordered"⟩,
    ⟨fields.streamSessionIds != [] && decide fields.streamSessionIds.Nodup &&
        fields.captureManifestUris.length == fields.streamSessionIds.length,
      .valueError "shadow journal capture sessions are inconsistent"⟩,
    ⟨(fields.streamSessionIds.zip fields.captureManifestUris).all fun session =>
        fields.namesSession session.1 session.2,
      .valueError "shadow journal capture manifest lineage is inconsistent"⟩,
    ⟨fields.candidateCount == fields.expectedCandidateCount,
      .valueError "shadow candidate summary is inconsistent"⟩,
    ⟨fields.arbitrationCount == fields.expectedArbitrationCount,
      .valueError "shadow arbitration summary is inconsistent"⟩]

end ShadowArbitrationManifestFields

/-- Commit marker of one complete journal. -/
structure ShadowArbitrationManifest (D : Type) extends ShadowArbitrationManifestFields D where
  valid : AllHold toShadowArbitrationManifestFields.checks

def ShadowArbitrationManifest.modelValidate (fields : ShadowArbitrationManifestFields D) :
    Except Raised (ShadowArbitrationManifest D) :=
  validated fields.checks fun valid => ⟨fields, valid⟩

/-! ## Journal -/

/-- What `ShadowArbitrationJournal.__init__` is given.  `onSelection` is the consumer of
realtime selections; it is false of a selection for which it raises. -/
structure JournalSettings (D : Type) [Hashing D] extends ContextSettings D where
  tradeDate : Day
  arbitrationPolicy : CandidateArbitrationVersion
  onSelection : Option (SelectedEvidence D → Bool)

/-- `ShadowArbitrationJournal`.  `remaining` are the decision times from `_next_decision` on,
`candidates` and `arbitrations` the records of the two streams, `handed` the selections that
the consumer was called with. -/
structure ShadowArbitrationJournal (D : Type) [Hashing D] where
  decisionTimes : List Instant
  remaining : List Instant
  featureEngine : FeatureEngine
  contextEngine : LiveDecisionContextEngine D
  arbitrator : CandidateArbitrator D
  pending : List (StreamEnvelope D)
  featureHistory : List (FeatureSnapshot D)
  lastIngestedAt : Option Instant
  openGap : Option Instant
  gaps : List StreamGap
  sessionIds : List String
  firstConnectedAt : Option Instant
  candidates : List (BaselineCandidate D)
  arbitrations : List (CandidateArbitration D)
  selecting : Bool
  handed : List (SelectedEvidence D)
  failed : Option Raised
  manifest : Option (ShadowArbitrationManifest D)

/-- An operation inside `_safe`: where it raises, with the journal that it leaves behind. -/
abbrev JournalAttempt (D : Type) [Hashing D] :=
  Except (Raised × ShadowArbitrationJournal D) (ShadowArbitrationJournal D)

namespace ShadowArbitrationJournal

/-- What raises inside an operation leaves the journal as it is. -/
def leaving {α : Type} (journal : ShadowArbitrationJournal D) (result : Except Raised α) :
    Except (Raised × ShadowArbitrationJournal D) α :=
  result.mapError fun raised => (raised, journal)

variable (settings : JournalSettings D)

/-- `ShadowArbitrationJournal.__init__`, the checks of its output paths apart. -/
def init : Except Raised (ShadowArbitrationJournal D) := do
  let market := settings.configuration.market
  require (settings.policy.contains settings.tradeDate)
    (Raised.valueError "shadow context policy does not cover the trade date")
  require (∀ symbol, symbol ∈ market.symbols ++ ["VIC", "VHM"] →
      symbol ∈ market.symbols ∧ (symbol = "VIC" ∨ symbol = "VHM"))
    (Raised.valueError "shadow buy-first baselines require exactly VIC and VHM")
  require (settings.arbitrationPolicy.contains settings.tradeDate ∧
      settings.arbitrationPolicy.candidateVersion = baselineVersion)
    (Raised.valueError "shadow arbitration policy does not cover the candidate stream")
  let contextEngine ← LiveDecisionContextEngine.init settings.toContextSettings
  let times ← MiniLakehouse.decisionTimes settings.configuration settings.tradeDate
  require (times ≠ []) (Raised.valueError "shadow journal configuration has no decision clocks")
  return {
    decisionTimes := times
    remaining := times
    featureEngine := .initial settings.configuration
    contextEngine := contextEngine
    arbitrator := .new settings.arbitrationPolicy
    pending := []
    featureHistory := []
    lastIngestedAt := none
    openGap := none
    gaps := []
    sessionIds := []
    firstConnectedAt := none
    candidates := []
    arbitrations := []
    selecting := settings.onSelection.isSome
    handed := []
    failed := none
    manifest := none }

/-- `_gap_affected` -/
def gapAffected (journal : ShadowArbitrationJournal D) (decisionAt : Instant) : Bool :=
  journal.openGap.any (· ≤ decisionAt) ||
    MiniLakehouse.gapAffected settings.configuration journal.gaps decisionAt

/-! ### Decisions -/

/-- The selection that a selected arbitration is handed over as. -/
def selection (snapshots history : List (FeatureSnapshot D)) (context : DecisionContext D)
    (candidates : List (BaselineCandidate D)) (decisionAt : Instant)
    (arbitration : CandidateArbitration D) : Except Raised (SelectedEvidence D) :=
  -- The last candidate of a digest is the one that the dictionary keeps.
  match candidates.reverse.find? (·.sha256 = arbitration.candidateSha256) with
  | none => .error (.lookupError "candidate_sha256")
  | some candidate => SelectedEvidence.modelValidate {
      candidate := candidate
      arbitration := arbitration
      context := context
      features := snapshots.filter fun item => item.sha256 = candidate.featureSnapshotSha256 ∨
        candidate.peerFeatureSnapshotSha256 = some item.sha256
      laggedPeer :=
        if candidate.strategy = .vicVhmRelative then
          history.find? fun item =>
            item.symbol ≠ candidate.symbol ∧ item.decisionAt = decisionAt - relativePeerLag
        else none }

/-- The loop over the arbitrations of a clock; a handoff that raises is the last one. -/
def handOff (accepts : SelectedEvidence D → Bool)
    (select : CandidateArbitration D → Except Raised (SelectedEvidence D)) :
    ShadowArbitrationJournal D → List (CandidateArbitration D) → ShadowArbitrationJournal D
  | journal, [] => journal
  | journal, arbitration :: rest =>
      if arbitration.status ≠ .selected then handOff accepts select journal rest
      else
        match select arbitration with
        | .error _ => { journal with selecting := false }
        | .ok evidence =>
            let called := { journal with handed := journal.handed ++ [evidence] }
            if accepts evidence then handOff accepts select called rest
            else { called with selecting := false }

/-- Both engines take in an envelope, the features first. -/
def applyEnvelope [Sdk] [IntervalSdk] [StatusSdk]
    (engines : FeatureEngine × LiveDecisionContextEngine D) (envelope : StreamEnvelope D) :
    Except Raised (FeatureEngine × LiveDecisionContextEngine D) := do
  let (update, featureEngine) := engines.1.apply settings.configuration envelope
  let _ ← update
  let contextEngine ← engines.2.apply settings.toContextSettings envelope
  return (featureEngine, contextEngine)

/-- The loop of `_apply_until`. -/
def applyPending [Sdk] [IntervalSdk] [StatusSdk] (cutoff : Instant) :
    FeatureEngine × LiveDecisionContextEngine D → List (StreamEnvelope D) →
    Except Raised ((FeatureEngine × LiveDecisionContextEngine D) × List (StreamEnvelope D))
  | engines, [] => .ok (engines, [])
  | engines, envelope :: rest =>
      if envelope.receivedAt ≤ cutoff then
        applyEnvelope settings engines envelope >>= fun engines => applyPending cutoff engines rest
      else .ok (engines, envelope :: rest)

/-- The history that a decision still looks back to. -/
def recentHistory (history : List (FeatureSnapshot D)) (decisionAt : Instant) :
    List (FeatureSnapshot D) :=
  history.dropWhile (·.decisionAt < decisionAt - relativePeerLag)

variable [Sdk] [IntervalSdk] [StatusSdk]

/-- One decision of `_advance`; `rest` are the clocks after it. -/
def decideAt (realtime : Bool) (decisionAt : Instant) (rest : List Instant)
    (journal : ShadowArbitrationJournal D) : JournalAttempt D := do
  let ((featureEngine, contextEngine), pending) ← journal.leaving
    (applyPending settings decisionAt (journal.featureEngine, journal.contextEngine)
      journal.pending)
  let (current, featureEngine) ← journal.leaving
    (featureEngine.snapshots settings.configuration decisionAt)
  let snapshots :=
    if journal.gapAffected settings decisionAt then current.map (·.noteGap) else current
  let (contextEngine, context) ← journal.leaving
    (contextEngine.build settings.toContextSettings snapshots)
  let history := recentHistory journal.featureHistory decisionAt
  let candidates ← journal.leaving (scoreBuyFirstBaselines snapshots [context] history)
  let written := { journal with candidates := journal.candidates ++ candidates }
  let (result, arbitrator) := journal.arbitrator.decide candidates
  let arbitrations ← written.leaving result
  let decided := { written with
    remaining := rest
    featureEngine := featureEngine
    contextEngine := contextEngine
    arbitrator := arbitrator
    pending := pending
    featureHistory := history ++ snapshots
    arbitrations := journal.arbitrations ++ arbitrations }
  match settings.onSelection with
  | none => return decided
  | some accepts =>
      if realtime ∧ journal.selecting ∧ context.selectionBlockReason true = none then
        return decided.handOff accepts (selection snapshots history context candidates decisionAt)
          arbitrations
      else return decided

/-- `_advance`, by the clocks that are left. -/
def advanceClocks (realtime : Bool) (cutoff : Instant) :
    List Instant → ShadowArbitrationJournal D → JournalAttempt D
  | [], journal => .ok { journal with pending := [] }
  | clock :: rest, journal =>
      if clock ≤ cutoff then
        decideAt settings realtime clock rest journal >>= fun journal =>
          advanceClocks realtime cutoff rest journal
      else do
        let ((featureEngine, contextEngine), pending) ← journal.leaving
          (applyPending settings cutoff (journal.featureEngine, journal.contextEngine)
            journal.pending)
        return { journal with
          featureEngine := featureEngine
          contextEngine := contextEngine
          pending := pending }

/-- `_advance` -/
def advanceTo (realtime : Bool) (cutoff : Instant) (journal : ShadowArbitrationJournal D) :
    JournalAttempt D :=
  advanceClocks settings realtime cutoff journal.remaining journal

/-! ### Operations -/

/-- What a journal is called with. -/
inductive Call (D : Type) where
  | connected (streamSessionId : String) (connectedAt : Instant)
  | ingest (envelopes : List (StreamEnvelope D))
  | advance (observedAt : Instant)
  | disconnected (disconnectedAt : Instant) (unavailable : Bool)
  | close (observedAt : Instant) (captureManifestUris : List CaptureUri)

/-- The gap that a connection ends. -/
def endGap (journal : ShadowArbitrationJournal D) (observedAt : Instant) :
    Except Raised (ShadowArbitrationJournal D) :=
  match journal.openGap with
  | none => .ok journal
  | some startedAt => do
      require (startedAt ≤ observedAt)
        (Raised.valueError "shadow journal connection timestamps are not ordered")
      let ended := { journal with openGap := none }
      if startedAt < observedAt then
        let gap ← StreamGap.modelValidate startedAt observedAt
        return { ended with gaps := journal.gaps ++ [gap] }
      else return ended

/-- The operation of `connected`. -/
def connect (streamSessionId : String) (observedAt : Instant)
    (journal : ShadowArbitrationJournal D) : Except Raised (ShadowArbitrationJournal D) := do
  require (streamSessionId ≠ "" ∧ streamSessionId ∉ journal.sessionIds)
    (Raised.valueError "shadow journal stream session identifier is invalid")
  require (settings.configuration.market.timezone.date observedAt = settings.tradeDate)
    (Raised.valueError "shadow journal connection falls outside its market date")
  require (journal.firstConnectedAt.isSome ∨ ∀ first ∈ journal.decisionTimes.head?,
      observedAt ≤ first)
    (Raised.valueError "shadow journal started after its first decision clock")
  let connected := { journal with
    firstConnectedAt := some (journal.firstConnectedAt.getD observedAt)
    sessionIds := journal.sessionIds ++ [streamSessionId] }
  connected.endGap observedAt

omit [Sdk] [IntervalSdk] [StatusSdk] in
/-- One envelope of the operation of `ingest`. -/
def accept (journal : ShadowArbitrationJournal D) (envelope : StreamEnvelope D) :
    Except Raised (ShadowArbitrationJournal D) := do
  require (journal.lastIngestedAt.all (· ≤ envelope.receivedAt))
    (Raised.valueError "shadow journal envelopes must be receipt ordered")
  require (settings.configuration.market.timezone.date envelope.receivedAt = settings.tradeDate)
    (Raised.valueError "shadow journal envelope falls outside its market date")
  return { journal with
    pending := journal.pending ++ [envelope]
    lastIngestedAt := some envelope.receivedAt }

/-- The manifest of a journal that has reached every clock. -/
def manifestFields (journal : ShadowArbitrationJournal D) (firstConnectedAt completedAt : Instant)
    (captureManifestUris : List CaptureUri) : ShadowArbitrationManifestFields D :=
  let expected := journal.decisionTimes.length * settings.configuration.market.symbols.length *
    baselineNames.length
  { tradeDate := settings.tradeDate
    firstConnectedAt := firstConnectedAt
    completedAt := completedAt
    streamSessionIds := journal.sessionIds
    captureManifestUris := captureManifestUris
    configurationVersion := settings.configuration.version
    configurationSha256 := settings.configuration.sha256
    featureVersion := settings.configuration.features.version
    contextVersion := settings.policy.version
    contextConfigurationSha256 := journal.contextEngine.configurationSha256
    baselineVersion := baselineVersion
    arbitrationVersion := settings.arbitrationPolicy.version
    arbitrationConfigurationSha256 := settings.arbitrationPolicy.sha256
    expectedCandidateCount := expected
    candidateCount := journal.candidates.length
    candidateSha256 := sha256 (.list (fun candidate => candidate.modelDump) journal.candidates)
    expectedArbitrationCount := expected
    arbitrationCount := journal.arbitrations.length
    arbitrationSha256 :=
      sha256 (.list (fun arbitration => arbitration.modelDump) journal.arbitrations) }

/-- `close` once the clocks have been advanced to its instant. -/
def commit (completedAt : Instant) (captureManifestUris : List CaptureUri)
    (journal : ShadowArbitrationJournal D) : Except Raised (ShadowArbitrationJournal D) := do
  require (journal.remaining = [])
    (Raised.valueError "shadow journal did not reach every configured decision clock")
  match journal.firstConnectedAt with
  | none => throw (.valueError "shadow journal has no connected capture session")
  | some firstConnectedAt => do
      let manifest ← ShadowArbitrationManifest.modelValidate
        (journal.manifestFields settings firstConnectedAt completedAt captureManifestUris)
      return { journal with manifest := some manifest }

/-- The operation of a call. -/
def operation (journal : ShadowArbitrationJournal D) : Call D → JournalAttempt D
  | .connected streamSessionId connectedAt =>
      journal.leaving (connect settings streamSessionId connectedAt journal)
  | .ingest envelopes =>
      if journal.remaining = [] then .ok journal
      else journal.leaving (envelopes.foldlM (accept settings) journal)
  | .advance observedAt =>
      advanceTo settings true
        (observedAt - seconds settings.configuration.features.cadenceSeconds) journal
  | .disconnected disconnectedAt unavailable =>
      let opened := if unavailable ∧ journal.openGap = none then
          { journal with openGap := some disconnectedAt }
        else journal
      advanceTo settings false disconnectedAt opened
  | .close observedAt captureManifestUris => do
      let journal ← advanceTo settings false observedAt journal
      journal.leaving (commit settings observedAt captureManifestUris journal)

/-- `_safe`: an operation that raises makes the journal fail, and one that has failed or has
been closed does nothing. -/
def call (journal : ShadowArbitrationJournal D) (call : Call D) : ShadowArbitrationJournal D :=
  if journal.failed.isSome ∨ journal.manifest.isSome then journal
  else
    match journal.operation settings call with
    | .ok next => next
    | .error (raised, left) => { left with failed := some raised }

end ShadowArbitrationJournal

end MiniLakehouse
