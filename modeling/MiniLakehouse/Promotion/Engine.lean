import MiniLakehouse.Promotion.Evidence
import MiniLakehouse.Numeric

/-!
# Promotion evaluation

`promotion/engine.py`: expanding-window folds over arbitrated sessions, the
result of each target over the folds and the gate over all targets.  A session
mapping is read in the order of its dates, as the source sorts it.
-/

namespace MiniLakehouse

private def tierText : EvaluationTier → String
  | .exploratory => "EXPLORATORY"
  | .promotion => "PROMOTION"

def BaselineEvaluationVersion.identity {D : Type} (policy : BaselineEvaluationVersion) : Json D :=
  .arr (policy.openEnded.append [.str (tierText policy.tier), .nat policy.developmentSessions,
    .nat policy.holdoutSessions, .nat policy.purgeSessions])

def BaselineEvaluationVersion.sha256 {D : Type} [Hashing D]
    (policy : BaselineEvaluationVersion) : D := Hashing.sha256 policy.identity

/-- Sessions of one fold: developed, purged and held out. -/
def BaselineEvaluationVersion.required (policy : BaselineEvaluationVersion) : Nat :=
  policy.developmentSessions + policy.purgeSessions + policy.holdoutSessions

/-- Where the first holdout starts. -/
def BaselineEvaluationVersion.firstHoldout (policy : BaselineEvaluationVersion) : Nat :=
  policy.developmentSessions + policy.purgeSessions

namespace TradingConfiguration

private def tierLabel : EvaluationTier → String
  | .exploratory => "exploratory baseline evaluation"
  | .promotion => "promotion baseline evaluation"

def resolveBaselineEvaluation (configuration : TradingConfiguration) (value : Day)
    (tier : EvaluationTier) : Except Raised BaselineEvaluationVersion :=
  resolveEffective (·.toEffectiveVersion) (tierLabel tier)
    (configuration.baselineEvaluations.filter (·.tier = tier)) value

end TradingConfiguration

/-! ## Walk-forward folds -/

/-- The terms of the weighted sum: only rows with an average take part. -/
def weightedReturns (rows : List ArbitratedEvaluation) : List Rat :=
  rows.filterMap fun item =>
    item.averageConditionalNetReturnBps.map (· * (item.eligibleOutcomeCount : Rat))

/-- `_weighted_average` -/
def weightedAverage (rows : List ArbitratedEvaluation) : Except Raised (Option Rat) :=
  let eligible : Nat := (rows.map (·.eligibleOutcomeCount)).sum
  if eligible = 0 then .ok none
  else some <$> ratio (weightedReturns rows).sum eligible bpsPlaces

/-- `_combine` -/
def combine (rows : List ArbitratedEvaluation) : Except Raised ArbitratedHoldoutEvaluation :=
  let message := "arbitrated holdout rows must share one target"
  match rows with
  | [] => .error (.valueError message)
  | first :: _ => do
      require (∀ item ∈ rows, item.key = first.key) (.valueError message)
      let average ← weightedAverage rows
      ArbitratedHoldoutEvaluation.modelValidate {
        strategy := first.strategy
        symbol := first.symbol
        horizonSeconds := first.horizonSeconds
        selectedCount := (rows.map (·.selectedCount)).sum
        eligibleOutcomeCount := (rows.map (·.eligibleOutcomeCount)).sum
        positiveNetCount := (rows.map (·.positiveNetCount)).sum
        averageConditionalNetReturnBps := average }

variable {D : Type}

/-- `keyed[value][key]` -/
def keyedRow (key : TargetKey) (report : ArbitratedSessionReport D) :
    Except Raised ArbitratedEvaluation :=
  match report.row key with
  | some row => .ok row.toArbitratedEvaluation
  | none => .error (.lookupError key.1)

/-- One fold whose holdout starts at position `start` of the ordered sessions. -/
def evaluateFold (policy : BaselineEvaluationVersion)
    (ordered : List (Day × ArbitratedSessionReport D)) (keys : List TargetKey)
    (start fold : Nat) : Except Raised ArbitratedWalkForwardFold := do
  let developmentEnd := start - policy.purgeSessions
  let holdout := (ordered.drop start).take policy.holdoutSessions
  let evaluations ← keys.mapM fun key => do
    let rows ← holdout.mapM fun entry => keyedRow key entry.2
    combine rows
  ArbitratedWalkForwardFold.modelValidate {
    fold := fold
    developmentDates := (ordered.take developmentEnd).map Prod.fst
    purgedDates := ((ordered.drop developmentEnd).take (start - developmentEnd)).map Prod.fst
    holdoutDates := holdout.map Prod.fst
    evaluations := evaluations }

/-- `while holdout_start + holdout_sessions <= len(dates)`; the fuel bounds the folds. -/
def evaluateFolds (policy : BaselineEvaluationVersion)
    (ordered : List (Day × ArbitratedSessionReport D)) (keys : List TargetKey) :
    Nat → Nat → Nat → Except Raised (List ArbitratedWalkForwardFold)
  | 0, _, _ => .ok []
  | fuel + 1, start, fold =>
      if start + policy.holdoutSessions ≤ ordered.length then do
        let first ← evaluateFold policy ordered keys start fold
        let rest ← evaluateFolds policy ordered keys fuel (start + policy.holdoutSessions)
          (fold + 1)
        return first :: rest
      else .ok []

variable [Hashing D]

/-- A session is dated by its key and recorded under the prospective policies. -/
def MatchesPolicies (policy : BaselineEvaluationVersion)
    (arbitrationPolicy : CandidateArbitrationVersion)
    (entry : Day × ArbitratedSessionReport D) : Prop :=
  entry.2.tradeDate = entry.1 ∧ policy.contains entry.1 ∧ arbitrationPolicy.contains entry.1 ∧
    entry.2.arbitrationVersion = arbitrationPolicy.version ∧
    entry.2.baselineVersion = arbitrationPolicy.candidateVersion ∧
    entry.2.arbitrationConfigurationSha256 = arbitrationPolicy.sha256

instance (policy : BaselineEvaluationVersion) (arbitrationPolicy : CandidateArbitrationVersion)
    (entry : Day × ArbitratedSessionReport D) :
    Decidable (MatchesPolicies policy arbitrationPolicy entry) := by
  unfold MatchesPolicies; infer_instance

/-- `evaluate_arbitrated_walk_forward` -/
def evaluateArbitratedWalkForward (sessions : SessionEvidence D)
    (policy : BaselineEvaluationVersion) (arbitrationPolicy : CandidateArbitrationVersion) :
    Except Raised (ArbitratedWalkForwardReport D) := do
  let ordered := sessions.ordered
  let required := policy.required
  require (required ≤ ordered.length)
    (.valueError s!"arbitrated walk-forward requires at least {required} sessions")
  require (∀ entry ∈ ordered, MatchesPolicies policy arbitrationPolicy entry)
    (.valueError "arbitrated sessions do not match prospective policies")
  match ordered with
  | [] => throw .indexError
  | first :: _ =>
      require (∀ entry ∈ ordered, entry.2.researchLineage = first.2.researchLineage)
        (.valueError "arbitrated sessions must share complete research lineage")
      require (∀ entry ∈ ordered, entry.2.keys = first.2.keys)
        (.valueError "arbitrated sessions must share one ordered target matrix")
      let folds ← evaluateFolds policy ordered first.2.keys ordered.length policy.firstHoldout 1
      match folds.getLast?.bind (·.holdoutDates.getLast?) with
      | none => throw .indexError
      | some lastHoldout =>
          ArbitratedWalkForwardReport.modelValidate {
            evaluationVersion := policy.version
            evaluationConfigurationSha256 := policy.sha256
            arbitrationVersion := arbitrationPolicy.version
            arbitrationConfigurationSha256 := arbitrationPolicy.sha256
            sessionSha256s := ordered.map fun entry => entry.2.sha256
            folds := folds
            pendingDates := sessions.dates.filter (lastHoldout < ·) }

/-! ## Target results -/

/-- `PromotionTargetResult` with its field constraints and `validate_result`. -/
def PromotionTargetResult.modelValidate (strategy : BaselineName) (symbol : String)
    (horizonSeconds : Nat) (status : PromotionStatus) (reasons : List PromotionReason)
    (selectedCount eligibleOutcomeCount positiveNetCount : Nat)
    (outcomeCoverageRate positiveNetRate : Rat)
    (averageNetReturnBps worstFoldNetReturnBps : Option Rat) :
    Except Raised PromotionTargetResult := do
  let target ← ensure (isSymbolName symbol ∧ 1 ≤ horizonSeconds) (.fieldError "symbol")
  let coverage ← ensure (0 ≤ outcomeCoverageRate ∧ outcomeCoverageRate ≤ 1)
    (.fieldError "outcome_coverage_rate")
  let positive ← ensure (0 ≤ positiveNetRate ∧ positiveNetRate ≤ 1)
    (.fieldError "positive_net_rate")
  let counts ← ensure
    (positiveNetCount ≤ eligibleOutcomeCount ∧ eligibleOutcomeCount ≤ selectedCount)
    (.valueError "promotion target counts are inconsistent")
  let unique ← ensure reasons.Nodup
    (.valueError "promotion target reasons must be unique and ordered")
  let passing ← ensure (status = .pass ↔ reasons = [])
    (.valueError "promotion target status and reasons are inconsistent")
  return {
    strategy := strategy
    symbol := symbol
    horizonSeconds := horizonSeconds
    status := status
    reasons := reasons
    selectedCount := selectedCount
    eligibleOutcomeCount := eligibleOutcomeCount
    positiveNetCount := positiveNetCount
    outcomeCoverageRate := outcomeCoverageRate
    positiveNetRate := positiveNetRate
    averageNetReturnBps := averageNetReturnBps
    worstFoldNetReturnBps := worstFoldNetReturnBps
    target_valid := target.down
    coverage_bounds := coverage.down
    positive_bounds := positive.down
    counts_ordered := counts.down
    reasons_nodup := unique.down
    pass_iff := passing.down }

/-- The target's row of a fold; `next` finds none inside a generator. -/
def foldRow (target : PromotionTarget) (fold : ArbitratedWalkForwardFold) :
    Except Raised ArbitratedEvaluation :=
  match fold.evaluations.find? (·.key == target.key) with
  | some row => .ok row.toArbitratedEvaluation
  | none => .error (.runtimeError "generator raised StopIteration")

/-- `min(fold_returns) if len(fold_returns) == len(rows) else None` -/
def worstReturn (rows : List ArbitratedEvaluation) : Except Raised (Option Rat) :=
  let foldReturns := rows.filterMap (·.averageConditionalNetReturnBps)
  if foldReturns.length = rows.length then
    match foldReturns.min? with
    | some worst => .ok (some worst)
    | none => .error (.valueError "min() iterable argument is empty")
  else .ok none

/-- The rate that is compared only `if eligible`. -/
def positiveRate (positive eligible : Nat) : Except Raised (Option Rat) :=
  if eligible = 0 then .ok none else some <$> rate positive eligible

/-- The pending and the failed reasons of a target. -/
def targetReasons (policy : PromotionGateVersion) (selected eligible positive : Nat)
    (average worst : Option Rat) :
    Except Raised (List PromotionReason × List PromotionReason) := do
  if selected < policy.minimumSelectedCount then
    return ([.insufficientSelections], [])
  else
    let coverage ← rate eligible selected
    let positiveNet ← positiveRate positive eligible
    let uncovered := coverage < policy.minimumOutcomeCoverageRate
    let negative := positiveNet.any (· < policy.minimumPositiveNetRate)
    let low := average.any (· < policy.minimumAverageNetReturnBps)
    let poor := worst.any (· < policy.minimumWorstFoldNetReturnBps)
    return (if worst.isNone then [.missingFoldOutcomes] else [],
      (if uncovered then [.outcomeCoverage] else []) ++
        (if negative then [.positiveNetRate] else []) ++
        (if low then [.averageNetReturn] else []) ++
        (if poor then [.worstFoldNetReturn] else []))

/-- `_target_result` -/
def targetResult (target : PromotionTarget) (folds : List ArbitratedWalkForwardFold)
    (policy : PromotionGateVersion) : Except Raised PromotionTargetResult := do
  let rows ← folds.mapM (foldRow target)
  let selected := (rows.map (·.selectedCount)).sum
  let eligible := (rows.map (·.eligibleOutcomeCount)).sum
  let positive := (rows.map (·.positiveNetCount)).sum
  let average ← weightedAverage rows
  let worst ← worstReturn rows
  let (pending, failed) ← targetReasons policy selected eligible positive average worst
  let status : PromotionStatus :=
    if failed ≠ [] then .fail else if pending ≠ [] then .pending else .pass
  let coverage ← rate eligible selected
  let positiveRate ← rate positive eligible
  match rows with
  | [] => throw .indexError
  | first :: _ =>
      PromotionTargetResult.modelValidate first.strategy first.symbol target.horizonSeconds
        status (pending ++ failed) selected eligible positive coverage positiveRate average worst

/-! ## The gate -/

/-- The status that a report's reasons and targets lead to. -/
def expectedStatus (reasons : List PromotionReason) (targets : List PromotionTargetResult) :
    PromotionStatus :=
  if (∃ item ∈ targets, item.status = .fail) ∨ .captureGaps ∈ reasons then .fail
  else if reasons ≠ [] ∨ ∃ item ∈ targets, item.status = .pending then .pending
  else .pass

/-- `PromotionGateReport` with its field constraints and `validate_report`. -/
def PromotionGateReport.modelValidate (gateVersion : String) (gateConfigurationSha256 : D)
    (evaluationVersion : String) (evaluationConfigurationSha256 : D)
    (arbitrationVersion : String) (arbitrationConfigurationSha256 : D)
    (requiredSessionCount observedSessionCount : Nat) (holdoutDates : List Day)
    (captureGapCount : Nat) (walkForwardSha256 : Option D) (shadowAuditSha256s : List D)
    (status : PromotionStatus) (reasons : List PromotionReason)
    (targets : List PromotionTargetResult) : Except Raised (PromotionGateReport D) := do
  let versions ← ensure (isVersionName gateVersion ∧ isVersionName evaluationVersion ∧
    isVersionName arbitrationVersion) (.fieldError "gate_version")
  let required ← ensure (1 ≤ requiredSessionCount) (.fieldError "required_session_count")
  let nonempty ← ensure (targets ≠ []) (.fieldError "targets")
  let ordered ← ensure (holdoutDates.Pairwise (· < ·))
    (.valueError "promotion holdout dates must be unique and ordered")
  let unique ← ensure
    ((targets.map fun item => (item.strategy, item.symbol, item.horizonSeconds)).Nodup)
    (.valueError "promotion target results must be unique")
  let reasoned ← ensure reasons.Nodup
    (.valueError "promotion report reasons must be unique and ordered")
  let expected ← ensure (status = expectedStatus reasons targets)
    (.valueError "promotion report status is inconsistent")
  let sourced ← ensure (walkForwardSha256.isNone → holdoutDates = [])
    (.valueError "promotion holdouts require a walk-forward report")
  let complete ← ensure (status = .pass → holdoutDates ≠ [] ∧ walkForwardSha256.isSome ∧
    shadowAuditSha256s.length = holdoutDates.length)
    (.valueError "passing promotion requires complete holdout and shadow evidence")
  return {
    gateVersion := gateVersion
    gateConfigurationSha256 := gateConfigurationSha256
    evaluationVersion := evaluationVersion
    evaluationConfigurationSha256 := evaluationConfigurationSha256
    arbitrationVersion := arbitrationVersion
    arbitrationConfigurationSha256 := arbitrationConfigurationSha256
    requiredSessionCount := requiredSessionCount
    observedSessionCount := observedSessionCount
    holdoutDates := holdoutDates
    captureGapCount := captureGapCount
    walkForwardSha256 := walkForwardSha256
    shadowAuditSha256s := shadowAuditSha256s
    status := status
    reasons := reasons
    targets := targets
    versions_pattern := versions.down
    required_pos := required.down
    holdout_ordered := ordered.down
    targets_nonempty := nonempty.down
    targets_unique := unique.down
    reasons_nodup := reasoned.down
    status_expected := expected.down
    holdouts_sourced := sourced.down
    pass_complete := complete.down }

/-- A target of a gate without enough sessions. -/
def pendingTarget (target : PromotionTarget) : Except Raised PromotionTargetResult :=
  match baselineNames.find? (·.text == target.strategy) with
  | none => .error (.fieldError "strategy")
  | some strategy =>
      PromotionTargetResult.modelValidate strategy target.symbol target.horizonSeconds .pending
        [.insufficientSelections] 0 0 0 0 0 none none

/-- `evaluate_promotion_gate` -/
def evaluatePromotionGate (sessions : SessionEvidence D)
    (evaluationPolicy : BaselineEvaluationVersion) (gatePolicy : PromotionGateVersion)
    (arbitrationPolicy : CandidateArbitrationVersion) :
    Except Raised (PromotionGateReport D) := do
  require (evaluationPolicy.tier = .promotion)
    (.valueError "promotion gate requires a PROMOTION evaluation policy")
  require (gatePolicy.evaluationVersion = evaluationPolicy.version ∧
    gatePolicy.arbitrationVersion = arbitrationPolicy.version)
    (.valueError "promotion gate policy lineage is inconsistent")
  let required := evaluationPolicy.required
  if sessions.entries.length < required then
    let targets ← gatePolicy.targets.mapM pendingTarget
    PromotionGateReport.modelValidate gatePolicy.version gatePolicy.sha256
      evaluationPolicy.version evaluationPolicy.sha256 arbitrationPolicy.version
      arbitrationPolicy.sha256 required sessions.entries.length [] 0 none [] .pending
      [.insufficientSessions] targets
  else
    let walkForward ← evaluateArbitratedWalkForward sessions evaluationPolicy arbitrationPolicy
    let holdoutDates := sortOn id walkForward.holdoutDates
    let holdoutSessions ← holdoutDates.mapM fun value =>
      match sessions.get value with
      | some session => Except.ok session
      | none => .error (.lookupError "holdout date")
    let gaps := (holdoutSessions.map (·.captureGapCount)).sum
    let reasons : List PromotionReason :=
      if gatePolicy.maximumCaptureGapCount < gaps then [.captureGaps] else []
    let targets ← gatePolicy.targets.mapM fun target =>
      targetResult target walkForward.folds gatePolicy
    let status : PromotionStatus :=
      if reasons ≠ [] ∨ ∃ item ∈ targets, item.status = .fail then .fail
      else if ∃ item ∈ targets, item.status = .pending then .pending
      else .pass
    PromotionGateReport.modelValidate gatePolicy.version gatePolicy.sha256
      evaluationPolicy.version evaluationPolicy.sha256 arbitrationPolicy.version
      arbitrationPolicy.sha256 required sessions.entries.length holdoutDates gaps
      (some walkForward.sha256) (holdoutSessions.map (·.shadowAuditSha256)) status reasons targets

end MiniLakehouse
