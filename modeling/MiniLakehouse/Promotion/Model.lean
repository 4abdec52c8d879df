import MiniLakehouse.Context.Regime
import MiniLakehouse.Controls.Model
import MiniLakehouse.Strategy.Candidate

/-!
# Promotion evidence

The gate report and the research lineage that admit a candidate to paper
trading (`promotion/model.py`, `promotion/evidence.py`).
-/

namespace MiniLakehouse

inductive PromotionStatus where
  | pending
  | pass
  | fail
  deriving DecidableEq, Repr

inductive PromotionReason where
  | insufficientSessions
  | captureGaps
  | insufficientSelections
  | missingFoldOutcomes
  | outcomeCoverage
  | positiveNetRate
  | averageNetReturn
  | worstFoldNetReturn
  deriving DecidableEq, Repr

private def statusText : PromotionStatus → String
  | .pending => "PENDING"
  | .pass => "PASS"
  | .fail => "FAIL"

private def reasonText : PromotionReason → String
  | .insufficientSessions => "INSUFFICIENT_SESSIONS"
  | .captureGaps => "CAPTURE_GAPS"
  | .insufficientSelections => "INSUFFICIENT_SELECTIONS"
  | .missingFoldOutcomes => "MISSING_FOLD_OUTCOMES"
  | .outcomeCoverage => "OUTCOME_COVERAGE"
  | .positiveNetRate => "POSITIVE_NET_RATE"
  | .averageNetReturn => "AVERAGE_NET_RETURN"
  | .worstFoldNetReturn => "WORST_FOLD_NET_RETURN"

/-- Outcome-independent assumptions shared by promotion and paper admission. -/
structure ResearchLineage (D : Type) where
  baselineVersion : String
  arbitrationConfigurationSha256 : D
  featureConfigurationSha256 : D
  contextConfigurationSha256 : D
  outcomeConfigurationSha256 : D
  costPolicySha256 : D
  baselineVersion_pattern : isVersionName baselineVersion
  deriving DecidableEq

structure PromotionTargetResult where
  strategy : BaselineName
  symbol : String
  horizonSeconds : Nat
  status : PromotionStatus
  reasons : List PromotionReason
  selectedCount : Nat
  eligibleOutcomeCount : Nat
  positiveNetCount : Nat
  outcomeCoverageRate : Rat
  positiveNetRate : Rat
  averageNetReturnBps : Option Rat
  worstFoldNetReturnBps : Option Rat
  target_valid : isSymbolName symbol ∧ 1 ≤ horizonSeconds
  coverage_bounds : 0 ≤ outcomeCoverageRate ∧ outcomeCoverageRate ≤ 1
  positive_bounds : 0 ≤ positiveNetRate ∧ positiveNetRate ≤ 1
  counts_ordered :
    positiveNetCount ≤ eligibleOutcomeCount ∧ eligibleOutcomeCount ≤ selectedCount
  reasons_nodup : reasons.Nodup
  pass_iff : status = .pass ↔ reasons = []
  deriving DecidableEq

/-- The published gate; a pass authorises paper evaluation only. -/
structure PromotionGateReport (D : Type) where
  gateVersion : String
  gateConfigurationSha256 : D
  evaluationVersion : String
  evaluationConfigurationSha256 : D
  arbitrationVersion : String
  arbitrationConfigurationSha256 : D
  requiredSessionCount : Nat
  observedSessionCount : Nat
  holdoutDates : List Day
  captureGapCount : Nat
  walkForwardSha256 : Option D
  shadowAuditSha256s : List D
  status : PromotionStatus
  reasons : List PromotionReason
  targets : List PromotionTargetResult
  versions_pattern : isVersionName gateVersion ∧ isVersionName evaluationVersion ∧
    isVersionName arbitrationVersion
  required_pos : 1 ≤ requiredSessionCount
  holdout_ordered : holdoutDates.Pairwise (· < ·)
  targets_nonempty : targets ≠ []
  targets_unique :
    (targets.map fun item => (item.strategy, item.symbol, item.horizonSeconds)).Nodup
  reasons_nodup : reasons.Nodup
  status_expected : status =
    if (∃ item ∈ targets, item.status = .fail) ∨ .captureGaps ∈ reasons then .fail
    else if reasons ≠ [] ∨ ∃ item ∈ targets, item.status = .pending then .pending
    else .pass
  holdouts_sourced : walkForwardSha256.isNone → holdoutDates = []
  pass_complete : status = .pass → holdoutDates ≠ [] ∧ walkForwardSha256.isSome ∧
    shadowAuditSha256s.length = holdoutDates.length
  deriving DecidableEq

section

variable {D : Type}

def PromotionTargetResult.modelDump (target : PromotionTargetResult) : Json D :=
  .arr [.str target.strategy.text, .str target.symbol, .nat target.horizonSeconds,
    .str (statusText target.status), .list (fun reason => .str (reasonText reason)) target.reasons,
    .nat target.selectedCount, .nat target.eligibleOutcomeCount, .nat target.positiveNetCount,
    .num target.outcomeCoverageRate, .num target.positiveNetRate,
    .opt .num target.averageNetReturnBps, .opt .num target.worstFoldNetReturnBps]

def PromotionGateReport.modelDump (report : PromotionGateReport D) : Json D :=
  .arr [.str report.gateVersion, .sha report.gateConfigurationSha256,
    .str report.evaluationVersion, .sha report.evaluationConfigurationSha256,
    .str report.arbitrationVersion, .sha report.arbitrationConfigurationSha256,
    .nat report.requiredSessionCount, .nat report.observedSessionCount,
    .list .int report.holdoutDates, .nat report.captureGapCount,
    .opt .sha report.walkForwardSha256, .list .sha report.shadowAuditSha256s,
    .str (statusText report.status),
    .list (fun reason => .str (reasonText reason)) report.reasons,
    .list PromotionTargetResult.modelDump report.targets]

variable [Hashing D]

def PromotionGateReport.sha256 (report : PromotionGateReport D) : D :=
  Hashing.sha256 report.modelDump

/-- `resolve_research_lineage` -/
def resolveResearchLineage (configuration : TradingConfiguration) (tradeDate : Day)
    (costs : CostPolicy) : Except Raised (ResearchLineage D) := do
  let message := "research lineage requires effective arbitration and costs"
  match ← configuration.resolveCandidateArbitration tradeDate with
  | none => throw (.valueError message)
  | some arbitration =>
      require (costs.contains tradeDate) (.valueError message)
      let trading ← configuration.resolve tradeDate
      let context ← configuration.resolveContext tradeDate
      let regime ← configuration.resolveRegime tradeDate
      let breadth ← configuration.resolveBreadth tradeDate
      let contextSha256 ← contextIdentity context regime breadth
      let outcomes ← configuration.resolveOutcomes tradeDate
      return {
        baselineVersion := baselineVersion
        arbitrationConfigurationSha256 := arbitration.sha256
        featureConfigurationSha256 := trading.sha256
        contextConfigurationSha256 := contextSha256
        outcomeConfigurationSha256 := outcomes.sha256
        costPolicySha256 := costs.assumptionsSha256
        baselineVersion_pattern := by decide }

end

end MiniLakehouse
