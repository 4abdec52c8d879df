import MiniLakehouse.Promotion.Model
import MiniLakehouse.Library.Keyed

/-!
# Arbitrated session evidence

The daily results over selected candidates and the walk-forward folds that
pool them (`promotion/model.py`).  A session evaluation and a holdout
evaluation have one schema and differ in the text of their errors.
-/

namespace MiniLakehouse

/-- What a promotion target and its results are matched by. -/
abbrev TargetKey := String × String × Nat

/-- Tuple order of target keys. -/
def TargetKey.before (left right : TargetKey) : Prop :=
  left.1 < right.1 ∨ left.1 = right.1 ∧
    (left.2.1 < right.2.1 ∨ left.2.1 = right.2.1 ∧ left.2.2 < right.2.2)

instance : DecidableRel TargetKey.before := fun left right => by
  unfold TargetKey.before; infer_instance

def PromotionTarget.key (target : PromotionTarget) : TargetKey :=
  (target.strategy, target.symbol, target.horizonSeconds)

def PromotionTargetResult.key (result : PromotionTargetResult) : TargetKey :=
  (result.strategy.text, result.symbol, result.horizonSeconds)

/-! ## Evaluations of one target -/

/-- The common fields of session and holdout evaluations. -/
structure ArbitratedEvaluation where
  strategy : BaselineName
  symbol : String
  horizonSeconds : Nat
  selectedCount : Nat
  eligibleOutcomeCount : Nat
  positiveNetCount : Nat
  averageConditionalNetReturnBps : Option Rat
  deriving DecidableEq

namespace ArbitratedEvaluation

def key (evaluation : ArbitratedEvaluation) : TargetKey :=
  (evaluation.strategy.text, evaluation.symbol, evaluation.horizonSeconds)

/-- `validate_counts` with the field constraints; `population` names the model. -/
def checks (population : String) (evaluation : ArbitratedEvaluation) : List (Check Raised) :=
  [⟨isSymbolName evaluation.symbol, .fieldError "symbol"⟩,
    ⟨1 ≤ evaluation.horizonSeconds, .fieldError "horizon_seconds"⟩,
    ⟨evaluation.positiveNetCount ≤ evaluation.eligibleOutcomeCount &&
      evaluation.eligibleOutcomeCount ≤ evaluation.selectedCount,
      .valueError s!"arbitrated {population} counts are inconsistent"⟩,
    ⟨(evaluation.eligibleOutcomeCount == 0) ==
      evaluation.averageConditionalNetReturnBps.isNone,
      .valueError s!"arbitrated {population} average requires eligible outcomes"⟩]

def modelDump {D : Type} (evaluation : ArbitratedEvaluation) : Json D :=
  .arr [.str evaluation.strategy.text, .str evaluation.symbol, .nat evaluation.horizonSeconds,
    .nat evaluation.selectedCount, .nat evaluation.eligibleOutcomeCount,
    .nat evaluation.positiveNetCount, .opt .num evaluation.averageConditionalNetReturnBps]

end ArbitratedEvaluation

/-- One daily result over candidates actually selected by arbitration. -/
structure ArbitratedSessionEvaluation extends ArbitratedEvaluation where
  valid : AllHold (toArbitratedEvaluation.checks "session")
  deriving DecidableEq

/-- The result of one target over the sessions of a holdout. -/
structure ArbitratedHoldoutEvaluation extends ArbitratedEvaluation where
  valid : AllHold (toArbitratedEvaluation.checks "holdout")
  deriving DecidableEq

def ArbitratedHoldoutEvaluation.modelValidate (fields : ArbitratedEvaluation) :
    Except Raised ArbitratedHoldoutEvaluation :=
  validated (fields.checks "holdout") fun valid => ⟨fields, valid⟩

/-- An average is published exactly for eligible outcomes. -/
theorem ArbitratedEvaluation.average_isSome {population : String}
    {evaluation : ArbitratedEvaluation} (h : AllHold (evaluation.checks population)) :
    evaluation.averageConditionalNetReturnBps.isSome ↔ 0 < evaluation.eligibleOutcomeCount := by
  simp only [checks, allHold_cons, allHold_nil, beq_iff_eq] at h
  obtain ⟨-, -, -, haverage, -⟩ := h
  rw [Nat.pos_iff_ne_zero, ← Option.not_isNone, ← haverage]
  simp

/-! ## Session reports -/

structure ArbitratedSessionReportFields (D : Type) where
  tradeDate : Day
  baselineVersion : String
  arbitrationVersion : String
  arbitrationConfigurationSha256 : D
  featureConfigurationSha256 : D
  contextConfigurationSha256 : D
  outcomeConfigurationSha256 : D
  costPolicySha256 : D
  costAssumptionsSha256 : Option D
  captureEvidenceSha256 : D
  shadowAuditSha256 : D
  captureGapCount : Nat
  evaluations : List ArbitratedSessionEvaluation
  deriving DecidableEq

namespace ArbitratedSessionReportFields

variable {D : Type}

/-- The ordered target matrix of the session. -/
def keys (fields : ArbitratedSessionReportFields D) : List TargetKey :=
  fields.evaluations.map (·.key)

/-- `ArbitratedSessionReport.validate_evaluations` with the field constraints. -/
def checks (fields : ArbitratedSessionReportFields D) : List (Check Raised) :=
  [⟨isVersionName fields.baselineVersion, .fieldError "baseline_version"⟩,
    ⟨isVersionName fields.arbitrationVersion, .fieldError "arbitration_version"⟩,
    ⟨fields.evaluations != [], .fieldError "evaluations"⟩,
    ⟨fields.keys.Pairwise TargetKey.before,
      .valueError "arbitrated session evaluations must be unique and ordered"⟩]

def modelDump (fields : ArbitratedSessionReportFields D) : Json D :=
  .arr [.int fields.tradeDate, .str fields.baselineVersion, .str fields.arbitrationVersion,
    .sha fields.arbitrationConfigurationSha256, .sha fields.featureConfigurationSha256,
    .sha fields.contextConfigurationSha256, .sha fields.outcomeConfigurationSha256,
    .sha fields.costPolicySha256, .opt .sha fields.costAssumptionsSha256,
    .sha fields.captureEvidenceSha256, .sha fields.shadowAuditSha256,
    .nat fields.captureGapCount,
    .list (fun item => item.toArbitratedEvaluation.modelDump) fields.evaluations]

end ArbitratedSessionReportFields

/-- Prospective daily performance of the exact selected shadow population. -/
structure ArbitratedSessionReport (D : Type) extends ArbitratedSessionReportFields D where
  valid : AllHold toArbitratedSessionReportFields.checks

@[ext] theorem ArbitratedSessionReport.ext_fields {D : Type} {a b : ArbitratedSessionReport D}
    (h : a.toArbitratedSessionReportFields = b.toArbitratedSessionReportFields) : a = b := by
  cases a; cases b; cases h; rfl

instance {D : Type} [DecidableEq D] : DecidableEq (ArbitratedSessionReport D) :=
  fun _ _ => decidable_of_iff _ ⟨ArbitratedSessionReport.ext_fields, fun h => by rw [h]⟩

namespace ArbitratedSessionReport

variable {D : Type}

/-- `research_lineage`: fixed assumptions, independent of outcomes. -/
def researchLineage (report : ArbitratedSessionReport D) : ResearchLineage D where
  baselineVersion := report.baselineVersion
  arbitrationConfigurationSha256 := report.arbitrationConfigurationSha256
  featureConfigurationSha256 := report.featureConfigurationSha256
  contextConfigurationSha256 := report.contextConfigurationSha256
  outcomeConfigurationSha256 := report.outcomeConfigurationSha256
  costPolicySha256 := report.costAssumptionsSha256.getD report.costPolicySha256
  baselineVersion_pattern := report.valid _ (List.mem_cons_self ..)

def sha256 [Hashing D] (report : ArbitratedSessionReport D) : D :=
  Hashing.sha256 report.modelDump

/-- The session's row of one target. -/
def row (report : ArbitratedSessionReport D) (key : TargetKey) :
    Option ArbitratedSessionEvaluation :=
  report.evaluations.find? (·.key == key)

end ArbitratedSessionReport

/-- `Mapping[date, ArbitratedSessionReport]`: one report under each date. -/
structure SessionEvidence (D : Type) where
  entries : List (Day × ArbitratedSessionReport D)
  dates_unique : (entries.map Prod.fst).Nodup

namespace SessionEvidence

variable {D : Type}

/-- The sessions in the order of their dates. -/
def ordered (sessions : SessionEvidence D) : List (Day × ArbitratedSessionReport D) :=
  sortOn Prod.fst sessions.entries

/-- `tuple(sorted(sessions))` -/
def dates (sessions : SessionEvidence D) : List Day :=
  sessions.ordered.map Prod.fst

/-- `sessions.get(value)` -/
def get (sessions : SessionEvidence D) (value : Day) : Option (ArbitratedSessionReport D) :=
  (sessions.entries.find? (·.1 == value)).map Prod.snd

end SessionEvidence

/-! ## Walk-forward folds -/

structure ArbitratedWalkForwardFoldFields where
  fold : Nat
  developmentDates : List Day
  purgedDates : List Day
  holdoutDates : List Day
  evaluations : List ArbitratedHoldoutEvaluation
  deriving DecidableEq

namespace ArbitratedWalkForwardFoldFields

def keys (fields : ArbitratedWalkForwardFoldFields) : List TargetKey :=
  fields.evaluations.map (·.key)

/-- `development[-1] < purged[0] <= purged[-1] < holdout[0]` -/
def groupsOrdered (fields : ArbitratedWalkForwardFoldFields) : Bool :=
  match fields.developmentDates.getLast?, fields.purgedDates.head?,
      fields.purgedDates.getLast?, fields.holdoutDates.head? with
  | some developed, some first, some last, some held =>
      developed < first && first ≤ last && last < held
  | _, _, _, _ => false

/-- `ArbitratedWalkForwardFold.validate_fold` with the field constraints. -/
def checks (fields : ArbitratedWalkForwardFoldFields) : List (Check Raised) :=
  [⟨1 ≤ fields.fold, .fieldError "fold"⟩,
    ⟨fields.developmentDates != [], .fieldError "development_dates"⟩,
    ⟨fields.purgedDates != [], .fieldError "purged_dates"⟩,
    ⟨fields.holdoutDates != [], .fieldError "holdout_dates"⟩,
    ⟨fields.evaluations != [], .fieldError "evaluations"⟩,
    ⟨decide (fields.developmentDates.Pairwise (· < ·)) &&
      decide (fields.purgedDates.Pairwise (· < ·)) &&
      decide (fields.holdoutDates.Pairwise (· < ·)) && fields.groupsOrdered,
      .valueError "arbitrated walk-forward dates must be ordered and disjoint"⟩,
    ⟨fields.keys.Nodup, .valueError "arbitrated walk-forward targets must be unique"⟩]

def modelDump {D : Type} (fields : ArbitratedWalkForwardFoldFields) : Json D :=
  .arr [.nat fields.fold, .list .int fields.developmentDates, .list .int fields.purgedDates,
    .list .int fields.holdoutDates,
    .list (fun item => item.toArbitratedEvaluation.modelDump) fields.evaluations]

end ArbitratedWalkForwardFoldFields

structure ArbitratedWalkForwardFold extends ArbitratedWalkForwardFoldFields where
  valid : AllHold toArbitratedWalkForwardFoldFields.checks
  deriving DecidableEq

def ArbitratedWalkForwardFold.modelValidate (fields : ArbitratedWalkForwardFoldFields) :
    Except Raised ArbitratedWalkForwardFold :=
  validated fields.checks fun valid => ⟨fields, valid⟩

structure ArbitratedWalkForwardReportFields (D : Type) where
  evaluationVersion : String
  evaluationConfigurationSha256 : D
  arbitrationVersion : String
  arbitrationConfigurationSha256 : D
  sessionSha256s : List D
  folds : List ArbitratedWalkForwardFold
  pendingDates : List Day
  deriving DecidableEq

namespace ArbitratedWalkForwardReportFields

variable {D : Type}

/-- `not pending or pending[0] > folds[-1].holdout_dates[-1]`, dates in order. -/
def pendingOrdered (fields : ArbitratedWalkForwardReportFields D) : Bool :=
  match fields.pendingDates.head?, fields.folds.getLast?.bind (·.holdoutDates.getLast?) with
  | none, _ => true
  | some first, some held =>
      decide (fields.pendingDates.Pairwise (· < ·)) && held < first
  | some _, none => false

/-- `ArbitratedWalkForwardReport.validate_report` with the field constraints. -/
def checks (fields : ArbitratedWalkForwardReportFields D) : List (Check Raised) :=
  [⟨isVersionName fields.evaluationVersion, .fieldError "evaluation_version"⟩,
    ⟨isVersionName fields.arbitrationVersion, .fieldError "arbitration_version"⟩,
    ⟨!fields.sessionSha256s.isEmpty, .fieldError "session_sha256s"⟩,
    ⟨fields.folds != [], .fieldError "folds"⟩,
    ⟨fields.folds.map (·.fold) == List.range' 1 fields.folds.length,
      .valueError "arbitrated walk-forward folds must be contiguous"⟩,
    ⟨fields.folds.all fun fold => fields.folds.head?.all fun first => fold.keys == first.keys,
      .valueError "arbitrated walk-forward fold matrices must match"⟩,
    ⟨fields.pendingOrdered,
      .valueError "arbitrated walk-forward pending dates are inconsistent"⟩]

def modelDump (fields : ArbitratedWalkForwardReportFields D) : Json D :=
  .arr [.str fields.evaluationVersion, .sha fields.evaluationConfigurationSha256,
    .str fields.arbitrationVersion, .sha fields.arbitrationConfigurationSha256,
    .list .sha fields.sessionSha256s,
    .list (fun item => item.toArbitratedWalkForwardFoldFields.modelDump) fields.folds,
    .list .int fields.pendingDates]

end ArbitratedWalkForwardReportFields

structure ArbitratedWalkForwardReport (D : Type)
    extends ArbitratedWalkForwardReportFields D where
  valid : AllHold toArbitratedWalkForwardReportFields.checks

namespace ArbitratedWalkForwardReport

variable {D : Type}

def modelValidate (fields : ArbitratedWalkForwardReportFields D) :
    Except Raised (ArbitratedWalkForwardReport D) :=
  validated fields.checks fun valid => ⟨fields, valid⟩

def sha256 [Hashing D] (report : ArbitratedWalkForwardReport D) : D :=
  Hashing.sha256 report.modelDump

/-- The holdout dates of all folds, fold after fold. -/
def holdoutDates (report : ArbitratedWalkForwardReport D) : List Day :=
  report.folds.flatMap (·.holdoutDates)

end ArbitratedWalkForwardReport

end MiniLakehouse
