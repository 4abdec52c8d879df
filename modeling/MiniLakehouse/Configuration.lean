import MiniLakehouse.Identity
import MiniLakehouse.Raised
import MiniLakehouse.Library.Checked
import MiniLakehouse.Library.Time

/-!
# Effective-dated configuration

The strict configuration of the trading core (`configuration.py`).  What a
model's validators accept is carried by its structure; `resolve` and its
siblings pick the version of a family that is effective on a date and raise
exactly where the source does.
-/

namespace MiniLakehouse

/-- `_EffectiveVersion`: a named version and its inclusive date interval. -/
structure EffectiveVersion where
  version : String
  effectiveFrom : Day
  effectiveTo : Option Day
  version_pattern : isVersionName version
  interval_ordered : ∀ last ∈ effectiveTo, effectiveFrom ≤ last

namespace EffectiveVersion

def contains (item : EffectiveVersion) (value : Day) : Bool :=
  item.effectiveFrom ≤ value && item.effectiveTo.all (value ≤ ·)

/-- The identity of a version forgets where its interval ends. -/
def openEnded {D : Type} (item : EffectiveVersion) : List (Json D) :=
  [.str item.version, .int item.effectiveFrom, .null]

/-- `_intervals_overlap` -/
def overlaps (left right : EffectiveVersion) : Bool :=
  left.effectiveTo.all (right.effectiveFrom ≤ ·) &&
    right.effectiveTo.all (left.effectiveFrom ≤ ·)

end EffectiveVersion

/-- `_require_identifiers`: unique uppercase identifiers, at least one. -/
def UniqueIdentifiers (values : List String) : Prop :=
  values ≠ [] ∧ values.Nodup ∧ ∀ value ∈ values, isUpperIdentifier value

instance (values : List String) : Decidable (UniqueIdentifiers values) := by
  unfold UniqueIdentifiers; infer_instance

/-- `_validate_effective_versions`: ordered, uniquely named, disjoint. -/
def EffectiveFamily (values : List EffectiveVersion) : Prop :=
  values ≠ [] ∧ (values.map EffectiveVersion.version).Nodup ∧
    values.IsChain fun previous current =>
      ∃ last ∈ previous.effectiveTo, last < current.effectiveFrom

instance (values : List EffectiveVersion) : Decidable (EffectiveFamily values) := by
  unfold EffectiveFamily; infer_instance

/-- A window of the trading day, in local time. -/
abbrev SessionWindow := TimeOfDay × TimeOfDay

structure SessionScheduleConfiguration where
  openingAuction : SessionWindow
  continuousAm : SessionWindow
  continuousPm : SessionWindow
  closingAuction : SessionWindow
  times_in_day : ∀ window ∈ [openingAuction, continuousAm, continuousPm, closingAuction],
    0 ≤ window.1 ∧ window.2 < dayLength
  windows_positive : ∀ window ∈ [openingAuction, continuousAm, continuousPm, closingAuction],
    window.1 < window.2
  opening_meets_am : openingAuction.2 = continuousAm.1
  am_before_pm : continuousAm.2 < continuousPm.1
  pm_meets_closing : continuousPm.2 = closingAuction.1

namespace SessionScheduleConfiguration

def windows (schedule : SessionScheduleConfiguration) : List SessionWindow :=
  [schedule.openingAuction, schedule.continuousAm, schedule.continuousPm,
    schedule.closingAuction]

def modelDump {D : Type} (schedule : SessionScheduleConfiguration) : Json D :=
  .list (fun window => .arr [.int window.1, .int window.2]) schedule.windows

end SessionScheduleConfiguration

structure MarketConfiguration where
  timezone : ZoneInfo
  symbols : List String
  indices : List String
  statusMarkets : List String
  quoteDepth : Nat
  barIntervalSeconds : Nat
  sessions : SessionScheduleConfiguration
  symbols_unique : UniqueIdentifiers symbols
  indices_unique : UniqueIdentifiers indices
  statusMarkets_unique : UniqueIdentifiers statusMarkets
  quoteDepth_bounds : 1 ≤ quoteDepth ∧ quoteDepth ≤ 10
  barInterval_pos : 1 ≤ barIntervalSeconds
  barInterval_minute : 60 % barIntervalSeconds = 0 ∨ barIntervalSeconds % 60 = 0
  boundaries_aligned : ∀ window ∈ sessions.windows,
    window.1 / seconds 1 % barIntervalSeconds = 0 ∧
      window.2 / seconds 1 % barIntervalSeconds = 0

structure DataQualityConfiguration where
  tradeStaleAfterSeconds : Nat
  quoteStaleAfterSeconds : Nat
  tradeStale_pos : 1 ≤ tradeStaleAfterSeconds
  quoteStale_pos : 1 ≤ quoteStaleAfterSeconds

structure CaptureConfiguration where
  symbols : List String
  indices : List String
  membershipIndices : List String
  markets : List String
  symbols_unique : UniqueIdentifiers symbols
  indices_unique : UniqueIdentifiers indices
  membershipIndices_unique : UniqueIdentifiers membershipIndices
  markets_unique : UniqueIdentifiers markets
  disjoint : ∀ symbol ∈ symbols, symbol ∉ indices
  membership_captured : ∀ index ∈ membershipIndices, index ∈ indices

inductive DecisionSessionName where
  | openingAuction
  | continuousAm
  | continuousPm
  | closingAuction
  deriving DecidableEq, Repr

/-- Position in `_SESSION_ORDER`. -/
def DecisionSessionName.index : DecisionSessionName → Nat
  | .openingAuction => 0
  | .continuousAm => 1
  | .continuousPm => 2
  | .closingAuction => 3

inductive EvaluationTier where
  | exploratory
  | promotion
  deriving DecidableEq, Repr

structure FeatureConfiguration where
  version : String
  cadenceSeconds : Nat
  windowsSeconds : List Nat
  warmupSeconds : Nat
  decisionSessions : List DecisionSessionName
  version_pattern : isVersionName version
  cadence_bounds : 1 ≤ cadenceSeconds ∧ cadenceSeconds ≤ 60
  cadence_minute : 60 % cadenceSeconds = 0
  windows_nonempty : windowsSeconds ≠ []
  windows_ascending : windowsSeconds.Pairwise (· < ·)
  windows_aligned : ∀ window ∈ windowsSeconds,
    cadenceSeconds ≤ window ∧ window ≤ 86400 ∧ window % cadenceSeconds = 0
  warmup_bounds : 1 ≤ warmupSeconds ∧ warmupSeconds ≤ 86400
  warmup_covers : ∀ window ∈ windowsSeconds, window ≤ warmupSeconds
  warmup_aligned : warmupSeconds % cadenceSeconds = 0
  decisionSessions_nonempty : decisionSessions ≠ []
  decisionSessions_ordered :
    decisionSessions.Pairwise fun left right => left.index < right.index

structure OutcomeVersion extends EffectiveVersion where
  horizonsSeconds : List Nat
  orderQuantity : Nat
  executionLatencyMilliseconds : Nat
  horizons_nonempty : horizonsSeconds ≠ []
  horizons_ascending : horizonsSeconds.Pairwise (· < ·)
  horizons_bounds : ∀ horizon ∈ horizonsSeconds, 1 ≤ horizon ∧ horizon ≤ 86400
  orderQuantity_pos : 1 ≤ orderQuantity
  latency_bound : executionLatencyMilliseconds ≤ 60000
  latency_precedes : ∀ horizon ∈ horizonsSeconds,
    executionLatencyMilliseconds < horizon * 1000

structure BaselineEvaluationVersion extends EffectiveVersion where
  tier : EvaluationTier
  developmentSessions : Nat
  holdoutSessions : Nat
  purgeSessions : Nat
  development_bound : 2 ≤ developmentSessions
  holdout_bound : 1 ≤ holdoutSessions
  purge_bound : 1 ≤ purgeSessions

structure CandidateArbitrationRule where
  strategy : String
  priority : Nat
  minimumStrength : Rat
  horizonSeconds : Nat
  strategy_pattern : isStrategyName strategy
  minimumStrength_bounds : 0 ≤ minimumStrength ∧ minimumStrength ≤ 1
  horizon_bounds : 1 ≤ horizonSeconds ∧ horizonSeconds ≤ 86400

structure CandidateArbitrationVersion extends EffectiveVersion where
  candidateVersion : String
  cooldownSeconds : Nat
  maximumSelectionsPerClock : Nat
  rules : List CandidateArbitrationRule
  candidateVersion_pattern : isVersionName candidateVersion
  cooldown_bound : cooldownSeconds ≤ 86400
  selections_pos : 1 ≤ maximumSelectionsPerClock
  strategies_unique : rules ≠ [] ∧ (rules.map CandidateArbitrationRule.strategy).Nodup
  priorities_contiguous :
    (rules.map CandidateArbitrationRule.priority).Perm (List.range rules.length)
  cooldown_covers : ∀ rule ∈ rules, rule.horizonSeconds ≤ cooldownSeconds

structure PromotionTarget where
  strategy : String
  symbol : String
  horizonSeconds : Nat
  strategy_pattern : isStrategyName strategy
  symbol_pattern : isSymbolName symbol
  horizon_bounds : 1 ≤ horizonSeconds ∧ horizonSeconds ≤ 86400

/-- Tuple order of promotion targets. -/
def PromotionTarget.before (left right : PromotionTarget) : Prop :=
  left.strategy < right.strategy ∨ left.strategy = right.strategy ∧
    (left.symbol < right.symbol ∨ left.symbol = right.symbol ∧
      left.horizonSeconds < right.horizonSeconds)

instance : DecidableRel PromotionTarget.before := fun left right => by
  unfold PromotionTarget.before; infer_instance

structure PromotionGateVersion extends EffectiveVersion where
  evaluationVersion : String
  arbitrationVersion : String
  minimumSelectedCount : Nat
  minimumOutcomeCoverageRate : Rat
  minimumPositiveNetRate : Rat
  minimumAverageNetReturnBps : Rat
  minimumWorstFoldNetReturnBps : Rat
  maximumCaptureGapCount : Nat
  targets : List PromotionTarget
  selectedCount_pos : 1 ≤ minimumSelectedCount
  coverageRate_bounds : 0 ≤ minimumOutcomeCoverageRate ∧ minimumOutcomeCoverageRate ≤ 1
  positiveRate_bounds : 0 ≤ minimumPositiveNetRate ∧ minimumPositiveNetRate ≤ 1
  targets_nonempty : targets ≠ []
  targets_ordered : targets.Pairwise PromotionTarget.before
  worst_below_average : minimumWorstFoldNetReturnBps ≤ minimumAverageNetReturnBps

structure PaperExecutionVersion extends EffectiveVersion where
  arbitrationVersion : String
  promotionGateVersion : String
  contextVersion : String
  orderQuantity : Nat
  lotSize : Nat
  maximumQuoteAgeSeconds : Nat
  limitOffsetTicks : Nat
  timeInForceSeconds : Nat
  orderQuantity_pos : 1 ≤ orderQuantity
  lotSize_pos : 1 ≤ lotSize
  quoteAge_bounds : 1 ≤ maximumQuoteAgeSeconds ∧ maximumQuoteAgeSeconds ≤ 300
  offset_bound : limitOffsetTicks ≤ 100
  timeInForce_bounds : 1 ≤ timeInForceSeconds ∧ timeInForceSeconds ≤ 300
  quantity_in_lots : orderQuantity % lotSize = 0

structure ContextVersion extends EffectiveVersion where
  zoneLookbackSeconds : Nat
  zoneMinimumObservations : Nat
  zoneToleranceBps : Rat
  marketWindowsSeconds : Nat × Nat
  indexStaleAfterSeconds : Nat
  historicalProxyIntervalSeconds : Nat
  historicalProxyStaleAfterSeconds : Nat
  tradableMarketStatuses : List String
  trendThresholdBps : Rat
  highVolatilityThresholdBps : Rat
  lookback_bounds : 60 ≤ zoneLookbackSeconds ∧ zoneLookbackSeconds ≤ 86400
  observations_bound : 2 ≤ zoneMinimumObservations
  tolerance_pos : 0 < zoneToleranceBps
  indexStale_bounds : 1 ≤ indexStaleAfterSeconds ∧ indexStaleAfterSeconds ≤ 900
  proxyInterval_bounds :
    1 ≤ historicalProxyIntervalSeconds ∧ historicalProxyIntervalSeconds ≤ 900
  proxyStale_bounds :
    1 ≤ historicalProxyStaleAfterSeconds ∧ historicalProxyStaleAfterSeconds ≤ 900
  trend_pos : 0 < trendThresholdBps
  volatility_pos : 0 < highVolatilityThresholdBps
  windows_ascending : 1 ≤ marketWindowsSeconds.1 ∧
    marketWindowsSeconds.1 < marketWindowsSeconds.2 ∧
    marketWindowsSeconds.2 ≤ zoneLookbackSeconds
  proxyStale_covers : historicalProxyIntervalSeconds ≤ historicalProxyStaleAfterSeconds
  statuses_unique : UniqueIdentifiers tradableMarketStatuses

structure BreadthVersion extends EffectiveVersion where
  indices : List String
  lookbackSeconds : Nat
  staleAfterSeconds : Nat
  minimumParticipation : Rat
  confirmationAdvanceRatio : Rat
  indices_unique : UniqueIdentifiers indices
  lookback_bounds : 60 ≤ lookbackSeconds ∧ lookbackSeconds ≤ 3600
  lookback_minutes : lookbackSeconds % 60 = 0
  stale_bounds : 60 ≤ staleAfterSeconds ∧ staleAfterSeconds ≤ 900
  participation_bounds : 0 < minimumParticipation ∧ minimumParticipation ≤ 1
  advance_bounds : 1 / 2 < confirmationAdvanceRatio ∧ confirmationAdvanceRatio ≤ 1

structure TradingVersion extends EffectiveVersion where
  market : MarketConfiguration
  dataQuality : DataQualityConfiguration
  features : FeatureConfiguration

inductive RegimeBasis where
  | officialIndex
  | constituentBreadth
  deriving DecidableEq, Repr

structure RegimeVersion extends EffectiveVersion where
  basis : RegimeBasis
  referenceIndex : Option String
  trendThresholdBps : Option Rat
  highDispersionThresholdBps : Option Rat
  trend_pos : ∀ threshold ∈ trendThresholdBps, 0 < threshold
  dispersion_pos : ∀ threshold ∈ highDispersionThresholdBps, 0 < threshold
  breadth_declared : basis = .constituentBreadth →
    (∃ index ∈ referenceIndex, isUpperIdentifier index) ∧
      trendThresholdBps.isSome ∧ highDispersionThresholdBps.isSome
  official_bare : basis = .officialIndex →
    referenceIndex = none ∧ trendThresholdBps = none ∧ highDispersionThresholdBps = none

/-! ## Content identities -/

section

variable {D : Type}

private def sessionText : DecisionSessionName → String
  | .openingAuction => "opening_auction"
  | .continuousAm => "continuous_am"
  | .continuousPm => "continuous_pm"
  | .closingAuction => "closing_auction"

private def basisText : RegimeBasis → String
  | .officialIndex => "OFFICIAL_INDEX"
  | .constituentBreadth => "CONSTITUENT_BREADTH"

def OutcomeVersion.identity (policy : OutcomeVersion) : Json D :=
  .arr (policy.openEnded.append [.list .nat policy.horizonsSeconds,
    .nat policy.orderQuantity, .nat policy.executionLatencyMilliseconds])

def CandidateArbitrationRule.modelDump (rule : CandidateArbitrationRule) : Json D :=
  .arr [.str rule.strategy, .nat rule.priority, .num rule.minimumStrength,
    .nat rule.horizonSeconds]

def CandidateArbitrationVersion.identity (policy : CandidateArbitrationVersion) : Json D :=
  .arr (policy.openEnded.append [.str policy.candidateVersion, .nat policy.cooldownSeconds,
    .nat policy.maximumSelectionsPerClock,
    .list CandidateArbitrationRule.modelDump policy.rules])

def PromotionTarget.modelDump (target : PromotionTarget) : Json D :=
  .arr [.str target.strategy, .str target.symbol, .nat target.horizonSeconds]

def PromotionGateVersion.identity (policy : PromotionGateVersion) : Json D :=
  .arr (policy.openEnded.append [.str policy.evaluationVersion, .str policy.arbitrationVersion,
    .nat policy.minimumSelectedCount, .num policy.minimumOutcomeCoverageRate,
    .num policy.minimumPositiveNetRate, .num policy.minimumAverageNetReturnBps,
    .num policy.minimumWorstFoldNetReturnBps, .nat policy.maximumCaptureGapCount,
    .list PromotionTarget.modelDump policy.targets])

def PaperExecutionVersion.identity (policy : PaperExecutionVersion) : Json D :=
  .arr (policy.openEnded.append [.str policy.arbitrationVersion,
    .str policy.promotionGateVersion, .str policy.contextVersion,
    .nat policy.orderQuantity, .nat policy.lotSize, .nat policy.maximumQuoteAgeSeconds,
    .nat policy.limitOffsetTicks, .nat policy.timeInForceSeconds])

def ContextVersion.identity (policy : ContextVersion) : Json D :=
  .arr (policy.openEnded.append [.nat policy.zoneLookbackSeconds,
    .nat policy.zoneMinimumObservations, .num policy.zoneToleranceBps,
    .nat policy.marketWindowsSeconds.1, .nat policy.marketWindowsSeconds.2,
    .nat policy.indexStaleAfterSeconds, .nat policy.historicalProxyIntervalSeconds,
    .nat policy.historicalProxyStaleAfterSeconds,
    .list .str policy.tradableMarketStatuses, .num policy.trendThresholdBps,
    .num policy.highVolatilityThresholdBps])

def BreadthVersion.identity (policy : BreadthVersion) : Json D :=
  .arr (policy.openEnded.append [.list .str policy.indices, .nat policy.lookbackSeconds,
    .nat policy.staleAfterSeconds, .num policy.minimumParticipation,
    .num policy.confirmationAdvanceRatio])

def RegimeVersion.identity (policy : RegimeVersion) : Json D :=
  .arr (policy.openEnded.append [.str (basisText policy.basis),
    .opt .str policy.referenceIndex, .opt .num policy.trendThresholdBps,
    .opt .num policy.highDispersionThresholdBps])

def TradingVersion.identity (version : TradingVersion) : Json D :=
  .arr (version.openEnded.append [.str version.market.timezone.key,
    .list .str version.market.symbols, .list .str version.market.indices,
    .list .str version.market.statusMarkets, .nat version.market.quoteDepth,
    .nat version.market.barIntervalSeconds, version.market.sessions.modelDump,
    .nat version.dataQuality.tradeStaleAfterSeconds,
    .nat version.dataQuality.quoteStaleAfterSeconds, .str version.features.version,
    .nat version.features.cadenceSeconds, .list .nat version.features.windowsSeconds,
    .nat version.features.warmupSeconds,
    .list (fun name => .str (sessionText name)) version.features.decisionSessions])

variable [Hashing D]

def OutcomeVersion.sha256 (policy : OutcomeVersion) : D := Hashing.sha256 policy.identity

def CandidateArbitrationVersion.sha256 (policy : CandidateArbitrationVersion) : D :=
  Hashing.sha256 policy.identity

def PromotionGateVersion.sha256 (policy : PromotionGateVersion) : D :=
  Hashing.sha256 policy.identity

def PaperExecutionVersion.sha256 (policy : PaperExecutionVersion) : D :=
  Hashing.sha256 policy.identity

def ContextVersion.sha256 (policy : ContextVersion) : D := Hashing.sha256 policy.identity

def BreadthVersion.sha256 (policy : BreadthVersion) : D := Hashing.sha256 policy.identity

def RegimeVersion.sha256 (policy : RegimeVersion) : D := Hashing.sha256 policy.identity

def TradingVersion.sha256 (version : TradingVersion) : D := Hashing.sha256 version.identity

end

/-! ## Resolution -/

/-- `_resolve_effective`: the one version of a family effective on a date. -/
def resolveEffective {α : Type} (family : α → EffectiveVersion) (label : String)
    (values : List α) (value : Day) : Except Raised α :=
  match values.filter fun item => (family item).contains value with
  | [item] => .ok item
  | found => .error (.configurationError label value found.length)

/-- `TradingConfiguration._resolve_optional`: no version before the family
starts, one version from then on. -/
def resolveOptional {α : Type} (family : α → EffectiveVersion) (label : String)
    (values : List α) (value : Day) : Except Raised (Option α) :=
  match values.filter fun item => (family item).contains value with
  | [item] => .ok (some item)
  | first :: second :: rest =>
      .error (.configurationError label value (first :: second :: rest).length)
  | [] =>
      match values with
      | [] => .error .indexError
      | first :: _ =>
          if value < (family first).effectiveFrom then .ok none
          else .error (.configurationError label value 0)

/-- `TradingConfiguration.resolve_breadth` on its family. -/
def resolveBreadth (breadth : List BreadthVersion) (value : Day) :
    Except Raised (Option BreadthVersion) :=
  if breadth = [] then .ok none
  else resolveOptional BreadthVersion.toEffectiveVersion "breadth" breadth value

/-- The dates on which a constituent regime's breadth policy is looked up. -/
def regimeBoundaries (regime : RegimeVersion) (breadth : List BreadthVersion) : List Day :=
  regime.effectiveFrom :: breadth.filterMap fun item =>
    item.effectiveTo.bind fun last =>
      if regime.contains (last + 1) then some (last + 1) else none

/-- The whole document: every family and the checks across families. -/
structure TradingConfiguration where
  capture : CaptureConfiguration
  versions : List TradingVersion
  outcomes : List OutcomeVersion
  baselineEvaluations : List BaselineEvaluationVersion
  candidateArbitrations : List CandidateArbitrationVersion
  promotionGates : List PromotionGateVersion
  paperExecutions : List PaperExecutionVersion
  contexts : List ContextVersion
  breadth : List BreadthVersion
  regimes : List RegimeVersion
  versions_family : EffectiveFamily (versions.map (·.toEffectiveVersion))
  outcomes_family : EffectiveFamily (outcomes.map (·.toEffectiveVersion))
  evaluations_family : ∀ tier : EvaluationTier, EffectiveFamily
    ((baselineEvaluations.filter (·.tier = tier)).map (·.toEffectiveVersion))
  evaluations_ordered : ∃ exploratory promotion,
    baselineEvaluations = exploratory ++ promotion ∧
      (∀ item ∈ exploratory, item.tier = .exploratory) ∧
      (∀ item ∈ promotion, item.tier = .promotion)
  evaluations_named : (baselineEvaluations.map (·.version)).Nodup
  arbitrations_family : EffectiveFamily (candidateArbitrations.map (·.toEffectiveVersion))
  gates_family : EffectiveFamily (promotionGates.map (·.toEffectiveVersion))
  executions_family : EffectiveFamily (paperExecutions.map (·.toEffectiveVersion))
  contexts_family : EffectiveFamily (contexts.map (·.toEffectiveVersion))
  breadth_family : breadth ≠ [] → EffectiveFamily (breadth.map (·.toEffectiveVersion))
  breadth_captured : ∀ item ∈ breadth, ∀ index ∈ item.indices,
    index ∈ capture.membershipIndices
  regimes_family : regimes ≠ [] → EffectiveFamily (regimes.map (·.toEffectiveVersion))
  regime_boundaries : ∀ regime ∈ regimes, regime.basis = .constituentBreadth →
    ∀ boundary ∈ regimeBoundaries regime breadth, ∃ item ∈ breadth,
      resolveBreadth breadth boundary = .ok (some item) ∧
        ∃ index ∈ regime.referenceIndex, index ∈ item.indices
  regime_overlaps : ∀ regime ∈ regimes, regime.basis = .constituentBreadth →
    ∀ item ∈ breadth, regime.overlaps item.toEffectiveVersion →
      ∃ index ∈ regime.referenceIndex, index ∈ item.indices
  arbitration_outcomes : ∀ arbitration ∈ candidateArbitrations,
    (∃ outcome ∈ outcomes, arbitration.overlaps outcome.toEffectiveVersion) ∧
      ∀ outcome ∈ outcomes, arbitration.overlaps outcome.toEffectiveVersion →
        ∀ rule ∈ arbitration.rules, rule.horizonSeconds ∈ outcome.horizonsSeconds
  gate_references : ∀ gate ∈ promotionGates,
    (∃ evaluation ∈ baselineEvaluations, evaluation.tier = .promotion ∧
      evaluation.version = gate.evaluationVersion ∧ evaluation.contains gate.effectiveFrom ∧
      ∀ last ∈ gate.effectiveTo, evaluation.contains last) ∧
    ∃ arbitration ∈ candidateArbitrations,
      arbitration.version = gate.arbitrationVersion ∧
      arbitration.contains gate.effectiveFrom ∧
      (∀ last ∈ gate.effectiveTo, arbitration.contains last) ∧
      ∀ target ∈ gate.targets, ∃ rule ∈ arbitration.rules,
        rule.strategy = target.strategy ∧ rule.horizonSeconds = target.horizonSeconds
  gate_markets : ∀ gate ∈ promotionGates,
    (∃ version ∈ versions, gate.overlaps version.toEffectiveVersion) ∧
      ∀ version ∈ versions, gate.overlaps version.toEffectiveVersion →
        ∀ target ∈ gate.targets, target.symbol ∈ version.market.symbols
  execution_references : ∀ execution ∈ paperExecutions,
    (∃ arbitration ∈ candidateArbitrations, arbitration.version = execution.arbitrationVersion ∧
      arbitration.contains execution.effectiveFrom ∧
      ∀ last ∈ execution.effectiveTo, arbitration.contains last) ∧
    (∃ gate ∈ promotionGates, gate.version = execution.promotionGateVersion ∧
      gate.arbitrationVersion = execution.arbitrationVersion ∧
      gate.contains execution.effectiveFrom ∧
      ∀ last ∈ execution.effectiveTo, gate.contains last) ∧
    ∃ context ∈ contexts, context.version = execution.contextVersion ∧
      context.contains execution.effectiveFrom ∧
      ∀ last ∈ execution.effectiveTo, context.contains last

namespace TradingConfiguration

variable (configuration : TradingConfiguration)

def resolve (value : Day) : Except Raised TradingVersion :=
  resolveEffective (·.toEffectiveVersion) "configuration" configuration.versions value

def resolveOutcomes (value : Day) : Except Raised OutcomeVersion :=
  resolveEffective (·.toEffectiveVersion) "outcome" configuration.outcomes value

def resolveContext (value : Day) : Except Raised ContextVersion :=
  resolveEffective (·.toEffectiveVersion) "context" configuration.contexts value

def resolveBreadth (value : Day) : Except Raised (Option BreadthVersion) :=
  MiniLakehouse.resolveBreadth configuration.breadth value

def resolveRegime (value : Day) : Except Raised (Option RegimeVersion) :=
  if configuration.regimes = [] then .ok none
  else resolveOptional (·.toEffectiveVersion) "regime" configuration.regimes value

def resolveCandidateArbitration (value : Day) :
    Except Raised (Option CandidateArbitrationVersion) :=
  resolveOptional (·.toEffectiveVersion) "candidate arbitration"
    configuration.candidateArbitrations value

def resolvePromotionGate (value : Day) : Except Raised (Option PromotionGateVersion) :=
  resolveOptional (·.toEffectiveVersion) "promotion gate" configuration.promotionGates value

def resolvePaperExecution (value : Day) : Except Raised (Option PaperExecutionVersion) :=
  resolveOptional (·.toEffectiveVersion) "paper execution"
    configuration.paperExecutions value

end TradingConfiguration

end MiniLakehouse
