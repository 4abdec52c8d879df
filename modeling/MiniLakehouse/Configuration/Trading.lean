import MiniLakehouse.Configuration

/-!
# The repository's configuration

`config/trading.yaml` as a `TradingConfiguration`: every validator of the
document, within and across its families, accepts it.
-/

namespace MiniLakehouse.Trading

/-- 2026-08-27, from which the first families are effective. -/
def firstDay : Day := 20692

/-- 2026-09-28, from which arbitration and paper execution are declared. -/
def arbitrationDay : Day := 20724

/-- 2026-10-02, from which breadth is declared. -/
def breadthDay : Day := 20728

/-- 2026-10-09, from which the constituent regime is declared. -/
def regimeDay : Day := 20735

/-- An open-ended version. -/
private abbrev since (version : String) (day : Day) (h : isVersionName version := by decide) :
    EffectiveVersion :=
  ⟨version, day, none, h, by simp⟩

def timezone : ZoneInfo := ⟨"Asia/Ho_Chi_Minh", seconds 25200, []⟩

/-- A time of day in hours and minutes. -/
private def clock (hours minutes : Int) : TimeOfDay := seconds (hours * 3600 + minutes * 60)

def sessions : SessionScheduleConfiguration where
  openingAuction := (clock 9 0, clock 9 15)
  continuousAm := (clock 9 15, clock 11 30)
  continuousPm := (clock 13 0, clock 14 30)
  closingAuction := (clock 14 30, clock 14 45)
  times_in_day := by decide
  windows_positive := by decide
  opening_meets_am := by decide
  am_before_pm := by decide
  pm_meets_closing := by decide

def market : MarketConfiguration where
  timezone := timezone
  symbols := ["VIC", "VHM"]
  indices := ["VNINDEX", "VN30"]
  statusMarkets := ["HOSE"]
  quoteDepth := 3
  barIntervalSeconds := 60
  sessions := sessions
  symbols_unique := by decide
  indices_unique := by decide
  statusMarkets_unique := by decide
  quoteDepth_bounds := by decide
  barInterval_pos := by decide
  barInterval_minute := by decide
  boundaries_aligned := by decide

def features : FeatureConfiguration where
  version := "microstructure-v1"
  cadenceSeconds := 5
  windowsSeconds := [30, 60, 300]
  warmupSeconds := 300
  decisionSessions := [.continuousAm, .continuousPm]
  version_pattern := by decide
  cadence_bounds := by decide
  cadence_minute := by decide
  windows_nonempty := by decide
  windows_ascending := by decide
  windows_aligned := by decide
  warmup_bounds := by decide
  warmup_covers := by decide
  warmup_aligned := by decide
  decisionSessions_nonempty := by decide
  decisionSessions_ordered := by decide

def marketState : TradingVersion where
  toEffectiveVersion := since "market-state-v1" firstDay
  market := market
  dataQuality := ⟨90, 30, by decide, by decide⟩
  features := features

def outcomes : OutcomeVersion where
  toEffectiveVersion := since "top3-taker-markout-v1" firstDay
  horizonsSeconds := [30, 60, 300]
  orderQuantity := 100
  executionLatencyMilliseconds := 500
  horizons_nonempty := by decide
  horizons_ascending := by decide
  horizons_bounds := by decide
  orderQuantity_pos := by decide
  latency_bound := by decide
  latency_precedes := by decide

def exploratoryEvaluation : BaselineEvaluationVersion where
  toEffectiveVersion := since "exploratory-baseline-holdout-v1" firstDay
  tier := .exploratory
  developmentSessions := 10
  holdoutSessions := 5
  purgeSessions := 1
  development_bound := by decide
  holdout_bound := by decide
  purge_bound := by decide

def promotionEvaluation : BaselineEvaluationVersion where
  toEffectiveVersion := since "promotion-baseline-holdout-v1" firstDay
  tier := .promotion
  developmentSessions := 20
  holdoutSessions := 5
  purgeSessions := 1
  development_bound := by decide
  holdout_bound := by decide
  purge_bound := by decide

/-- A rule of the declared arbitration: no minimum strength, a 300 s horizon. -/
private def rule (strategy : String) (priority : Nat)
    (h : isStrategyName strategy := by decide) : CandidateArbitrationRule :=
  ⟨strategy, priority, 0, 300, h, by decide, by decide⟩

def candidateArbitration : CandidateArbitrationVersion where
  toEffectiveVersion := since "buy-first-candidate-arbitration-v1" arbitrationDay
  candidateVersion := "buy-first-baselines-v3"
  cooldownSeconds := 300
  maximumSelectionsPerClock := 2
  rules := [rule "vic_vhm_relative" 0, rule "momentum_pullback" 1, rule "mean_reversion" 2]
  candidateVersion_pattern := by decide
  cooldown_bound := by decide
  selections_pos := by decide
  strategies_unique := by decide
  priorities_contiguous := by decide
  cooldown_covers := by decide

private def target (strategy symbol : String) (h : isStrategyName strategy := by decide)
    (h' : isSymbolName symbol := by decide) : PromotionTarget :=
  ⟨strategy, symbol, 300, h, h', by decide⟩

def promotionGate : PromotionGateVersion where
  toEffectiveVersion := since "shadow-to-paper-v1" arbitrationDay
  evaluationVersion := "promotion-baseline-holdout-v1"
  arbitrationVersion := "buy-first-candidate-arbitration-v1"
  minimumSelectedCount := 5
  minimumOutcomeCoverageRate := 9 / 10
  minimumPositiveNetRate := 55 / 100
  minimumAverageNetReturnBps := 0
  minimumWorstFoldNetReturnBps := -10
  maximumCaptureGapCount := 0
  targets := [target "mean_reversion" "VHM", target "mean_reversion" "VIC",
    target "momentum_pullback" "VHM", target "momentum_pullback" "VIC",
    target "vic_vhm_relative" "VHM", target "vic_vhm_relative" "VIC"]
  selectedCount_pos := by decide
  coverageRate_bounds := by decide +kernel
  positiveRate_bounds := by decide +kernel
  targets_nonempty := by decide
  targets_ordered := by decide
  worst_below_average := by decide

def paperExecution : PaperExecutionVersion where
  toEffectiveVersion := since "buy-first-paper-execution-v1" arbitrationDay
  arbitrationVersion := "buy-first-candidate-arbitration-v1"
  promotionGateVersion := "shadow-to-paper-v1"
  contextVersion := "decision-context-v3"
  orderQuantity := 100
  lotSize := 100
  maximumQuoteAgeSeconds := 5
  limitOffsetTicks := 0
  timeInForceSeconds := 5
  orderQuantity_pos := by decide
  lotSize_pos := by decide
  quoteAge_bounds := by decide
  offset_bound := by decide
  timeInForce_bounds := by decide
  quantity_in_lots := by decide

def breadth : BreadthVersion where
  toEffectiveVersion := since "constituent-breadth-v1" breadthDay
  indices := ["VN30", "VNREAL"]
  lookbackSeconds := 300
  staleAfterSeconds := 90
  minimumParticipation := 8 / 10
  confirmationAdvanceRatio := 6 / 10
  indices_unique := by decide
  lookback_bounds := by decide
  lookback_minutes := by decide
  stale_bounds := by decide
  participation_bounds := by decide +kernel
  advance_bounds := by decide +kernel

def regime : RegimeVersion where
  toEffectiveVersion := since "constituent-regime-v1" regimeDay
  basis := .constituentBreadth
  referenceIndex := some "VN30"
  trendThresholdBps := some 10
  highDispersionThresholdBps := some 150
  trend_pos := by decide
  dispersion_pos := by decide
  breadth_declared := by decide
  official_bare := by decide

def decisionContext : ContextVersion where
  toEffectiveVersion := since "decision-context-v3" firstDay
  zoneLookbackSeconds := 900
  zoneMinimumObservations := 12
  zoneToleranceBps := 20
  marketWindowsSeconds := (60, 300)
  indexStaleAfterSeconds := 30
  historicalProxyIntervalSeconds := 60
  historicalProxyStaleAfterSeconds := 65
  tradableMarketStatuses := ["LO", "OPEN", "CONTINUOUS"]
  trendThresholdBps := 10
  highVolatilityThresholdBps := 20
  lookback_bounds := by decide
  observations_bound := by decide
  tolerance_pos := by decide
  indexStale_bounds := by decide
  proxyInterval_bounds := by decide
  proxyStale_bounds := by decide
  trend_pos := by decide
  volatility_pos := by decide
  windows_ascending := by decide
  proxyStale_covers := by decide
  statuses_unique := by decide

def capture : CaptureConfiguration where
  symbols := ["VIC", "VHM"]
  indices := ["VNINDEX", "VN30", "VNREAL"]
  membershipIndices := ["VN30", "VNREAL"]
  markets := ["HOSE"]
  symbols_unique := by decide
  indices_unique := by decide
  membershipIndices_unique := by decide
  markets_unique := by decide
  disjoint := by decide
  membership_captured := by decide

/-- **The shipped document is valid.** -/
def configuration : TradingConfiguration where
  capture := capture
  versions := [marketState]
  outcomes := [outcomes]
  baselineEvaluations := [exploratoryEvaluation, promotionEvaluation]
  candidateArbitrations := [candidateArbitration]
  promotionGates := [promotionGate]
  paperExecutions := [paperExecution]
  contexts := [decisionContext]
  breadth := [breadth]
  regimes := [regime]
  versions_family := by decide
  outcomes_family := by decide
  evaluations_family := by rintro (_ | _) <;> decide
  evaluations_ordered :=
    ⟨[exploratoryEvaluation], [promotionEvaluation], rfl, by decide, by decide⟩
  evaluations_named := by decide
  arbitrations_family := by decide
  gates_family := by decide
  executions_family := by decide
  contexts_family := by decide
  breadth_family := by decide
  breadth_captured := by decide
  regimes_family := by decide
  regime_boundaries := by
    intro item hitem _ boundary hboundary
    obtain rfl : item = regime := by simpa using hitem
    have hcovered : breadth.contains boundary := by
      revert boundary
      decide
    exact ⟨breadth, by simp, by simp [resolveBreadth, resolveOptional, hcovered], by decide⟩
  regime_overlaps := by decide
  arbitration_outcomes := by decide
  gate_references := by decide
  gate_markets := by decide
  execution_references := by decide

end MiniLakehouse.Trading
