import MiniLakehouse.Context.Breadth
import MiniLakehouse.Strategy.Candidate

/-!
# Decision contexts

The immutable context of one decision clock (`context/model.py`).  Every record carries the
checks of its validator; `DecisionContext.zone` and `selectionBlockReason` are what scoring and
the realtime handoff read of it.
-/

namespace MiniLakehouse

/-- `value == value.strip().upper()`, the empty text included. -/
def isUppercaseText (value : String) : Bool := value.isEmpty || isUpperIdentifier value

inductive IndexSourceKind where
  | ssiStreamTrade
  | ssiRestIndex1mHistorical
  deriving DecidableEq, Repr

inductive MarketStatusSourceKind where
  | ssiStreamMarketStatus
  | configuredMarketCalendar
  deriving DecidableEq, Repr

namespace IndexSourceKind

def text : IndexSourceKind → String
  | .ssiStreamTrade => "ssi_stream_trade"
  | .ssiRestIndex1mHistorical => "ssi_rest_index_1m_historical"

end IndexSourceKind

namespace MarketStatusSourceKind

def text : MarketStatusSourceKind → String
  | .ssiStreamMarketStatus => "ssi_stream_market_status"
  | .configuredMarketCalendar => "configured_market_calendar"

end MarketStatusSourceKind

/-- All values are present, or none is. -/
def whollyPresent (present : List Bool) : Bool := present.all id || !present.any id

variable {D : Type}

/-! ## Zones -/

structure ZoneContextFields (D : Type) where
  symbol : String
  currentFeatureSnapshotSha256 : D
  historySha256 : Option D
  observationCount : Nat
  support : Option Rat
  resistance : Option Rat
  supportDistanceBps : Option Rat
  resistanceDistanceBps : Option Rat
  nearSupportStrength : Option Rat

namespace ZoneContextFields

/-- `ZoneContext.validate_zone` with the field constraints. -/
def checks (fields : ZoneContextFields D) : List (Check Raised) :=
  [⟨fields.support.all (0 < ·), .fieldError "support"⟩,
    ⟨fields.resistance.all (0 < ·), .fieldError "resistance"⟩,
    ⟨fields.nearSupportStrength.all fun value => 0 ≤ value && value ≤ 1,
      .fieldError "near_support_strength"⟩,
    ⟨whollyPresent [fields.historySha256.isSome, fields.support.isSome, fields.resistance.isSome,
        fields.supportDistanceBps.isSome, fields.resistanceDistanceBps.isSome,
        fields.nearSupportStrength.isSome],
      .valueError "zone values must be wholly present or absent"⟩,
    ⟨fields.support.all fun support => fields.resistance.all (support ≤ ·),
      .valueError "zone support cannot exceed resistance"⟩]

def modelDump (fields : ZoneContextFields D) : Json D :=
  .arr [.str fields.symbol, .sha fields.currentFeatureSnapshotSha256,
    .opt .sha fields.historySha256, .nat fields.observationCount, .opt .num fields.support,
    .opt .num fields.resistance, .opt .num fields.supportDistanceBps,
    .opt .num fields.resistanceDistanceBps, .opt .num fields.nearSupportStrength]

end ZoneContextFields

structure ZoneContext (D : Type) extends ZoneContextFields D where
  valid : AllHold toZoneContextFields.checks

def ZoneContext.modelValidate (fields : ZoneContextFields D) : Except Raised (ZoneContext D) :=
  validated fields.checks fun valid => ⟨fields, valid⟩

/-! ## Indices -/

structure MarketWindowContext where
  windowSeconds : Nat
  returnBps : Rat
  realizedVolatilityBps : Rat
  windowSeconds_pos : 1 ≤ windowSeconds
  volatility_nonneg : 0 ≤ realizedVolatilityBps

def MarketWindowContext.modelDump (window : MarketWindowContext) : Json D :=
  .arr [.nat window.windowSeconds, .num window.returnBps, .num window.realizedVolatilityBps]

/-- `MarketWindowContext(…)` -/
def MarketWindowContext.modelValidate (windowSeconds : Nat) (returnBps volatility : Rat) :
    Except Raised MarketWindowContext :=
  if hseconds : 1 ≤ windowSeconds then
    if hvolatility : 0 ≤ volatility then
      .ok ⟨windowSeconds, returnBps, volatility, hseconds, hvolatility⟩
    else .error (.fieldError "realized_volatility_bps")
  else .error (.fieldError "window_seconds")

structure IndexContextFields (D : Type) where
  index : String
  value : Option Rat
  ageSeconds : Option Rat
  sourceKind : Option IndexSourceKind
  sourceRecordSha256 : Option D
  streamSessionId : Option String
  receiveSequence : Option Nat
  windows : List MarketWindowContext
  reasons : List String

namespace IndexContextFields

/-- `IndexContext.validate_index` with the field constraints. -/
def checks (fields : IndexContextFields D) : List (Check Raised) :=
  [⟨fields.value.all (0 < ·), .fieldError "value"⟩,
    ⟨fields.ageSeconds.all (0 ≤ ·), .fieldError "age_seconds"⟩,
    ⟨fields.streamSessionId.all (· != ""), .fieldError "stream_session_id"⟩,
    ⟨fields.receiveSequence.all (1 ≤ ·), .fieldError "receive_sequence"⟩,
    ⟨isUppercaseText fields.index, .valueError "index identifier must be uppercase"⟩,
    ⟨whollyPresent [fields.value.isSome, fields.ageSeconds.isSome, fields.sourceKind.isSome,
        fields.sourceRecordSha256.isSome],
      .valueError "index value lineage must be wholly present or absent"⟩,
    ⟨fields.streamSessionId.isNone == fields.receiveSequence.isNone,
      .valueError "index stream position must be wholly present or absent"⟩,
    ⟨fields.sourceKind != some .ssiStreamTrade || fields.streamSessionId.isSome,
      .valueError "live index context requires stream position lineage"⟩,
    ⟨fields.sourceKind == some .ssiStreamTrade || fields.streamSessionId.isNone,
      .valueError "historical index context cannot carry stream position lineage"⟩,
    ⟨(fields.windows.map (·.windowSeconds)).Pairwise (· < ·),
      .valueError "index windows must be unique and ascending"⟩,
    ⟨fields.reasons.Nodup, .valueError "index reasons must be unique"⟩]

def modelDump (fields : IndexContextFields D) : Json D :=
  .arr [.str fields.index, .opt .num fields.value, .opt .num fields.ageSeconds,
    .opt (fun kind => .str (IndexSourceKind.text kind)) fields.sourceKind,
    .opt .sha fields.sourceRecordSha256, .opt .str fields.streamSessionId,
    .opt .nat fields.receiveSequence, .list MarketWindowContext.modelDump fields.windows,
    .list .str fields.reasons]

end IndexContextFields

structure IndexContext (D : Type) extends IndexContextFields D where
  valid : AllHold toIndexContextFields.checks

def IndexContext.modelValidate (fields : IndexContextFields D) : Except Raised (IndexContext D) :=
  validated fields.checks fun valid => ⟨fields, valid⟩

/-! ## Market statuses -/

structure MarketStatusContextFields (D : Type) where
  market : String
  status : Option String
  ageSeconds : Option Rat
  isTradable : Bool
  sourceKind : Option MarketStatusSourceKind
  sourceRecordSha256 : Option D
  streamSessionId : Option String
  receiveSequence : Option Nat
  reasons : List String

namespace MarketStatusContextFields

/-- `MarketStatusContext.validate_status` with the field constraints. -/
def checks (fields : MarketStatusContextFields D) : List (Check Raised) :=
  [⟨fields.ageSeconds.all (0 ≤ ·), .fieldError "age_seconds"⟩,
    ⟨fields.streamSessionId.all (· != ""), .fieldError "stream_session_id"⟩,
    ⟨fields.receiveSequence.all (1 ≤ ·), .fieldError "receive_sequence"⟩,
    ⟨isUpperIdentifier fields.market, .valueError "market-status market must be uppercase"⟩,
    ⟨fields.status.all isUppercaseText, .valueError "market status must be uppercase"⟩,
    ⟨whollyPresent [fields.status.isSome, fields.ageSeconds.isSome, fields.sourceKind.isSome,
        fields.sourceRecordSha256.isSome],
      .valueError "market-status lineage must be wholly present or absent"⟩,
    ⟨fields.streamSessionId.isNone == fields.receiveSequence.isNone,
      .valueError "market-status stream position must be wholly present or absent"⟩,
    ⟨fields.sourceKind != some .ssiStreamMarketStatus || fields.streamSessionId.isSome,
      .valueError "live market status requires stream position lineage"⟩,
    ⟨fields.sourceKind == some .ssiStreamMarketStatus || fields.streamSessionId.isNone,
      .valueError "calendar market status cannot carry stream position lineage"⟩,
    ⟨fields.isTradable == (fields.reasons == []),
      .valueError "market-status tradability must match its reasons"⟩,
    ⟨fields.reasons.Nodup, .valueError "market-status reasons must be unique"⟩]

def modelDump (fields : MarketStatusContextFields D) : Json D :=
  .arr [.str fields.market, .opt .str fields.status, .opt .num fields.ageSeconds,
    .bool fields.isTradable,
    .opt (fun kind => .str (MarketStatusSourceKind.text kind)) fields.sourceKind,
    .opt .sha fields.sourceRecordSha256, .opt .str fields.streamSessionId,
    .opt .nat fields.receiveSequence, .list .str fields.reasons]

end MarketStatusContextFields

structure MarketStatusContext (D : Type) extends MarketStatusContextFields D where
  valid : AllHold toMarketStatusContextFields.checks

def MarketStatusContext.modelValidate (fields : MarketStatusContextFields D) :
    Except Raised (MarketStatusContext D) :=
  validated fields.checks fun valid => ⟨fields, valid⟩

/-! ## Breadth -/

def BreadthContext.modelDump (context : BreadthContext D) : Json D :=
  .arr [.str context.index, .str context.policyVersion, .sha context.policySha256,
    .opt .sha context.membershipSha256, .sha context.observationsSha256,
    .nat context.lookbackSeconds, .nat context.expectedCount, .nat context.observedCount,
    .opt .num context.participation, .opt .num context.advanceRatio,
    .opt .num context.meanReturnBps, .opt .num context.dispersionBps,
    .opt .bool context.upwardConfirmation, .list .str context.reasons]

/-! ## Contexts -/

structure DecisionContextFields (D : Type) where
  contextVersion : String
  contextConfigurationSha256 : D
  featureConfigurationSha256 : D
  dataMode : ContextDataMode
  tradeDate : Day
  decisionAt : Instant
  zones : List (ZoneContext D)
  indices : List (IndexContext D)
  marketStatuses : List (MarketStatusContext D)
  breadth : List (BreadthContext D)
  marketBasis : Option RegimeBasis
  regimePolicyVersion : Option String
  regimePolicySha256 : Option D
  marketReferenceIndex : Option String
  marketConfirmationStrength : Option Rat
  regime : MarketRegime
  reasons : List String

namespace DecisionContextFields

/-- A classified constituent regime has its reference among the breadth. -/
def hasReference (fields : DecisionContextFields D) : Bool :=
  (fields.breadth.find? fun item => some item.index == fields.marketReferenceIndex).any
    (·.reasons == [])

/-- `DecisionContext.validate_context` with the field constraints. -/
def checks (fields : DecisionContextFields D) : List (Check Raised) :=
  [⟨isVersionName fields.contextVersion, .fieldError "context_version"⟩,
    ⟨fields.regimePolicyVersion.all isVersionName, .fieldError "regime_policy_version"⟩,
    ⟨fields.marketConfirmationStrength.all fun value => 0 ≤ value && value ≤ 1,
      .fieldError "market_confirmation_strength"⟩,
    ⟨whollyPresent [fields.marketBasis.isSome, fields.regimePolicyVersion.isSome,
        fields.regimePolicySha256.isSome],
      .valueError "regime basis and policy lineage must be wholly present or absent"⟩,
    ⟨fields.marketReferenceIndex.isSome == (fields.marketBasis == some .constituentBreadth),
      .valueError "only constituent regime requires a reference index"⟩,
    ⟨fields.marketBasis.isNone || fields.dataMode == .live,
      .valueError "declared realtime regime cannot use historical proxy context"⟩,
    ⟨!(fields.marketBasis == some .constituentBreadth && fields.regime != .unknown) ||
        fields.hasReference,
      .valueError "classified constituent regime requires eligible reference evidence"⟩,
    ⟨(fields.breadth.map (·.index)).Pairwise (· < ·),
      .valueError "breadth indices must be unique and sorted"⟩,
    ⟨(fields.zones.map (·.symbol)).Pairwise (· < ·),
      .valueError "context zones must be unique and sorted"⟩,
    ⟨(fields.indices.map (·.index)).Pairwise (· < ·),
      .valueError "context indices must be unique and sorted"⟩,
    ⟨(fields.marketStatuses.map (·.market)).Pairwise (· < ·),
      .valueError "market statuses must be unique and sorted"⟩,
    ⟨fields.reasons.Nodup, .valueError "context reasons must be unique"⟩,
    ⟨fields.regime != .unknown || fields.reasons != [],
      .valueError "unknown regime requires an explicit reason"⟩,
    ⟨fields.regime == .unknown || fields.reasons == [],
      .valueError "classified regime cannot carry context failures"⟩,
    ⟨fields.marketConfirmationStrength.isNone == (fields.reasons != []),
      .valueError "market confirmation availability must match context health"⟩]

def modeText : ContextDataMode → String
  | .live => "LIVE"
  | .historicalProxy => "HISTORICAL_PROXY"

def basisText : RegimeBasis → String
  | .officialIndex => "OFFICIAL_INDEX"
  | .constituentBreadth => "CONSTITUENT_BREADTH"

def regimeText : MarketRegime → String
  | .trendUp => "TREND_UP"
  | .trendDown => "TREND_DOWN"
  | .range => "RANGE"
  | .highVolatility => "HIGH_VOLATILITY"
  | .highDispersion => "HIGH_DISPERSION"
  | .unknown => "UNKNOWN"

/-- The record as it is hashed; what `exclude_if` leaves out is null here. -/
def modelDump (fields : DecisionContextFields D) : Json D :=
  .arr [.str fields.contextVersion, .sha fields.contextConfigurationSha256,
    .sha fields.featureConfigurationSha256, .str (modeText fields.dataMode),
    .int fields.tradeDate, .int fields.decisionAt,
    .list (fun zone => zone.modelDump) fields.zones,
    .list (fun index => index.modelDump) fields.indices,
    .list (fun status => status.modelDump) fields.marketStatuses,
    .list BreadthContext.modelDump fields.breadth,
    .opt (fun basis => .str (basisText basis)) fields.marketBasis,
    .opt .str fields.regimePolicyVersion, .opt .sha fields.regimePolicySha256,
    .opt .str fields.marketReferenceIndex, .opt .num fields.marketConfirmationStrength,
    .str (regimeText fields.regime), .list .str fields.reasons]

end DecisionContextFields

/-- What is known at one decision clock. -/
structure DecisionContext (D : Type) extends DecisionContextFields D where
  valid : AllHold toDecisionContextFields.checks

namespace DecisionContext

def modelValidate (fields : DecisionContextFields D) : Except Raised (DecisionContext D) :=
  validated fields.checks fun valid => ⟨fields, valid⟩

def sha256 [Hashing D] (context : DecisionContext D) : D := Hashing.sha256 context.modelDump

/-- `is_tradable`: every market is authorized by the source of the data mode. -/
def isTradable (context : DecisionContext D) : Bool :=
  let expected := match context.dataMode with
    | .live => MarketStatusSourceKind.ssiStreamMarketStatus
    | .historicalProxy => .configuredMarketCalendar
  !context.marketStatuses.isEmpty &&
    context.marketStatuses.all fun item => item.isTradable && item.sourceKind == some expected

/-- `selection_block_reason` -/
def selectionBlockReason (context : DecisionContext D) (realtime : Bool) : Option String :=
  if !context.isTradable then some "market_status_ineligible"
  else if (realtime || context.marketBasis.isSome) && context.regime == .unknown then
    some "regime_ineligible"
  else none

/-- `zone` -/
def zone (context : DecisionContext D) (symbol : String) : Except Raised (ZoneContext D) :=
  match context.zones.filter (·.symbol == symbol) with
  | [zone] => .ok zone
  | _ => .error (.valueError ("context requires one zone for " ++ symbol))

end DecisionContext

end MiniLakehouse
