import MiniLakehouse.Context.Regime
import MiniLakehouse.Features.Engine
import MiniLakehouse.Library.Clocked

/-!
# Decision context engine

Point-in-time zone, index confirmation and regime construction (`context/engine.py`): the
observations that captured messages spell, the contexts of one clock, the incremental engine
of a live session, and the two batch builders.  No caller goes on with an engine that has
raised, so its state then is left out.
-/

namespace MiniLakehouse

variable {D : Type}

/-- `value.strip()` -/
def strip (value : String) : String :=
  let front := value.toList.dropWhile Char.isWhitespace
  String.ofList (front.reverse.dropWhile Char.isWhitespace).reverse

/-! ## Observations -/

structure IndexObservationFields (D : Type) where
  index : String
  value : Rat
  observedAt : Instant
  sourceKind : IndexSourceKind
  sourceRecordSha256 : D
  streamSessionId : Option String
  receiveSequence : Option Nat

/-- `IndexObservation.__post_init__` -/
def IndexObservationFields.checks (fields : IndexObservationFields D) : List (Check Raised) :=
  [⟨isUppercaseText fields.index && 0 < fields.value, .valueError "invalid index observation"⟩,
    ⟨fields.streamSessionId.isNone == fields.receiveSequence.isNone,
      .valueError "index stream position must be wholly present or absent"⟩,
    ⟨fields.sourceKind != .ssiStreamTrade || fields.streamSessionId.isSome,
      .valueError "live index observation requires stream position lineage"⟩,
    ⟨fields.sourceKind == .ssiStreamTrade || fields.streamSessionId.isNone,
      .valueError "historical index observation cannot carry stream position lineage"⟩]

/-- One index value with an explicit point-in-time source boundary. -/
structure IndexObservation (D : Type) extends IndexObservationFields D where
  valid : AllHold toIndexObservationFields.checks

def IndexObservation.modelValidate (fields : IndexObservationFields D) :
    Except Raised (IndexObservation D) :=
  validated fields.checks fun valid => ⟨fields, valid⟩

structure MarketStatusObservationFields (D : Type) where
  market : String
  status : String
  observedAt : Instant
  sourceKind : MarketStatusSourceKind
  sourceRecordSha256 : D
  streamSessionId : Option String
  receiveSequence : Option Nat

/-- `MarketStatusObservation.__post_init__` -/
def MarketStatusObservationFields.checks (fields : MarketStatusObservationFields D) :
    List (Check Raised) :=
  [⟨isUpperIdentifier fields.market && isUpperIdentifier fields.status,
      .valueError "invalid market-status observation"⟩,
    ⟨fields.streamSessionId.isNone == fields.receiveSequence.isNone,
      .valueError "market-status stream position must be wholly present or absent"⟩,
    ⟨fields.sourceKind != .ssiStreamMarketStatus || fields.streamSessionId.isSome,
      .valueError "live market-status observation requires stream lineage"⟩,
    ⟨fields.sourceKind == .ssiStreamMarketStatus || fields.streamSessionId.isNone,
      .valueError "calendar market-status observation cannot carry stream lineage"⟩]

structure MarketStatusObservation (D : Type) extends MarketStatusObservationFields D where
  valid : AllHold toMarketStatusObservationFields.checks

def MarketStatusObservation.modelValidate (fields : MarketStatusObservationFields D) :
    Except Raised (MarketStatusObservation D) :=
  validated fields.checks fun valid => ⟨fields, valid⟩

/-- What `ssi_sdk.models.MarketStatusMessage` reads. -/
structure MarketStatusMessage where
  market : String
  status : String

/-- `validate_json` of the SDK's message type; nothing where it raises. -/
class StatusSdk where
  marketStatusMessage : String → Option MarketStatusMessage

section

variable [Hashing D]

/-- `_index_tick` -/
def indexTick [Sdk] (envelope : StreamEnvelope D) (indices : List String) (timezone : ZoneInfo) :
    Except Raised (Option (IndexObservation D)) := do
  if envelope.subscriptionContext ≠ .indices ∨ envelope.messageType ≠ "TradeMessage" then
    return none
  let some index := envelope.symbol.filter (indices.contains ·) | return none
  require (sha256 (.str envelope.messageJson) = envelope.messageSha256)
    (Raised.valueError "index message checksum does not match its envelope")
  let some payload := Sdk.tradeMessage envelope.messageJson
    | throw (.valueError "invalid index stream message")
  let some value := payload.price.filter fun price => upper payload.symbol = index ∧ 0 < price
    | throw (.valueError "index stream message does not match its capture envelope")
  let eventTime ← providerTimestamp payload.tradingTime timezone
  require (eventTime ≤ envelope.receivedAt)
    (Raised.valueError "index event time follows receipt time")
  some <$> IndexObservation.modelValidate {
    index := index
    value := value
    observedAt := envelope.receivedAt
    sourceKind := .ssiStreamTrade
    sourceRecordSha256 := envelope.messageSha256
    streamSessionId := some envelope.streamSessionId
    receiveSequence := some envelope.receiveSequence }

/-- `_market_status_tick` -/
def marketStatusTick [StatusSdk] (envelope : StreamEnvelope D) (markets : List String) :
    Except Raised (Option (MarketStatusObservation D)) := do
  if envelope.subscriptionContext ≠ .markets ∨ envelope.messageType ≠ "MarketStatusMessage" then
    return none
  let some symbol := envelope.symbol.filter (markets.contains ·) | return none
  require (sha256 (.str envelope.messageJson) = envelope.messageSha256)
    (Raised.valueError "market-status checksum does not match its envelope")
  let some payload := StatusSdk.marketStatusMessage envelope.messageJson
    | throw (.valueError "invalid market-status stream message")
  let market := upper (strip payload.market)
  let status := upper (strip payload.status)
  require (market = symbol ∧ status ≠ "")
    (Raised.valueError "market-status message does not match its capture envelope")
  some <$> MarketStatusObservation.modelValidate {
    market := market
    status := status
    observedAt := envelope.receivedAt
    sourceKind := .ssiStreamMarketStatus
    sourceRecordSha256 := envelope.messageSha256
    streamSessionId := some envelope.streamSessionId
    receiveSequence := some envelope.receiveSequence }

end

/-! ## The context of one clock -/

def FeatureSnapshot.midPrice (snapshot : FeatureSnapshot D) : Option Rat :=
  snapshot.book.map (·.midPrice)

/-- The earlier snapshots that the zone of a snapshot is made of. -/
def zonePrior (policy : ContextVersion) (current : FeatureSnapshot D)
    (history : List (FeatureSnapshot D)) : List (FeatureSnapshot D) :=
  history.filter fun item => item.marketSession == current.marketSession &&
    current.decisionAt - seconds policy.zoneLookbackSeconds ≤ item.decisionAt &&
    item.decisionAt < current.decisionAt && item.midPrice.isSome && item.isEligible

section

variable [Hashing D]

/-- The zone of the prices of a lookback. -/
def pricedZone (policy : ContextVersion) (current : FeatureSnapshot D)
    (prior : List (FeatureSnapshot D)) (midPrice support resistance : Rat) :
    Except Raised (ZoneContext D) := do
  let supportDistance ← basisPoints (midPrice - support) support
  let resistanceDistance ← basisPoints (resistance - midPrice) resistance
  let stretch ← ratio |supportDistance| policy.zoneToleranceBps ratioPlaces
  ZoneContext.modelValidate {
    symbol := current.symbol
    currentFeatureSnapshotSha256 := current.sha256
    historySha256 := some (sha256 (.list (fun item => .sha item.sha256) prior))
    observationCount := prior.length
    support := some support
    resistance := some resistance
    supportDistanceBps := some supportDistance
    resistanceDistanceBps := some resistanceDistance
    nearSupportStrength := some (max 0 (1 - stretch)) }

/-- The zone of a snapshot without a price, or of too short a lookback. -/
def unavailableZone (current : FeatureSnapshot D) (prior : List (FeatureSnapshot D)) :
    Except Raised (ZoneContext D) :=
  ZoneContext.modelValidate {
    symbol := current.symbol
    currentFeatureSnapshotSha256 := current.sha256
    historySha256 := none
    observationCount := prior.length
    support := none
    resistance := none
    supportDistanceBps := none
    resistanceDistanceBps := none
    nearSupportStrength := none }

/-- `_zone` -/
def zoneOf (policy : ContextVersion) (current : FeatureSnapshot D)
    (history : List (FeatureSnapshot D)) : Except Raised (ZoneContext D) :=
  let prior := zonePrior policy current history
  match current.midPrice with
  | none => unavailableZone current prior
  | some midPrice =>
      if prior.length < policy.zoneMinimumObservations then unavailableZone current prior
      else
        let prices := prior.filterMap (·.midPrice)
        match prices.min?, prices.max? with
        | some support, some resistance =>
            pricedZone policy current prior midPrice support resistance
        | _, _ => .error (.valueError "min() iterable argument is empty")

end

/-- `_as_of` -/
def asOf (ticks : List (IndexObservation D)) (at' : Instant) : Option (IndexObservation D) :=
  ticks.reverse.find? (·.observedAt ≤ at')

/-- The returns from each observation to the next one. -/
def stepReturns (observed : List (IndexObservation D)) : Except Raised (List Rat) :=
  (observed.zip observed.tail).mapM fun step =>
    basisPoints (step.2.value - step.1.value) step.1.value

/-- `_window`, of a number of seconds. -/
def windowOf (ticks : List (IndexObservation D)) (current : IndexObservation D)
    (decisionAt : Instant) (windowSeconds staleAfterSeconds : Nat) :
    Except Raised (Option MarketWindowContext) :=
  let cutoff := decisionAt - seconds windowSeconds
  match asOf ticks cutoff with
  | none => .ok none
  | some reference =>
      if seconds staleAfterSeconds < cutoff - reference.observedAt then .ok none
      else do
        let returns ← stepReturns
          (reference :: within (·.observedAt) cutoff current.observedAt ticks)
        if returns = [] then return none
        let variance := (returns.map fun value => value * value).sum
        let moved ← basisPoints (current.value - reference.value) reference.value
        some <$> MarketWindowContext.modelValidate windowSeconds moved (decimalSqrt 28 variance)

def ContextVersion.windowsSeconds (policy : ContextVersion) : List Nat :=
  [policy.marketWindowsSeconds.1, policy.marketWindowsSeconds.2]

/-- `_index_context` -/
def indexContext (policy : ContextVersion) (staleAfterSeconds : Nat) (decisionAt : Instant)
    (index : String) (ticks : List (IndexObservation D)) : Except Raised (IndexContext D) :=
  match asOf ticks decisionAt with
  | none => IndexContext.modelValidate {
      index := index
      value := none
      ageSeconds := none
      sourceKind := none
      sourceRecordSha256 := none
      streamSessionId := none
      receiveSequence := none
      windows := []
      reasons := ["MISSING_INDEX"] }
  | some current => do
      let found ← policy.windowsSeconds.mapM fun windowSeconds =>
        windowOf ticks current decisionAt windowSeconds staleAfterSeconds
      let windows := found.filterMap id
      IndexContext.modelValidate {
        index := index
        value := some current.value
        ageSeconds := age decisionAt (some current.observedAt)
        sourceKind := some current.sourceKind
        sourceRecordSha256 := some current.sourceRecordSha256
        streamSessionId := current.streamSessionId
        receiveSequence := current.receiveSequence
        windows := windows
        reasons :=
          (if seconds staleAfterSeconds < decisionAt - current.observedAt then ["STALE_INDEX"]
            else []) ++
          if windows.map (·.windowSeconds) ≠ policy.windowsSeconds then
            ["INSUFFICIENT_INDEX_HISTORY"] else [] }

/-- `_market_status_context` -/
def marketStatusContext (policy : ContextVersion) (decisionAt : Instant) (market : String)
    (observations : List (MarketStatusObservation D)) : Except Raised (MarketStatusContext D) :=
  match observations.reverse.find? (·.observedAt ≤ decisionAt) with
  | none => MarketStatusContext.modelValidate {
      market := market
      status := none
      ageSeconds := none
      isTradable := false
      sourceKind := none
      sourceRecordSha256 := none
      streamSessionId := none
      receiveSequence := none
      reasons := ["MISSING_MARKET_STATUS"] }
  | some current =>
      let reasons :=
        if current.status ∈ policy.tradableMarketStatuses then [] else ["MARKET_NOT_TRADABLE"]
      MarketStatusContext.modelValidate {
        market := market
        status := some current.status
        ageSeconds := age decisionAt (some current.observedAt)
        isTradable := reasons == []
        sourceKind := some current.sourceKind
        sourceRecordSha256 := some current.sourceRecordSha256
        streamSessionId := current.streamSessionId
        receiveSequence := current.receiveSequence
        reasons := reasons }

variable [Hashing D]

/-! ## The live engine -/

/-- What `LiveDecisionContextEngine.__init__` is given. -/
structure ContextSettings (D : Type) [Hashing D] where
  configuration : TradingVersion
  policy : ContextVersion
  breadthPolicy : Option BreadthVersion
  breadthMembership : Option (BreadthMembershipSnapshot D)
  regimePolicy : Option RegimeVersion

/-- `LiveDecisionContextEngine`; its breadth engine is idle without a breadth policy.  Only
configured indices, markets and symbols are ever looked up. -/
structure LiveDecisionContextEngine (D : Type) where
  configurationSha256 : D
  indexTicks : String → List (IndexObservation D)
  statusTicks : String → List (MarketStatusObservation D)
  history : String → List (FeatureSnapshot D)
  lastReceivedAt : Option Instant
  streamSessionId : Option String
  lastDecisionAt : Option Instant
  breadth : BreadthEngine D

namespace LiveDecisionContextEngine

variable (settings : ContextSettings D)

/-- `LiveDecisionContextEngine.__init__` -/
def init : Except Raised (LiveDecisionContextEngine D) := do
  let configurationSha256 ← contextIdentity settings.policy settings.regimePolicy
    settings.breadthPolicy
  return {
    configurationSha256 := configurationSha256
    indexTicks := fun _ => []
    statusTicks := fun _ => []
    history := fun _ => []
    lastReceivedAt := none
    streamSessionId := none
    lastDecisionAt := none
    breadth := .initial }

/-- The statuses that are still known; with a regime policy a reconnect forgets them. -/
def knownStatuses (engine : LiveDecisionContextEngine D) (streamSessionId : String) :
    String → List (MarketStatusObservation D) :=
  if settings.regimePolicy.isSome ∧ engine.streamSessionId.any (· != streamSessionId) then
    fun _ => []
  else engine.statusTicks

/-- The breadth engine after an envelope. -/
def applyBreadth [IntervalSdk] (engine : LiveDecisionContextEngine D)
    (envelope : StreamEnvelope D) : Except Raised (BreadthEngine D) :=
  match settings.breadthPolicy with
  | none => .ok engine.breadth
  | some policy => do
      let (breadth, result) := engine.breadth.apply settings.configuration policy
        settings.breadthMembership envelope
      let _ ← result
      return breadth

/-- An observation at the end of those of its name. -/
def recordTick {K V : Type} [DecidableEq K] (ticks : K → List V) (key : V → K) :
    Option V → K → List V
  | none => ticks
  | some tick => Function.update ticks (key tick) (ticks (key tick) ++ [tick])

/-- `apply` -/
def apply [Sdk] [IntervalSdk] [StatusSdk] (engine : LiveDecisionContextEngine D)
    (envelope : StreamEnvelope D) : Except Raised (LiveDecisionContextEngine D) := do
  require (engine.lastReceivedAt.all (· ≤ envelope.receivedAt))
    (Raised.valueError "context envelopes must be receipt ordered")
  let statuses := engine.knownStatuses settings envelope.streamSessionId
  let breadth ← engine.applyBreadth settings envelope
  let market := settings.configuration.market
  let index ← indexTick envelope market.indices market.timezone
  let status ← marketStatusTick envelope market.statusMarkets
  return { engine with
    indexTicks := recordTick engine.indexTicks (·.index) index
    statusTicks := recordTick statuses (·.market) status
    lastReceivedAt := some envelope.receivedAt
    streamSessionId := some envelope.streamSessionId
    breadth := breadth }

/-- The snapshots of a clock join the history, from which those before the lookback go. -/
def remember (policy : ContextVersion) (decisionAt : Instant)
    (history : String → List (FeatureSnapshot D)) (snapshot : FeatureSnapshot D) :
    String → List (FeatureSnapshot D) :=
  Function.update history snapshot.symbol
    ((history snapshot.symbol ++ [snapshot]).dropWhile
      (·.decisionAt < decisionAt - seconds policy.zoneLookbackSeconds))

/-- The guards of `build`: the snapshots are the complete matrix of one later clock. -/
def checkBuild (engine : LiveDecisionContextEngine D) (snapshots : List (FeatureSnapshot D)) :
    Except Raised (FeatureSnapshot D) :=
  match sortOn (·.symbol) snapshots with
  | [] => .error (.valueError "live context requires feature snapshots")
  | first :: rest => do
      require (∀ item ∈ rest, item.decisionAt = first.decisionAt)
        (Raised.valueError "live context requires one feature clock")
      require (engine.lastDecisionAt.all (· < first.decisionAt))
        (Raised.valueError "live context clocks must be strictly increasing")
      require ((first :: rest).map (·.symbol) = sortOn id settings.configuration.market.symbols ∧
          ∀ item ∈ rest, item.tradeDate = first.tradeDate ∧
            item.configurationSha256 = first.configurationSha256)
        (Raised.valueError "live context requires the complete feature matrix")
      require (settings.policy.contains first.tradeDate)
        (Raised.valueError "live context policy must cover the feature trade date")
      require (settings.regimePolicy.all (·.contains first.tradeDate))
        (Raised.valueError "regime policy must cover the feature trade date")
      require (engine.lastReceivedAt.all (· ≤ first.decisionAt))
        (Raised.valueError "live context cannot build before applied receipts")
      return first

/-- The breadth contexts of a clock, with the engine that they leave behind. -/
def buildBreadth (engine : LiveDecisionContextEngine D) (decisionAt : Instant) :
    Except Raised (BreadthEngine D × List (BreadthContext D)) :=
  match settings.breadthPolicy with
  | none => .ok (engine.breadth, [])
  | some policy => do
      let (breadth, result) := engine.breadth.build settings.configuration policy
        settings.breadthMembership decisionAt
      let contexts ← result
      return (breadth, contexts)

/-- The record that `build` makes of the parts of a clock. -/
def contextFields (engine : LiveDecisionContextEngine D) (first : FeatureSnapshot D)
    (zones : List (ZoneContext D)) (indices : List (IndexContext D))
    (statuses : List (MarketStatusContext D)) (breadth : List (BreadthContext D))
    (reading : MarketReading) : DecisionContextFields D where
  contextVersion := settings.policy.version
  contextConfigurationSha256 := engine.configurationSha256
  featureConfigurationSha256 := first.configurationSha256
  dataMode := .live
  tradeDate := first.tradeDate
  decisionAt := first.decisionAt
  zones := zones
  indices := indices
  marketStatuses := statuses
  breadth := breadth
  marketBasis := settings.regimePolicy.map (·.basis)
  regimePolicyVersion := settings.regimePolicy.map (·.version)
  regimePolicySha256 := settings.regimePolicy.map (·.sha256)
  marketReferenceIndex := settings.regimePolicy.bind (·.referenceIndex)
  marketConfirmationStrength := reading.1
  regime := reading.2.1
  reasons := reading.2.2

/-- `build` -/
def build (engine : LiveDecisionContextEngine D) (snapshots : List (FeatureSnapshot D)) :
    Except Raised (LiveDecisionContextEngine D × DecisionContext D) := do
  let first ← engine.checkBuild settings snapshots
  let ordered := sortOn (·.symbol) snapshots
  let decisionAt := first.decisionAt
  let market := settings.configuration.market
  let zones ← ordered.mapM fun item => zoneOf settings.policy item (engine.history item.symbol)
  let indices ← (sortOn id market.indices).mapM fun index =>
    indexContext settings.policy settings.policy.indexStaleAfterSeconds decisionAt index
      (engine.indexTicks index)
  let statuses ← (sortOn id market.statusMarkets).mapM fun market =>
    marketStatusContext settings.policy decisionAt market (engine.statusTicks market)
  let (breadth, breadthContexts) ← engine.buildBreadth settings decisionAt
  let reading ← marketState indices statuses settings.policy settings.regimePolicy breadthContexts
    settings.breadthPolicy
  let context ← DecisionContext.modelValidate
    (engine.contextFields settings first zones indices statuses breadthContexts reading)
  return ({ engine with
    history := ordered.foldl (remember settings.policy decisionAt) engine.history
    lastDecisionAt := some decisionAt
    breadth := breadth }, context)

/-- The engine as a machine that is asked with the snapshots of a clock. -/
def machine [Sdk] [IntervalSdk] [StatusSdk] : Clocked Raised (LiveDecisionContextEngine D)
    (StreamEnvelope D) (List (FeatureSnapshot D)) (DecisionContext D) Instant where
  apply := apply settings
  decide := fun engine _ snapshots => engine.build settings snapshots

/-- The loop of `build_decision_contexts`; what follows the last clock is applied as well. -/
def buildAll [Sdk] [IntervalSdk] [StatusSdk] : LiveDecisionContextEngine D →
    List (StreamEnvelope D) → List (Instant × List (FeatureSnapshot D)) →
    Except Raised (List (DecisionContext D))
  | engine, pending, [] => do
      let _ ← pending.foldlM (apply settings) engine
      return []
  | engine, pending, (at', group) :: clocks => do
      let (engine, pending) ← (machine settings).applyUntil (·.receivedAt) at' engine pending
      let (engine, context) ← engine.build settings group
      let contexts ← buildAll engine pending clocks
      return context :: contexts

end LiveDecisionContextEngine

/-! ## Batches -/

/-- `sorted(clocks.items())`, the snapshots grouped by their clock. -/
def featureClocks (snapshots : List (FeatureSnapshot D)) :
    List (Instant × List (FeatureSnapshot D)) :=
  (sortOn id (snapshots.map (·.decisionAt)).dedup).map fun at' =>
    (at', snapshots.filter (·.decisionAt = at'))

/-- `build_decision_contexts` -/
def buildDecisionContexts [Sdk] [IntervalSdk] [StatusSdk] (settings : ContextSettings D)
    (snapshots : List (FeatureSnapshot D)) (envelopes : List (StreamEnvelope D)) :
    Except Raised (List (DecisionContext D)) := do
  require (snapshots ≠ []) (Raised.valueError "decision context requires feature snapshots")
  require ((snapshots.map (·.tradeDate)).dedup.length = 1)
    (Raised.valueError "context requires one feature trade date")
  let engine ← LiveDecisionContextEngine.init settings
  engine.buildAll settings envelopes (featureClocks snapshots)

/-- The observations of each name, once their source and their order have been checked. -/
def collectObservations {V : Type} (observedAt : V → Instant) (name : V → String)
    (fromSource : V → Bool) (names : List String) (source order : String) (observations : List V) :
    Except Raised (String → List V) := do
  let (_, ticks) ← observations.foldlM (fun (collected : Option Instant × (String → List V))
      (observation : V) => do
    require (fromSource observation) (Raised.valueError source)
    require (collected.1.all (· ≤ observedAt observation)) (Raised.valueError order)
    return (some (observedAt observation),
      if name observation ∈ names then
        LiveDecisionContextEngine.recordTick collected.2 name (some observation)
      else collected.2)) (none, fun _ => [])
  return ticks

/-- The status of a market that the configured calendar stands for. -/
def calendarStatus (policy : ContextVersion) (decisionAt : Instant) (market : String) :
    Except Raised (MarketStatusContext D) :=
  MarketStatusContext.modelValidate {
    market := market
    status := some "LO"
    ageSeconds := some 0
    isTradable := true
    sourceKind := some .configuredMarketCalendar
    sourceRecordSha256 := some (sha256 (.arr [.sha policy.sha256, .int decisionAt, .str market,
      .str (MarketStatusSourceKind.text .configuredMarketCalendar)]))
    streamSessionId := none
    receiveSequence := none
    reasons := [] }

/-- What a batch of observations is read with. -/
structure ObservedMarket (D : Type) where
  dataMode : ContextDataMode
  indexTicks : String → List (IndexObservation D)
  statusTicks : String → List (MarketStatusObservation D)

/-- One clock of `build_decision_contexts_from_observations`. -/
def observedContext (configuration : TradingVersion) (policy : ContextVersion)
    (observed : ObservedMarket D)
    (loop : (String → List (FeatureSnapshot D)) × List (DecisionContext D))
    (clock : Instant × List (FeatureSnapshot D)) :
    Except Raised ((String → List (FeatureSnapshot D)) × List (DecisionContext D)) := do
  let market := configuration.market
  let ordered := sortOn (·.symbol) clock.2
  let zones ← ordered.mapM fun item => zoneOf policy item (loop.1 item.symbol)
  let staleAfter := match observed.dataMode with
    | .historicalProxy => policy.historicalProxyStaleAfterSeconds
    | .live => policy.indexStaleAfterSeconds
  let indices ← (sortOn id market.indices).mapM fun index =>
    indexContext policy staleAfter clock.1 index (observed.indexTicks index)
  let statuses ← (sortOn id market.statusMarkets).mapM fun market =>
    match observed.dataMode with
    | .historicalProxy => calendarStatus policy clock.1 market
    | .live => marketStatusContext policy clock.1 market (observed.statusTicks market)
  let reading ← marketState indices statuses policy none [] none
  match clock.2 with
  | [] => throw .indexError
  | first :: _ => do
      let context ← DecisionContext.modelValidate {
        contextVersion := policy.version
        contextConfigurationSha256 := policy.sha256
        featureConfigurationSha256 := first.configurationSha256
        dataMode := observed.dataMode
        tradeDate := first.tradeDate
        decisionAt := clock.1
        zones := zones
        indices := indices
        marketStatuses := statuses
        breadth := []
        marketBasis := none
        regimePolicyVersion := none
        regimePolicySha256 := none
        marketReferenceIndex := none
        marketConfirmationStrength := reading.1
        regime := reading.2.1
        reasons := reading.2.2 }
      return (clock.2.foldl (LiveDecisionContextEngine.remember policy clock.1) loop.1,
        loop.2 ++ [context])

/-- `build_decision_contexts_from_observations` -/
def buildDecisionContextsFromObservations (configuration : TradingVersion)
    (policy : ContextVersion) (dataMode : ContextDataMode) (snapshots : List (FeatureSnapshot D))
    (observations : List (IndexObservation D))
    (statusObservations : List (MarketStatusObservation D)) :
    Except Raised (List (DecisionContext D)) := do
  require (snapshots ≠ []) (Raised.valueError "decision context requires feature snapshots")
  let clocks := featureClocks snapshots
  require (∀ clock ∈ clocks,
      (sortOn (·.symbol) clock.2).map (·.symbol) = sortOn id configuration.market.symbols ∧
      (clock.2.map (·.configurationSha256)).dedup.length = 1)
    (Raised.valueError "decision context requires the complete feature matrix")
  require ((snapshots.map (·.tradeDate)).dedup.length = 1 ∧
      ∀ item ∈ snapshots, policy.contains item.tradeDate)
    (Raised.valueError "context policy must cover the feature trade date")
  let indexTicks ← collectObservations (·.observedAt) (·.index)
    (fun item => item.sourceKind == match dataMode with
      | .live => .ssiStreamTrade
      | .historicalProxy => .ssiRestIndex1mHistorical)
    configuration.market.indices "index observation source does not match context data mode"
    "index observations must be time ordered" observations
  let statusTicks ← collectObservations (·.observedAt) (·.market)
    (fun item => dataMode == .live && item.sourceKind == .ssiStreamMarketStatus)
    configuration.market.statusMarkets "market-status source does not match context data mode"
    "market-status observations must be time ordered" statusObservations
  let (_, contexts) ← clocks.foldlM
    (observedContext configuration policy ⟨dataMode, indexTicks, statusTicks⟩) (fun _ => [], [])
  return contexts

end MiniLakehouse
