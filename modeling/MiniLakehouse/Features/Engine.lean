import MiniLakehouse.Capture.Gap
import MiniLakehouse.Features.Calculators
import MiniLakehouse.Library.Window
import MiniLakehouse.Market.State

/-!
# Feature engine

Incremental point-in-time feature state shared by live and replay paths
(`features/engine.py`).  `apply` returns the engine that it leaves behind also
where it raises.
-/

namespace MiniLakehouse

/-- `_age` in seconds. -/
def age (later : Instant) (earlier : Option Instant) : Option Rat :=
  earlier.map fun earlier => ((later - earlier : Int) : Rat) / 1000000

/-- `_SymbolFeatures` -/
structure SymbolFeatures where
  session : Option MarketSession
  observedFrom : Option Instant
  latestTrade : Option Trade
  latestQuote : Option QuoteSnapshot
  trades : List Trade
  bookFlows : List (Instant × Int)

namespace SymbolFeatures

def initial : SymbolFeatures := ⟨none, none, none, none, [], []⟩

/-- `reset` -/
def reset (session : MarketSession) : SymbolFeatures := { initial with session := some session }

/-- The state in a session: any other session's is forgotten. -/
def enter (state : SymbolFeatures) (session : MarketSession) : SymbolFeatures :=
  if state.session = some session then state else reset session

/-- `_prune`, with the longest window. -/
def prune (maxWindow : Int) (state : SymbolFeatures) (observedAt : Instant) : SymbolFeatures :=
  { state with
    trades := MiniLakehouse.prune (·.receivedAt) (observedAt - maxWindow) state.trades
    bookFlows := MiniLakehouse.prune Prod.fst (observedAt - maxWindow) state.bookFlows }

/-- The book flow of a quote transition, of complete quotes alone. -/
def transition (previous : Option QuoteSnapshot) (quote : QuoteSnapshot) : List (Instant × Int) :=
  match previous with
  | none => []
  | some previous =>
      if previous.isComplete && quote.isComplete then
        match levelOneBookFlow previous quote with
        | .ok flow => [(quote.receivedAt, flow)]
        -- Complete quotes have best levels.
        | .error _ => []
      else []

/-- The part of `_observe` after the session has been entered.  An auction
observation is not recorded. -/
def record (maxWindow : Int) (state : SymbolFeatures) : MarketEvent → SymbolFeatures
  | .auction _ => state
  | .trade value =>
      prune maxWindow { state with
        observedFrom := some (state.observedFrom.getD value.receivedAt)
        latestTrade := some value
        trades := state.trades ++ [value] } value.receivedAt
  | .quote value =>
      prune maxWindow { state with
        observedFrom := some (state.observedFrom.getD value.receivedAt)
        latestQuote := some value
        bookFlows := state.bookFlows ++ transition state.latestQuote value } value.receivedAt

/-- `_window` -/
def window (state : SymbolFeatures) (decisionAt : Instant) (windowSeconds : Nat) :
    Except Raised WindowFeatures :=
  let cutoff := decisionAt - seconds windowSeconds
  windowValues windowSeconds (within (·.receivedAt) cutoff decisionAt state.trades)
    ((within Prod.fst cutoff decisionAt state.bookFlows).map Prod.snd)

/-- The book features of the latest quote, if it is complete and available. -/
def book (state : SymbolFeatures) (decisionAt : Instant) : Except Raised (Option BookValues) :=
  match state.latestQuote with
  | none => .ok none
  | some quote =>
      if quote.isComplete && quote.receivedAt ≤ decisionAt then some <$> bookValues quote
      else .ok none

end SymbolFeatures

/-- `_max_window` -/
def TradingVersion.maxWindow (configuration : TradingVersion) : Int :=
  seconds (configuration.features.windowsSeconds.getLast configuration.features.windows_nonempty)

/-- `_session`: an event is classified on its own trade date. -/
def MarketConfiguration.sessionOf (market : MarketConfiguration) (event : MarketEvent) :
    MarketSession :=
  market.sessionAt event.eventTime (market.timezone.date event.eventTime)

/-- `FeatureEngine`, its configuration apart.  `MarketState` accepts events of
configured symbols alone, so no other symbol's features are ever looked up. -/
structure FeatureEngine where
  market : MarketState
  symbols : String → SymbolFeatures
  lastReceivedAt : Option Instant
  lastStreamSessionId : Option String
  lastReceiveSequence : Option Nat
  lastDecisionAt : Option Instant

namespace FeatureEngine

variable {D : Type} (configuration : TradingVersion)

/-- `FeatureEngine.__init__` -/
def initial : FeatureEngine :=
  ⟨.initial configuration, fun _ => .initial, none, none, none, none⟩

/-- Whether a stream session replaces the one last received. -/
def reconnects (engine : FeatureEngine) (streamSessionId : String) : Bool :=
  engine.lastStreamSessionId.any (streamSessionId != ·)

/-- `_observe` -/
def observe (engine : FeatureEngine) (event : MarketEvent) : FeatureEngine :=
  { engine with
    symbols := Function.update engine.symbols event.symbol
      (((engine.symbols event.symbol).enter (configuration.market.sessionOf event)).record
        configuration.maxWindow event) }

/-- The receipt becomes the last one unless it precedes it. -/
def receive (engine : FeatureEngine) (envelope : StreamEnvelope D) : FeatureEngine :=
  if engine.lastReceivedAt.all (· ≤ envelope.receivedAt) then
    { engine with
      lastReceivedAt := some envelope.receivedAt
      lastStreamSessionId := some envelope.streamSessionId
      lastReceiveSequence := some envelope.receiveSequence }
  else engine

section

variable [Hashing D] [Sdk]

/-- `apply` -/
def apply (engine : FeatureEngine) (envelope : StreamEnvelope D) :
    Except Raised MarketUpdate × FeatureEngine :=
  if engine.lastDecisionAt.any (envelope.receivedAt < ·) then
    (.error (.valueError "envelope was received before the last emitted decision"), engine)
  else
    let symbols :=
      if engine.reconnects envelope.streamSessionId then fun _ => .initial else engine.symbols
    let (result, market) := engine.market.apply configuration envelope
    let applied := { engine with symbols := symbols, market := market }
    match result with
    | .error raised => (.error raised, applied)
    | .ok update =>
        let observed := update.event.elim applied (applied.observe configuration)
        (.ok update, observed.receive envelope)

end

/-- The reasons of an enabled decision session against a symbol's features. -/
def featureReasons (state : SymbolFeatures) (decisionAt : Instant) (windows : List WindowFeatures) :
    List String :=
  let warm := state.observedFrom.any fun observedFrom =>
    seconds configuration.features.warmupSeconds ≤ decisionAt - observedFrom
  (if warm then [] else ["WARMUP"]) ++
    windows.flatMap fun window =>
      (if window.tradeCount < 2 then
        ["INSUFFICIENT_TRADES_" ++ toString window.windowSeconds ++ "S"] else []) ++
      (if window.quoteChangeCount < 1 then
        ["INSUFFICIENT_BOOK_FLOW_" ++ toString window.windowSeconds ++ "S"] else [])

/-- The reasons of `_snapshot`, in the order in which it finds them. -/
def reasons (engine : FeatureEngine) (symbol : String) (decisionAt : Instant)
    (session : MarketSession) (windows : List WindowFeatures) : Except Raised (List String) :=
  if configuration.features.decisionSessions.any (·.session = session) then do
    let (sessionStart, _) ← configuration.market.sessionWindow
      (configuration.market.timezone.date decisionAt) session
    let health ← engine.market.health configuration symbol decisionAt (some sessionStart)
    return health.reasons ++
      featureReasons configuration (engine.symbols symbol) decisionAt windows
  else .ok ["SESSION_NOT_ENABLED"]

variable [Hashing D]

/-- `_snapshot`, once the symbol's state has been entered and pruned. -/
def snapshot (engine : FeatureEngine) (decisionAt : Instant) (session : MarketSession)
    (symbol : String) : Except Raised (FeatureSnapshot D) := do
  let state := engine.symbols symbol
  let windows ← configuration.features.windowsSeconds.mapM (state.window decisionAt)
  let reasons ← engine.reasons configuration symbol decisionAt session windows
  let book ← state.book decisionAt
  FeatureSnapshot.modelValidate {
    featureVersion := configuration.features.version
    configurationVersion := configuration.version
    configurationSha256 := configuration.sha256
    symbol := symbol
    tradeDate := configuration.market.timezone.date decisionAt
    decisionAt := decisionAt
    marketSession := session
    streamSessionId := engine.lastStreamSessionId
    lastReceiveSequence := engine.lastReceiveSequence
    tradeAgeSeconds := age decisionAt (state.latestTrade.map (·.receivedAt))
    quoteAgeSeconds := age decisionAt (state.latestQuote.map (·.receivedAt))
    book := book
    windows := windows
    reasons := reasons.eraseDups }

/-- Every symbol's state enters the session of a decision and is pruned for it. -/
def settle (engine : FeatureEngine) (decisionAt : Instant) (session : MarketSession) :
    FeatureEngine :=
  { engine with
    symbols := fun symbol =>
      ((engine.symbols symbol).enter session).prune configuration.maxWindow decisionAt }

/-- `snapshots` -/
def snapshots (engine : FeatureEngine) (decisionAt : Instant) :
    Except Raised (List (FeatureSnapshot D) × FeatureEngine) := do
  require (decisionAt % seconds 1 = 0 ∧
      decisionAt / seconds 1 % configuration.features.cadenceSeconds = 0)
    (Raised.valueError "decision_at must align to the configured feature cadence")
  require (engine.lastDecisionAt.all (· < decisionAt))
    (Raised.valueError "feature decision times must be strictly increasing")
  require (engine.lastReceivedAt.all (· ≤ decisionAt))
    (Raised.valueError "feature state contains input unavailable at decision_at")
  let tradeDate := configuration.market.timezone.date decisionAt
  require (configuration.contains tradeDate)
    (Raised.valueError "decision falls outside the configuration effective interval")
  let session := configuration.market.sessionAt decisionAt tradeDate
  let settled := engine.settle configuration decisionAt session
  let emitted ← configuration.market.symbols.mapM (settled.snapshot configuration decisionAt session)
  return (emitted, { settled with lastDecisionAt := some decisionAt })

end FeatureEngine

/-! ## Replay -/

/-- The clocks of one window: after its start, by the cadence, while before its stop. -/
def clockTimes (start stop : Instant) (cadence : Int) : List Instant :=
  ((List.range ((stop - start) / cadence).toNat).map fun n => start + (n + 1) * cadence).takeWhile
    (· < stop)

/-- `decision_times` -/
def decisionTimes (configuration : TradingVersion) (tradeDate : Day) :
    Except Raised (List Instant) := do
  require (configuration.contains tradeDate)
    (Raised.valueError "trade_date falls outside the configuration effective interval")
  let clocks ← configuration.features.decisionSessions.mapM fun name => do
    let (start, stop) ← configuration.market.sessionWindow tradeDate name.session
    return clockTimes start stop (seconds configuration.features.cadenceSeconds)
  return clocks.flatten

/-- A decision within a gap or within the warmup after it. -/
def gapAffected (configuration : TradingVersion) (gaps : List StreamGap) (decisionAt : Instant) :
    Bool :=
  gaps.any fun gap => gap.startedAt ≤ decisionAt &&
    decisionAt < gap.endedAt + seconds configuration.features.warmupSeconds

/-- A snapshot of a decision that a gap affects says so. -/
def FeatureSnapshot.noteGap {D : Type} (snapshot : FeatureSnapshot D) : FeatureSnapshot D :=
  if h : "CAPTURE_GAP" ∈ snapshot.reasons then snapshot
  else snapshot.withReasons (snapshot.reasons ++ ["CAPTURE_GAP"]) (by
    apply List.Nodup.append snapshot.reasons_unique (List.nodup_singleton _)
    simpa using h)

variable {D : Type} [Hashing D] [Sdk]

/-- Apply the pending envelopes that are received by an instant. -/
def FeatureEngine.applyUntil (configuration : TradingVersion) (decisionAt : Instant)
    (engine : FeatureEngine) : List (StreamEnvelope D) →
    Except Raised (FeatureEngine × List (StreamEnvelope D))
  | [] => .ok (engine, [])
  | envelope :: rest =>
      if envelope.receivedAt ≤ decisionAt then
        match engine.apply configuration envelope with
        | (.error raised, _) => .error raised
        | (.ok _, applied) => applied.applyUntil configuration decisionAt rest
      else .ok (engine, envelope :: rest)

/-- One decision of `replay_features`. -/
def replayDecision (configuration : TradingVersion) (gaps : List StreamGap)
    (loop : FeatureEngine × List (StreamEnvelope D) × List (FeatureSnapshot D))
    (decisionAt : Instant) :
    Except Raised (FeatureEngine × List (StreamEnvelope D) × List (FeatureSnapshot D)) := do
  let (engine, pending) ← loop.1.applyUntil configuration decisionAt loop.2.1
  let (current, engine) ← engine.snapshots configuration decisionAt
  let noted :=
    if gapAffected configuration gaps decisionAt then current.map (·.noteGap) else current
  return (engine, pending, loop.2.2 ++ noted)

/-- `replay_features` -/
def replayFeatures (envelopes : List (StreamEnvelope D)) (configuration : TradingVersion)
    (tradeDate : Day) (gaps : List StreamGap) : Except Raised (List (FeatureSnapshot D)) := do
  let times ← decisionTimes configuration tradeDate
  let (_, _, snapshots) ← times.foldlM (replayDecision configuration gaps)
    (.initial configuration, envelopes, [])
  return snapshots

end MiniLakehouse
