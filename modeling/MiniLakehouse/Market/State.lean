import MiniLakehouse.Configuration
import MiniLakehouse.Library.Keyed
import MiniLakehouse.Market.Events
import MiniLakehouse.Numeric

/-!
# Market state

Deterministic, side-effect-free market state transitions (`market/state.py`).
A call that raises still returns the state it leaves behind, since a sequence
number is recorded before an envelope is decoded.
-/

namespace MiniLakehouse

inductive MarketIssue where
  | sequenceGap
  | sequenceRegression
  | receiptTimeRegression
  | tradeTimeRegression
  | quoteTimeRegression
  | lateTrade
  | tradeVolumeDuplicate
  | tradeVolumeGap
  | tradeVolumeRegression
  deriving DecidableEq, Repr

def MarketIssue.text : MarketIssue → String
  | .sequenceGap => "SEQUENCE_GAP"
  | .sequenceRegression => "SEQUENCE_REGRESSION"
  | .receiptTimeRegression => "RECEIPT_TIME_REGRESSION"
  | .tradeTimeRegression => "TRADE_TIME_REGRESSION"
  | .quoteTimeRegression => "QUOTE_TIME_REGRESSION"
  | .lateTrade => "LATE_TRADE"
  | .tradeVolumeDuplicate => "TRADE_VOLUME_DUPLICATE"
  | .tradeVolumeGap => "TRADE_VOLUME_GAP"
  | .tradeVolumeRegression => "TRADE_VOLUME_REGRESSION"

/-- `bar_start`: the start of the interval that contains a timestamp, of a
positive number of seconds.  `int` truncates the seconds towards zero. -/
def barStart (value : Instant) (intervalSeconds : Nat) : Instant :=
  let epochSeconds := value.tdiv (seconds 1)
  seconds (epochSeconds - epochSeconds % intervalSeconds)

structure Bar where
  symbol : String
  start : Instant
  endAt : Instant
  openPrice : Rat
  highPrice : Rat
  lowPrice : Rat
  closePrice : Rat
  volume : Nat
  value : Rat
  tradeCount : Nat
  buyVolume : Nat
  sellVolume : Nat
  vwap : Rat
  availableAt : Instant
  deriving DecidableEq

/-- `_OpenBar` -/
structure OpenBar where
  symbol : String
  start : Instant
  endAt : Instant
  openPrice : Rat
  highPrice : Rat
  lowPrice : Rat
  closePrice : Rat
  volume : Nat
  value : Rat
  tradeCount : Nat
  buyVolume : Nat
  sellVolume : Nat
  deriving DecidableEq

/-- The quantity of a trade on one side. -/
def Trade.sideQuantity (trade : Trade) (side : AggressorSide) : Nat :=
  if trade.side = some side then trade.quantity else 0

namespace OpenBar

/-- `_OpenBar.from_trade` -/
def fromTrade (trade : Trade) (intervalSeconds : Nat) : OpenBar where
  symbol := trade.symbol
  start := barStart trade.eventTime intervalSeconds
  endAt := barStart trade.eventTime intervalSeconds + seconds intervalSeconds
  openPrice := trade.price
  highPrice := trade.price
  lowPrice := trade.price
  closePrice := trade.price
  volume := trade.quantity
  value := trade.price * trade.quantity
  tradeCount := 1
  buyVolume := trade.sideQuantity .buy
  sellVolume := trade.sideQuantity .sell

/-- `_OpenBar.add` -/
def add (bar : OpenBar) (trade : Trade) : OpenBar :=
  { bar with
    highPrice := max bar.highPrice trade.price
    lowPrice := min bar.lowPrice trade.price
    closePrice := trade.price
    volume := bar.volume + trade.quantity
    value := bar.value + trade.price * trade.quantity
    tradeCount := bar.tradeCount + 1
    buyVolume := bar.buyVolume + trade.sideQuantity .buy
    sellVolume := bar.sellVolume + trade.sideQuantity .sell }

/-- `_OpenBar.close` -/
def close (bar : OpenBar) (availableAt : Instant) : Bar where
  symbol := bar.symbol
  start := bar.start
  endAt := bar.endAt
  openPrice := bar.openPrice
  highPrice := bar.highPrice
  lowPrice := bar.lowPrice
  closePrice := bar.closePrice
  volume := bar.volume
  value := bar.value
  tradeCount := bar.tradeCount
  buyVolume := bar.buyVolume
  sellVolume := bar.sellVolume
  vwap := quantizeHalfUp pricePlaces (bar.value / bar.volume)
  availableAt := availableAt

end OpenBar

structure MarketUpdate where
  event : Option MarketEvent
  finalizedBars : List Bar
  issues : List MarketIssue

structure MarketHealth where
  symbol : String
  evaluatedAt : Instant
  ready : Bool
  reasons : List String

/-- `_SymbolState` -/
structure SymbolState where
  latestTrade : Option Trade
  latestQuote : Option QuoteSnapshot
  lastTradeTime : Option Instant
  lastQuoteTime : Option Instant
  cumulativeVolume : Option Nat
  openBar : Option OpenBar
  closedThrough : Option Instant

namespace SymbolState

def initial : SymbolState := ⟨none, none, none, none, none, none, none⟩

/-- What an event did to the state of its symbol.  An unreported issue enters
the integrity issues without being one of the update. -/
structure Observation where
  state : SymbolState
  finalizedBars : List Bar
  issues : List MarketIssue
  unreported : List MarketIssue

/-- A quote that does not precede the last one is the latest. -/
def observeQuote (state : SymbolState) (quote : QuoteSnapshot) : Observation :=
  if state.lastQuoteTime.any (quote.eventTime < ·) then
    ⟨state, [], [.quoteTimeRegression], []⟩
  else
    ⟨{ state with latestQuote := some quote, lastQuoteTime := some quote.eventTime },
      [], [], []⟩

/-- An auction observation moves the trade clock. -/
def observeAuction (state : SymbolState) (auction : AuctionObservation) : Observation :=
  if state.lastTradeTime.any (auction.eventTime < ·) then
    ⟨state, [], [.tradeTimeRegression], []⟩
  else ⟨{ state with lastTradeTime := some auction.eventTime }, [], [], []⟩

/-- The issue of a trade whose cumulative volume does not continue the last. -/
def volumeIssue (previousVolume : Option Nat) (trade : Trade) : Option MarketIssue :=
  match previousVolume with
  | none => none
  | some previous =>
      if trade.cumulativeVolume < previous then some .tradeVolumeRegression
      else if trade.cumulativeVolume = previous then some .tradeVolumeDuplicate
      else if trade.cumulativeVolume ≠ previous + trade.quantity then some .tradeVolumeGap
      else none

/-- `_apply_trade` -/
def applyTrade (intervalSeconds : Nat) (state : SymbolState) (trade : Trade) : Observation :=
  let start := barStart trade.eventTime intervalSeconds
  match state.openBar with
  | none =>
      ⟨{ state with openBar := some (.fromTrade trade intervalSeconds) }, [], [], []⟩
  | some bar =>
      if start = bar.start then ⟨{ state with openBar := some (bar.add trade) }, [], [], []⟩
      else if start < bar.start then ⟨state, [], [], [.tradeTimeRegression]⟩
      else
        ⟨{ state with
            closedThrough := some bar.endAt
            openBar := some (.fromTrade trade intervalSeconds) },
          [bar.close trade.receivedAt], [], []⟩

/-- A trade in order, of continuing volume and of an interval that is not closed. -/
def observeTrade (intervalSeconds : Nat) (state : SymbolState) (trade : Trade) : Observation :=
  if state.lastTradeTime.any (trade.eventTime < ·) then
    ⟨state, [], [.tradeTimeRegression], []⟩
  else
    let volume := (volumeIssue state.cumulativeVolume trade).toList
    let barEnd := barStart trade.eventTime intervalSeconds + seconds intervalSeconds
    if state.closedThrough.any (barEnd ≤ ·) then ⟨state, [], volume ++ [MarketIssue.lateTrade], []⟩
    else if volume ≠ [] then ⟨state, [], volume, []⟩
    else
      let applied := applyTrade intervalSeconds state trade
      { applied with
        state := { applied.state with
          latestTrade := some trade
          lastTradeTime := some trade.eventTime
          cumulativeVolume := some trade.cumulativeVolume } }

/-- The part of `apply` after the symbol's state has been found. -/
def observe (intervalSeconds : Nat) (state : SymbolState) : MarketEvent → Observation
  | .quote value => state.observeQuote value
  | .auction value => state.observeAuction value
  | .trade value => state.observeTrade intervalSeconds value

/-- The bar that a boundary at `eventTime` closes. -/
def closing (state : SymbolState) (eventTime availableAt : Instant) : Option Bar :=
  (state.openBar.filter (·.endAt ≤ eventTime)).map (·.close availableAt)

/-- The state once a boundary at `eventTime` has passed. -/
def advance (intervalSeconds : Nat) (state : SymbolState) (eventTime : Instant) : SymbolState :=
  let boundary := barStart eventTime intervalSeconds
  { state with
    openBar := state.openBar.filter (eventTime < ·.endAt)
    closedThrough := some (state.closedThrough.elim boundary (max boundary)) }

end SymbolState

/-- `MarketState`, its configuration apart. -/
structure MarketState where
  symbols : String → Option SymbolState
  activeStreamSessionId : Option String
  lastSequence : String → Option Nat
  lastReceivedAt : String → Option Instant
  integritySet : List MarketIssue

namespace MarketState

variable {D : Type} (configuration : TradingVersion)

/-- No market state of any configured symbol. -/
def freshSymbols (symbol : String) : Option SymbolState :=
  if symbol ∈ configuration.market.symbols then some .initial else none

/-- `MarketState.__init__` -/
def initial : MarketState where
  symbols := freshSymbols configuration
  activeStreamSessionId := none
  lastSequence := fun _ => none
  lastReceivedAt := fun _ => none
  integritySet := []

/-- `integrity_issues` -/
def integrityIssues (state : MarketState) : List String :=
  sortOn (fun text : String => text) (state.integritySet.map (·.text))

/-- `_sequence_issues`, the issues. -/
def sequenceIssues (state : MarketState) (envelope : StreamEnvelope D) : List MarketIssue :=
  let sequence := match state.lastSequence envelope.streamSessionId with
    | none => if envelope.receiveSequence ≠ 1 then [MarketIssue.sequenceGap] else []
    | some previous =>
        if envelope.receiveSequence ≤ previous then [MarketIssue.sequenceRegression]
        else if envelope.receiveSequence ≠ previous + 1 then [MarketIssue.sequenceGap]
        else []
  let receipt :=
    if (state.lastReceivedAt envelope.streamSessionId).any (envelope.receivedAt < ·) then
      [MarketIssue.receiptTimeRegression]
    else []
  sequence ++ receipt

/-- `_sequence_issues`, what it records. -/
def recordSequence (state : MarketState) (envelope : StreamEnvelope D) : MarketState :=
  let issues := state.sequenceIssues envelope
  let noted := { state with integritySet := state.integritySet ∪ issues }
  if .sequenceRegression ∈ issues then noted
  else
    { noted with
      lastSequence :=
        Function.update state.lastSequence envelope.streamSessionId (some envelope.receiveSequence)
      lastReceivedAt :=
        if .receiptTimeRegression ∈ issues then state.lastReceivedAt
        else Function.update state.lastReceivedAt envelope.streamSessionId
          (some envelope.receivedAt) }

/-- A reconnect never carries market state across the unobserved interval. -/
def activate (state : MarketState) (streamSessionId : String) : MarketState :=
  { state with
    symbols :=
      if state.activeStreamSessionId.any (· != streamSessionId) then freshSymbols configuration
      else state.symbols
    activeStreamSessionId := some streamSessionId }

/-- The state once an observation of a symbol has been taken over. -/
def commit (state : MarketState) (symbol : String) (observed : SymbolState.Observation) :
    MarketState :=
  { state with
    symbols := Function.update state.symbols symbol (some observed.state)
    integritySet := state.integritySet ∪ (observed.unreported ∪ observed.issues) }

/-- The part of `apply` that an event of a decoded envelope takes. -/
def applyEvent (state : MarketState) (issues : List MarketIssue) (event : MarketEvent) :
    Except Raised MarketUpdate × MarketState :=
  if configuration.contains (configuration.market.timezone.date event.eventTime) then
    match state.symbols event.symbol with
    | none => (.error (.valueError
        ("event symbol is outside the configured universe: " ++ event.symbol)), state)
    | some symbolState =>
        let observed := symbolState.observe configuration.market.barIntervalSeconds event
        (.ok {
            event := if observed.issues = [] then some event else none
            finalizedBars := observed.finalizedBars
            issues := issues ++ observed.issues },
          state.commit event.symbol observed)
  else (.error (.valueError "event falls outside the configuration effective interval"), state)

variable [Hashing D] [Sdk]

/-- `MarketState.apply` -/
def apply (state : MarketState) (envelope : StreamEnvelope D) :
    Except Raised MarketUpdate × MarketState :=
  let active := state.activate configuration envelope.streamSessionId
  let issues := active.sequenceIssues envelope
  let received := active.recordSequence envelope
  if .sequenceRegression ∈ issues ∨ .receiptTimeRegression ∈ issues then
    (.ok ⟨none, [], issues⟩, received)
  else if envelope.subscriptionContext = .indices then (.ok ⟨none, [], issues⟩, received)
  else
    match decodeEvent envelope configuration.market.quoteDepth configuration.market.timezone with
    | .error raised => (.error raised, received)
    | .ok none => (.ok ⟨none, [], issues⟩, received)
    | .ok (some event) => received.applyEvent configuration issues event

omit [Hashing D] [Sdk]

/-- `MarketState.advance` -/
def advance (state : MarketState) (eventTime availableAt : Instant) :
    Except Raised (List Bar × MarketState) := do
  require (eventTime ≤ availableAt)
    (Raised.valueError "available_at must not precede event_time")
  let finalized := configuration.market.symbols.filterMap fun symbol =>
    (state.symbols symbol).bind (·.closing eventTime availableAt)
  return (sortOn (fun bar : Bar => (toLex (bar.endAt, bar.symbol) : Instant ×ₗ String)) finalized,
    { state with
      symbols := fun symbol => (state.symbols symbol).map fun symbolState =>
        symbolState.advance configuration.market.barIntervalSeconds eventTime })

/-- The reasons of `health` against one kind of observation, none of which may
precede `requiredSince` or follow `evaluatedAt`. -/
private def observationReasons (observed : Option (Instant × Instant)) (kind : String)
    (evaluatedAt : Instant) (requiredSince : Option Instant) (staleAfterSeconds : Nat) :
    List String :=
  match observed with
  | none => ["MISSING_" ++ kind]
  | some (eventTime, receivedAt) =>
      if requiredSince.any fun since => eventTime < since || receivedAt < since then
        ["MISSING_" ++ kind]
      else if evaluatedAt < receivedAt then ["FUTURE_" ++ kind]
      else if seconds staleAfterSeconds < evaluatedAt - receivedAt then ["STALE_" ++ kind]
      else []

/-- A quote that counts for `health` must be complete. -/
private def bookReasons (quote : Option QuoteSnapshot) (requiredSince : Option Instant) :
    List String :=
  match quote with
  | none => []
  | some quote =>
      if requiredSince.any fun since => quote.eventTime < since || quote.receivedAt < since then []
      else if quote.isComplete then [] else ["INCOMPLETE_QUOTE"]

/-- `health` -/
def health (state : MarketState) (symbol : String) (evaluatedAt : Instant)
    (requiredSince : Option Instant) : Except Raised MarketHealth := do
  require (requiredSince.all (· ≤ evaluatedAt))
    (Raised.valueError "required_since must not follow evaluated_at")
  match state.symbols symbol with
  | none => throw (.valueError ("symbol is outside the configured universe: " ++ symbol))
  | some found =>
      let trade := found.latestTrade.map fun trade => (trade.eventTime, trade.receivedAt)
      let quote := found.latestQuote.map fun quote => (quote.eventTime, quote.receivedAt)
      let reasons := state.integrityIssues ++
        observationReasons trade "TRADE" evaluatedAt requiredSince
          configuration.dataQuality.tradeStaleAfterSeconds ++
        observationReasons quote "QUOTE" evaluatedAt requiredSince
          configuration.dataQuality.quoteStaleAfterSeconds ++
        bookReasons found.latestQuote requiredSince
      let ordered := reasons.eraseDups
      return ⟨symbol, evaluatedAt, ordered.isEmpty, ordered⟩

end MarketState

end MiniLakehouse
