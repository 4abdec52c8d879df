import MiniLakehouse.Identity
import MiniLakehouse.Library.Checked
import MiniLakehouse.Library.Time
import MiniLakehouse.Raised

/-!
# Market events

Captured SDK messages and the events they decode to (`market/events.py`).  The
provider's SDK is not code of the repository: `Sdk` is what its two message
types read out of a JSON text.
-/

namespace MiniLakehouse

/-- What `ssi_sdk.models.TradeMessage` reads.  A price is the decimal that its
text spells, if it is finite. -/
structure TradeMessage where
  symbol : String
  tradingTime : String
  type : String
  price : Option Rat
  quantity : Int
  side : String
  totalVolume : Int

/-- What `ssi_sdk.models.QuoteMessage` reads. -/
structure QuoteMessage where
  symbol : String
  tradingTime : String
  type : String
  bidPrices : List (Option Rat)
  bidVolumes : List Int
  askPrices : List (Option Rat)
  askVolumes : List Int

/-- `validate_json` of the SDK's message types; nothing where it raises. -/
class Sdk where
  tradeMessage : String → Option TradeMessage
  quoteMessage : String → Option QuoteMessage

inductive SubscriptionContext where
  | symbols
  | indices
  | markets
  deriving DecidableEq, Repr

/-- Source-independent fields persisted for each SDK callback. -/
structure StreamEnvelope (D : Type) where
  streamSessionId : String
  receiveSequence : Nat
  messageType : String
  subscriptionContext : SubscriptionContext
  symbol : Option String
  sourceTimeText : Option String
  receivedAt : Instant
  messageJson : String
  messageSha256 : D
  envelope_valid : streamSessionId ≠ "" ∧ 1 ≤ receiveSequence ∧ messageType ≠ "" ∧
    2 ≤ messageJson.length

structure EventPosition where
  streamSessionId : String
  receiveSequence : Nat
  deriving DecidableEq

inductive AggressorSide where
  | buy
  | sell
  deriving DecidableEq, Repr

structure Trade where
  position : EventPosition
  symbol : String
  eventTime : Instant
  receivedAt : Instant
  price : Rat
  quantity : Nat
  side : Option AggressorSide
  cumulativeVolume : Nat
  trade_valid : 0 < price ∧ 0 < quantity ∧ quantity ≤ cumulativeVolume

/-- `signed_quantity`: an unclassified execution has no aggressor. -/
def Trade.signedQuantity (trade : Trade) : Int :=
  match trade.side with
  | some .buy => trade.quantity
  | some .sell => -trade.quantity
  | none => 0

structure AuctionObservation where
  position : EventPosition
  symbol : String
  eventTime : Instant
  receivedAt : Instant

structure QuoteLevel where
  level : Nat
  price : Rat
  quantity : Nat
  level_populated : 0 < price ∧ 0 < quantity

structure QuoteSnapshot where
  position : EventPosition
  symbol : String
  eventTime : Instant
  receivedAt : Instant
  bids : List QuoteLevel
  asks : List QuoteLevel
  isComplete : Bool
  complete_uncrossed : isComplete = true →
    ∃ bid ∈ bids.head?, ∃ ask ∈ asks.head?, bid.price < ask.price

inductive MarketEvent where
  | trade (value : Trade)
  | auction (value : AuctionObservation)
  | quote (value : QuoteSnapshot)

namespace MarketEvent

def symbol : MarketEvent → String
  | .trade value => value.symbol
  | .auction value => value.symbol
  | .quote value => value.symbol

def eventTime : MarketEvent → Instant
  | .trade value => value.eventTime
  | .auction value => value.eventTime
  | .quote value => value.eventTime

def receivedAt : MarketEvent → Instant
  | .trade value => value.receivedAt
  | .auction value => value.receivedAt
  | .quote value => value.receivedAt

def position : MarketEvent → EventPosition
  | .trade value => value.position
  | .auction value => value.position
  | .quote value => value.position

/-- `type(event).__name__` -/
def typeName : MarketEvent → String
  | .trade _ => "Trade"
  | .auction _ => "AuctionObservation"
  | .quote _ => "QuoteSnapshot"

def asTrade : MarketEvent → Option Trade
  | .trade value => some value
  | .auction _ | .quote _ => none

def asQuote : MarketEvent → Option QuoteSnapshot
  | .quote value => some value
  | .trade _ | .auction _ => none

end MarketEvent

/-! ## Provider texts and numbers -/

/-- `value.upper()` of an ASCII text. -/
def upper (value : String) : String := String.ofList (value.toList.map Char.toUpper)

/-- A run of one to `width` decimal digits whose value lies within bounds. -/
private def digits (width low high : Nat) (text : List Char) : Option Nat :=
  let value := text.foldl (fun total c => total * 10 + (c.toNat - '0'.toNat)) 0
  if text ≠ [] ∧ text.length ≤ width ∧ text.all Char.isDigit ∧ low ≤ value ∧ value ≤ high then
    some value
  else none

/-- `%d`, which also accepts one digit after a blank. -/
private def dayDigits (text : List Char) : Option (Nat × List Char) :=
  match text with
  | ' ' :: c :: rest =>
      if c.isWhitespace then none else (digits 1 1 9 [c]).map (·, rest)
  | _ =>
      (digits 2 1 31 (text.takeWhile fun c => !c.isWhitespace)).map
        (·, text.dropWhile fun c => !c.isWhitespace)

/-- `%S.%f` where the text has a dot, `%S` elsewhere, in microseconds. -/
private def secondDigits (text : List Char) : Option Int :=
  match text.splitOn '.' with
  | [whole] => (digits 2 0 59 whole).map fun value => seconds value
  | [whole, fraction] => do
      let value ← digits 2 0 59 whole
      let micros ← digits 6 0 999999 fraction
      return seconds value + (micros * 10 ^ (6 - fraction.length) : Nat)
  | _ => none

/-- `datetime.strptime` with `%Y/%m/%d %H:%M:%S` or `%Y/%m/%d %H:%M:%S.%f`. -/
def strptime (value : String) : Option (Day × TimeOfDay) := do
  let [year, month, rest] := value.toList.splitOn '/' | none
  let year ← if year.length = 4 then digits 4 1 9999 year else none
  let month ← digits 2 1 12 month
  let (day, rest) ← dayDigits rest
  let day ← dayOfDate year month day
  let clock := rest.dropWhile Char.isWhitespace
  let _ ← if rest.length = clock.length then none else some ()
  let [hour, minute, second] := clock.splitOn ':' | none
  let hour ← digits 2 0 23 hour
  let minute ← digits 2 0 59 minute
  let second ← secondDigits second
  return (day, seconds (hour * 3600 + minute * 60) + second)

/-- `provider_timestamp` -/
def providerTimestamp (value : String) (timezone : ZoneInfo) : Except Raised Instant :=
  match strptime value with
  | none => .error (.marketEventError "unsupported SSI timestamp")
  | some (day, time) => .ok (timezone.combine day time)

/-- `_event_time` -/
def eventTimeOf (value : String) (receivedAt : Instant) (timezone : ZoneInfo) :
    Except Raised Instant := do
  let normalized ← providerTimestamp value timezone
  require (normalized ≤ receivedAt)
    (Raised.marketEventError "provider event time follows capture receipt time")
  return normalized

/-- `provider_price` -/
def providerPrice (value : Option Rat) : Except Raised Rat :=
  match value with
  | some price =>
      if price.den = 1 then .ok price
      else .error (.marketEventError "SSI price must be a finite whole VND amount")
  | none => .error (.marketEventError "SSI price must be a finite whole VND amount")

/-- The populated levels of one side, numbered from the best. -/
private def populated (prices : List Rat) (quantities : List Int) : List QuoteLevel :=
  ((prices.zip quantities).zipIdx 1).filterMap fun item =>
    if h : 0 < item.1.1 ∧ 0 < item.1.2 then
      some ⟨item.2, item.1.1, item.1.2.toNat, h.1, by omega⟩
    else none

/-- `_levels` -/
def levels (prices : List Rat) (quantities : List Int) (depth : Nat) (descending : Bool) :
    Except Raised (List QuoteLevel) := do
  require (∀ item ∈ prices.zip quantities,
      0 ≤ item.1 ∧ 0 ≤ item.2 ∧ (item.1 = 0 ↔ item.2 = 0))
    (Raised.marketEventError "quote price and quantity pairs are invalid")
  require ((∀ price ∈ prices.drop depth, price = 0) ∧
      ∀ quantity ∈ quantities.drop depth, quantity = 0)
    (Raised.marketEventError "quote contains populated levels beyond the configured depth")
  let found := populated (prices.take depth) (quantities.take depth)
  require (found.IsChain fun previous current =>
      if descending then previous.price > current.price else previous.price < current.price)
    (Raised.marketEventError "quote levels are not ordered best-to-worst")
  return found

/-- The levels of a side are ordered best to worst, at prices that the message names. -/
theorem levels_eq_ok {prices : List Rat} {quantities : List Int} {depth : Nat}
    {descending : Bool} {found : List QuoteLevel}
    (h : levels prices quantities depth descending = .ok found) :
    (found.IsChain fun previous current =>
      if descending then previous.price > current.price else previous.price < current.price) ∧
      ∀ level ∈ found, level.price ∈ prices := by
  simp only [levels, bind_eq_ok, require_eq_ok, pure_eq_ok] at h
  obtain ⟨_, -, _, -, _, hchain, rfl⟩ := h
  refine ⟨hchain, ?_⟩
  intro level hlevel
  obtain ⟨⟨⟨price, quantity⟩, index⟩, hitem, hpopulated⟩ := List.mem_filterMap.mp hlevel
  split at hpopulated
  · obtain rfl := Option.some.inj hpopulated
    have hpair : (price, quantity) ∈ (prices.take depth).zip (quantities.take depth) := by
      obtain ⟨-, -, hpair⟩ := List.mem_zipIdx hitem
      rw [hpair]
      exact List.getElem_mem _
    exact List.mem_of_mem_take (List.of_mem_zip hpair).1
  · cases hpopulated

/-- Provider prices are whole amounts. -/
theorem providerPrice_whole {value : Option Rat} {price : Rat}
    (h : providerPrice value = .ok price) : price.den = 1 := by
  unfold providerPrice at h
  split at h
  · split at h
    · next hwhole =>
        obtain rfl := Except.ok.inj h
        exact hwhole
    · simp at h
  · simp at h

/-- `_PROVIDER_AGGRESSOR_SIDES` -/
def aggressorSide (side : String) : Option (Option AggressorSide) :=
  if side = "B" then some (some .buy)
  else if side = "S" then some (some .sell)
  else if side = "U" then some none
  else none

/-! ## Decoding -/

variable {D : Type}

def StreamEnvelope.position (envelope : StreamEnvelope D) : EventPosition :=
  ⟨envelope.streamSessionId, envelope.receiveSequence⟩

/-- The `TradeMessage` branch of `decode_event`. -/
def decodeTrade (envelope : StreamEnvelope D) (payload : TradeMessage) (timezone : ZoneInfo) :
    Except Raised MarketEvent := do
  require (envelope.symbol = some payload.symbol ∧
      envelope.sourceTimeText = some payload.tradingTime)
    (Raised.marketEventError "TradeMessage capture lineage does not match its payload")
  let eventTime ← eventTimeOf payload.tradingTime envelope.receivedAt timezone
  require (payload.type = "trade")
    (Raised.marketEventError "TradeMessage has an unexpected provider type")
  let price ← providerPrice payload.price
  let rawSide := upper payload.side
  if price = 0 ∧ payload.quantity = 0 ∧ rawSide = "U" then
    return .auction {
      position := envelope.position
      symbol := upper payload.symbol
      eventTime := eventTime
      receivedAt := envelope.receivedAt }
  else
    match aggressorSide rawSide with
    | none => throw (.marketEventError
        "TradeMessage is neither a trade nor an auction observation")
    | some side =>
        if hpositive : 0 < price ∧ 0 < payload.quantity then
          if hvolume : payload.quantity ≤ payload.totalVolume then
            return .trade {
              position := envelope.position
              symbol := upper payload.symbol
              eventTime := eventTime
              receivedAt := envelope.receivedAt
              price := price
              quantity := payload.quantity.toNat
              side := side
              cumulativeVolume := payload.totalVolume.toNat
              trade_valid := ⟨hpositive.1, by omega, by omega⟩ }
          else throw (.marketEventError
            "cumulative trade volume is smaller than trade quantity")
        else throw (.marketEventError
          "TradeMessage is neither a trade nor an auction observation")

/-- The best levels exist and are not crossed. -/
private def uncrossed (bids asks : List QuoteLevel) : Bool :=
  bids.head?.any fun bid => asks.head?.any fun ask => bid.price < ask.price

private theorem uncrossed_best {bids asks : List QuoteLevel} (h : uncrossed bids asks = true) :
    ∃ bid ∈ bids.head?, ∃ ask ∈ asks.head?, bid.price < ask.price := by
  simpa [uncrossed, Option.any_eq_true] using h

/-- The `QuoteMessage` branch of `decode_event`. -/
def decodeQuote (envelope : StreamEnvelope D) (payload : QuoteMessage) (quoteDepth : Nat)
    (timezone : ZoneInfo) : Except Raised MarketEvent := do
  require (envelope.symbol = some payload.symbol ∧
      envelope.sourceTimeText = some payload.tradingTime)
    (Raised.marketEventError "QuoteMessage capture lineage does not match its payload")
  require (payload.type = "quote")
    (Raised.marketEventError "QuoteMessage has an unexpected provider type")
  require (payload.bidPrices.length = 10 ∧ payload.bidVolumes.length = 10 ∧
      payload.askPrices.length = 10 ∧ payload.askVolumes.length = 10)
    (Raised.marketEventError "SSI quote arrays must contain ten positions")
  let bids ← levels (← payload.bidPrices.mapM providerPrice) payload.bidVolumes quoteDepth true
  let asks ← levels (← payload.askPrices.mapM providerPrice) payload.askVolumes quoteDepth false
  let eventTime ← eventTimeOf payload.tradingTime envelope.receivedAt timezone
  return .quote {
    position := envelope.position
    symbol := upper payload.symbol
    eventTime := eventTime
    receivedAt := envelope.receivedAt
    bids := bids
    asks := asks
    isComplete := bids.length = quoteDepth && asks.length = quoteDepth && uncrossed bids asks
    complete_uncrossed := fun h => uncrossed_best (Bool.and_eq_true_iff.mp h).2 }

variable [Hashing D] [Sdk]

/-- `decode_event`: acknowledgements remain raw evidence. -/
def decodeEvent (envelope : StreamEnvelope D) (quoteDepth : Nat) (timezone : ZoneInfo) :
    Except Raised (Option MarketEvent) := do
  require (sha256 (.str envelope.messageJson) = envelope.messageSha256)
    (Raised.marketEventError "message_json checksum does not match its capture envelope")
  if envelope.messageType = "TradeMessage" then
    match Sdk.tradeMessage envelope.messageJson with
    | none => throw (.marketEventError "invalid TradeMessage")
    | some payload => return some (← decodeTrade envelope payload timezone)
  else if envelope.messageType = "QuoteMessage" then
    match Sdk.quoteMessage envelope.messageJson with
    | none => throw (.marketEventError "invalid QuoteMessage")
    | some payload => return some (← decodeQuote envelope payload quoteDepth timezone)
  else return none

/-- A decoded event keeps the receipt of its envelope. -/
theorem decodeEvent_receipt {envelope : StreamEnvelope D} {quoteDepth : Nat}
    {timezone : ZoneInfo} {event : MarketEvent}
    (h : decodeEvent envelope quoteDepth timezone = .ok (some event)) :
    event.receivedAt = envelope.receivedAt ∧ event.position = envelope.position ∧
      event.eventTime ≤ event.receivedAt := by
  simp only [decodeEvent, bind_eq_ok] at h
  obtain ⟨_, -, h⟩ := h
  split at h
  · split at h
    · simp at h
    · simp only [bind_eq_ok, pure_eq_ok, Option.some.injEq] at h
      obtain ⟨_, h, rfl⟩ := h
      simp only [decodeTrade, eventTimeOf, bind_eq_ok, require_eq_ok, pure_eq_ok] at h
      obtain ⟨_, -, time, ⟨_, -, _, htime, rfl⟩, _, -, _, -, h⟩ := h
      split at h
      · obtain rfl := pure_eq_ok.mp h
        exact ⟨rfl, rfl, htime⟩
      · split at h
        · simp at h
        · split at h
          · split at h
            · obtain rfl := pure_eq_ok.mp h
              exact ⟨rfl, rfl, htime⟩
            · simp at h
          · simp at h
  · split at h
    · split at h
      · simp at h
      · simp only [bind_eq_ok, pure_eq_ok, Option.some.injEq] at h
        obtain ⟨_, h, rfl⟩ := h
        simp only [decodeQuote, eventTimeOf, bind_eq_ok, require_eq_ok, pure_eq_ok] at h
        obtain ⟨_, -, _, -, _, -, _, -, _, -, _, -, _, -, _, ⟨_, -, _, htime, rfl⟩, rfl⟩ := h
        exact ⟨rfl, rfl, htime⟩
    · simp at h

/-- **What the decoder accepts as a quote**: each side's levels run from best to worst, at
whole prices. -/
theorem decodeEvent_quote {envelope : StreamEnvelope D} {quoteDepth : Nat}
    {timezone : ZoneInfo} {quote : QuoteSnapshot}
    (h : decodeEvent envelope quoteDepth timezone = .ok (some (.quote quote))) :
    quote.bids.Pairwise (fun previous current => previous.price > current.price) ∧
      quote.asks.Pairwise (fun previous current => previous.price < current.price) ∧
      ∀ level ∈ quote.bids ++ quote.asks, level.price.den = 1 := by
  simp only [decodeEvent, bind_eq_ok] at h
  obtain ⟨_, -, h⟩ := h
  split at h
  · split at h
    · simp at h
    · simp only [bind_eq_ok, pure_eq_ok, Option.some.injEq] at h
      obtain ⟨_, h, rfl⟩ := h
      simp only [decodeTrade, bind_eq_ok] at h
      obtain ⟨_, -, _, -, _, -, _, -, h⟩ := h
      split at h
      · simp at h
      · split at h
        · simp at h
        · split at h
          · split at h <;> simp at h
          · simp at h
  · split at h
    · split at h
      · simp at h
      · simp only [bind_eq_ok, pure_eq_ok, Option.some.injEq] at h
        obtain ⟨_, h, rfl⟩ := h
        simp only [decodeQuote, bind_eq_ok, pure_eq_ok, MarketEvent.quote.injEq] at h
        obtain ⟨_, -, _, -, _, -, bidPrices, hbidPrices, bids, hbids, askPrices, haskPrices, asks,
          hasks, _, -, rfl⟩ := h
        obtain ⟨hbidChain, hbidPrice⟩ := levels_eq_ok hbids
        obtain ⟨haskChain, haskPrice⟩ := levels_eq_ok hasks
        refine ⟨?_, ?_, ?_⟩
        · exact List.isChain_iff_pairwise.mp hbidChain
        · exact List.isChain_iff_pairwise.mp haskChain
        · intro level hlevel
          rcases List.mem_append.mp hlevel with hlevel | hlevel
          · obtain ⟨_, -, hprice⟩ :=
              exists_of_mem_forall₂ (mapM_eq_ok.mp hbidPrices) (hbidPrice level hlevel)
            exact providerPrice_whole hprice
          · obtain ⟨_, -, hprice⟩ :=
              exists_of_mem_forall₂ (mapM_eq_ok.mp haskPrices) (haskPrice level hlevel)
            exact providerPrice_whole hprice
    · simp at h

/-! ## Rehearsed messages

Messages on 2026-09-04 and an SDK that reads their texts back. -/

namespace Rehearsal

/-- A trade of VIC at a local time. -/
def tradeMessage (localTime : String) (price : Nat) (quantity : Int) (side : String)
    (totalVolume : Int) : TradeMessage :=
  ⟨"VIC", "2026/09/04 " ++ localTime, "trade", some price, quantity, side, totalVolume⟩

/-- A quote of VIC at a local time, three levels of 100 shares a side. -/
def quoteMessage (localTime : String) (bestBid bestAsk : Nat) : QuoteMessage where
  symbol := "VIC"
  tradingTime := "2026/09/04 " ++ localTime
  type := "quote"
  bidPrices := ([bestBid, bestBid - 100, bestBid - 200, 0, 0, 0, 0, 0, 0, 0] : List Nat).map
    fun price => some (price : Rat)
  bidVolumes := [100, 100, 100, 0, 0, 0, 0, 0, 0, 0]
  askPrices := ([bestAsk, bestAsk + 100, bestAsk + 200, 0, 0, 0, 0, 0, 0, 0] : List Nat).map
    fun price => some (price : Rat)
  askVolumes := [100, 100, 100, 0, 0, 0, 0, 0, 0, 0]

private def priceText (price : Option Rat) : String := price.elim "NaN" fun value => toString value.num

private def listText (items : List String) : String := "[" ++ String.intercalate "," items ++ "]"

/-- The JSON object of a trade message, its members sorted. -/
def tradeText (message : TradeMessage) : String :=
  "\x7b\"price\":" ++ priceText message.price ++ ",\"quantity\":" ++ toString message.quantity ++
    ",\"side\":\"" ++ message.side ++ "\",\"symbol\":\"" ++ message.symbol ++
    "\",\"total_volume\":" ++ toString message.totalVolume ++ ",\"trading_time\":\"" ++
    message.tradingTime ++ "\",\"type\":\"" ++ message.type ++ "\"\x7d"

/-- The JSON object of a quote message, its members sorted. -/
def quoteText (message : QuoteMessage) : String :=
  "\x7b\"ask_prices\":" ++ listText (message.askPrices.map priceText) ++
    ",\"ask_volumes\":" ++ listText (message.askVolumes.map toString) ++
    ",\"bid_prices\":" ++ listText (message.bidPrices.map priceText) ++
    ",\"bid_volumes\":" ++ listText (message.bidVolumes.map toString) ++
    ",\"symbol\":\"" ++ message.symbol ++ "\",\"trading_time\":\"" ++ message.tradingTime ++
    "\",\"type\":\"" ++ message.type ++ "\"\x7d"

/-- An SDK that reads the texts of these messages. -/
@[reducible] def sdk (trades : List TradeMessage) (quotes : List QuoteMessage) : Sdk where
  tradeMessage text := trades.find? (tradeText · = text)
  quoteMessage text := quotes.find? (quoteText · = text)

/-- A captured message of VIC, received some seconds after midnight in UTC. -/
def envelope (streamSessionId : String) (receiveSequence : Nat) (messageType text localTime : String)
    (receivedAt : Int) (h : streamSessionId ≠ "" ∧ 1 ≤ receiveSequence ∧ messageType ≠ "" ∧
      2 ≤ text.length) : StreamEnvelope Spelled where
  streamSessionId := streamSessionId
  receiveSequence := receiveSequence
  messageType := messageType
  subscriptionContext := .symbols
  symbol := some "VIC"
  sourceTimeText := some ("2026/09/04 " ++ localTime)
  receivedAt := 20700 * dayLength + seconds receivedAt
  messageJson := text
  messageSha256 := sha256 (.str text)
  envelope_valid := h

end Rehearsal

end MiniLakehouse
