import MiniLakehouse.Arbitration.Model
import MiniLakehouse.Controls.Model
import MiniLakehouse.Promotion.Model

/-!
# Paper execution records

Broker-neutral contracts for causal paper order planning and lifecycle evidence
(`execution/model.py`).  A record the caller supplies carries its validator as
proof fields; a record the code constructs is its fields together with the
proof that the validator's checks hold, and `modelValidate` raises the first
check that fails.
-/

namespace MiniLakehouse

inductive PaperBlockReason where
  | marketStatusIneligible
  | staleQuote
  | insufficientAskQuantity
  | insufficientBidQuantity
  | priceLimit
  | entryNotTerminal
  | entryUnfilled
  | beforeExitHorizon
  | positionUnavailable
  | insufficientSettledAboveCore
  | quantityLimit
  | orderNotionalLimit
  | cycleLimit
  | dailyLossLimit
  | cashLimit
  deriving DecidableEq, Repr

def PaperBlockReason.text : PaperBlockReason → String
  | .marketStatusIneligible => "MARKET_STATUS_INELIGIBLE"
  | .staleQuote => "STALE_QUOTE"
  | .insufficientAskQuantity => "INSUFFICIENT_ASK_QUANTITY"
  | .insufficientBidQuantity => "INSUFFICIENT_BID_QUANTITY"
  | .priceLimit => "PRICE_LIMIT"
  | .entryNotTerminal => "ENTRY_NOT_TERMINAL"
  | .entryUnfilled => "ENTRY_UNFILLED"
  | .beforeExitHorizon => "BEFORE_EXIT_HORIZON"
  | .positionUnavailable => "POSITION_UNAVAILABLE"
  | .insufficientSettledAboveCore => "INSUFFICIENT_SETTLED_ABOVE_CORE"
  | .quantityLimit => "QUANTITY_LIMIT"
  | .orderNotionalLimit => "ORDER_NOTIONAL_LIMIT"
  | .cycleLimit => "CYCLE_LIMIT"
  | .dailyLossLimit => "DAILY_LOSS_LIMIT"
  | .cashLimit => "CASH_LIMIT"

inductive PaperEventType where
  | accepted
  | partiallyFilled
  | filled
  | rejected
  | cancelled
  | expired
  deriving DecidableEq, Repr

inductive PaperOrderStatus where
  | created
  | accepted
  | partiallyFilled
  | filled
  | rejected
  | cancelled
  | expired
  deriving DecidableEq, Repr

inductive PaperReservationStatus where
  | entryPending
  | «open»
  | exitPending
  deriving DecidableEq, Repr

inductive OrderLeg where
  | entry
  | exit
  deriving DecidableEq, Repr

inductive OrderAction where
  | buy
  | sell
  deriving DecidableEq, Repr

/-! ## Market facts -/

/-- Exact market facts visible when a paper order is planned. -/
structure PaperMarketSnapshot (D : Type) where
  symbol : String
  observedAt : Instant
  quoteReceivedAt : Instant
  streamSessionId : String
  receiveSequence : Nat
  bestAskPrice : Rat
  bestAskQuantity : Nat
  bestBidPrice : Rat
  bestBidQuantity : Nat
  referencePrice : Rat
  ceilingPrice : Rat
  floorPrice : Rat
  tickSize : Rat
  marketStatus : String
  sourceSha256 : D
  identifiers_upper : isUpperIdentifier symbol ∧ isUpperIdentifier marketStatus
  position_valid : streamSessionId ≠ "" ∧ 1 ≤ receiveSequence
  quantities_pos : 1 ≤ bestAskQuantity ∧ 1 ≤ bestBidQuantity
  prices_pos : 0 < bestAskPrice ∧ 0 < bestBidPrice ∧ 0 < referencePrice ∧
    0 < ceilingPrice ∧ 0 < floorPrice ∧ 0 < tickSize
  received_before : quoteReceivedAt ≤ observedAt
  band_ordered : floorPrice ≤ referencePrice ∧ referencePrice ≤ ceilingPrice
  ask_in_band : floorPrice ≤ bestAskPrice ∧ bestAskPrice ≤ ceilingPrice
  bid_in_band : floorPrice ≤ bestBidPrice ∧ bestBidPrice < bestAskPrice
  ticks_aligned : (bestAskPrice / tickSize).isInt ∧ (bestBidPrice / tickSize).isInt
  deriving DecidableEq

namespace PaperMarketSnapshot

variable {D : Type}

def modelDump (market : PaperMarketSnapshot D) : Json D :=
  .arr [.str market.symbol, .int market.observedAt, .int market.quoteReceivedAt,
    .str market.streamSessionId, .nat market.receiveSequence, .num market.bestAskPrice,
    .nat market.bestAskQuantity, .num market.bestBidPrice, .nat market.bestBidQuantity,
    .num market.referencePrice, .num market.ceilingPrice, .num market.floorPrice,
    .num market.tickSize, .str market.marketStatus, .sha market.sourceSha256]

/-- The dump determines the snapshot. -/
theorem modelDump_injective :
    Function.Injective (modelDump : PaperMarketSnapshot D → Json D) := by
  intro a b h
  cases a
  cases b
  simp only [modelDump, Json.arr_inj, List.cons.injEq, Json.int_inj, Json.str.injEq,
    Json.nat_inj, Json.num.injEq, Json.sha.injEq, and_true] at h
  obtain ⟨rfl, rfl, rfl, rfl, rfl, rfl, rfl, rfl, rfl, rfl, rfl, rfl, rfl, rfl, rfl⟩ := h
  rfl

def sha256 [Hashing D] (market : PaperMarketSnapshot D) : D :=
  Hashing.sha256 market.modelDump

/-- Best price on the side an action takes from. -/
def bestPrice (market : PaperMarketSnapshot D) : OrderAction → Rat
  | .buy => market.bestAskPrice
  | .sell => market.bestBidPrice

/-- Displayed quantity at the best price on the side an action takes from. -/
def bestQuantity (market : PaperMarketSnapshot D) : OrderAction → Nat
  | .buy => market.bestAskQuantity
  | .sell => market.bestBidQuantity

end PaperMarketSnapshot

/-! ## Resources -/

structure PaperResourcePosition where
  symbol : String
  availableExitQuantity : Nat
  symbol_pattern : isSymbolName symbol
  deriving DecidableEq

structure PaperReservationFields (D : Type) where
  entryIntentSha256 : D
  exitIntentSha256 : Option D
  symbol : String
  status : PaperReservationStatus
  reservedCashVnd : Rat
  reservedExitQuantity : Nat
  entryFilledQuantity : Nat
  entryAverageFillPrice : Option Rat
  deriving DecidableEq

/-- `PaperReservation.validate_reservation` with the field constraints. -/
def PaperReservationFields.checks {D : Type} (fields : PaperReservationFields D) :
    List (Check Raised) :=
  [⟨isSymbolName fields.symbol, .fieldError "symbol"⟩,
    ⟨0 ≤ fields.reservedCashVnd, .fieldError "reserved_cash_vnd"⟩,
    ⟨fields.entryAverageFillPrice.all (0 < ·), .fieldError "entry_average_fill_price"⟩,
    ⟨(fields.entryFilledQuantity == 0) == fields.entryAverageFillPrice.isNone,
      .valueError "paper reservation entry fill is inconsistent"⟩,
    ⟨fields.status != .entryPending || (fields.exitIntentSha256.isNone &&
      0 < fields.reservedCashVnd && fields.entryFilledQuantity == 0),
      .valueError "pending paper entry reservation is inconsistent"⟩,
    ⟨fields.status != .open || (fields.exitIntentSha256.isNone &&
      fields.reservedCashVnd == 0 && fields.entryFilledQuantity != 0 &&
      fields.reservedExitQuantity == fields.entryFilledQuantity),
      .valueError "open paper reservation is inconsistent"⟩,
    ⟨fields.status != .exitPending || (fields.exitIntentSha256.isSome &&
      fields.reservedCashVnd == 0 && fields.entryFilledQuantity != 0 &&
      fields.reservedExitQuantity == fields.entryFilledQuantity),
      .valueError "pending paper exit reservation is inconsistent"⟩]

structure PaperReservation (D : Type) extends PaperReservationFields D where
  valid : AllHold toPaperReservationFields.checks
  deriving DecidableEq

def PaperReservation.modelValidate {D : Type} (fields : PaperReservationFields D) :
    Except Raised (PaperReservation D) :=
  validated fields.checks fun valid => ⟨fields, valid⟩

structure PaperResourceLedgerFields (D : Type) where
  tradeDate : Day
  accountSnapshotSha256 : D
  revision : Nat
  availableCashVnd : Rat
  positions : List PaperResourcePosition
  startedCycles : Nat
  realizedNetPnlVnd : Rat
  reservations : List (PaperReservation D)
  deriving DecidableEq

/-- `PaperResourceLedger.validate_ledger` with the field constraints. -/
def PaperResourceLedgerFields.checks {D : Type} [Hashing D]
    (fields : PaperResourceLedgerFields D) : List (Check Raised) :=
  let symbols := fields.positions.map (·.symbol)
  [⟨0 ≤ fields.availableCashVnd, .fieldError "available_cash_vnd"⟩,
    ⟨symbols.Pairwise (· < ·),
      .valueError "paper resource positions must be unique and ordered"⟩,
    ⟨(fields.reservations.map (·.entryIntentSha256)).Pairwise (· < ·),
      .valueError "paper reservations must be unique and ordered"⟩,
    ⟨fields.reservations.all fun item => symbols.contains item.symbol,
      .valueError "paper reservation symbol is absent from account resources"⟩]

/-- Compare-and-swap friendly paper resources. -/
structure PaperResourceLedger (D : Type) [Hashing D]
    extends PaperResourceLedgerFields D where
  valid : AllHold toPaperResourceLedgerFields.checks

namespace PaperResourceLedger

variable {D : Type} [Hashing D]

@[ext] theorem ext_fields {a b : PaperResourceLedger D}
    (h : a.toPaperResourceLedgerFields = b.toPaperResourceLedgerFields) : a = b := by
  cases a; cases b; cases h; rfl

instance : DecidableEq (PaperResourceLedger D) :=
  fun _ _ => decidable_of_iff _ ⟨ext_fields, fun h => by rw [h]⟩

def modelValidate (fields : PaperResourceLedgerFields D) :
    Except Raised (PaperResourceLedger D) :=
  validated fields.checks fun valid => ⟨fields, valid⟩

private def statusText : PaperReservationStatus → String
  | .entryPending => "ENTRY_PENDING"
  | .open => "OPEN"
  | .exitPending => "EXIT_PENDING"

private def reservationDump (item : PaperReservation D) : Json D :=
  .arr [.sha item.entryIntentSha256, .opt .sha item.exitIntentSha256, .str item.symbol,
    .str (statusText item.status), .num item.reservedCashVnd,
    .nat item.reservedExitQuantity, .nat item.entryFilledQuantity,
    .opt .num item.entryAverageFillPrice]

def modelDump (ledger : PaperResourceLedger D) : Json D :=
  .arr [.int ledger.tradeDate, .sha ledger.accountSnapshotSha256, .nat ledger.revision,
    .num ledger.availableCashVnd,
    .list (fun item => .arr [.str item.symbol, .nat item.availableExitQuantity])
      ledger.positions,
    .nat ledger.startedCycles, .num ledger.realizedNetPnlVnd,
    .list reservationDump ledger.reservations]

private theorem statusText_injective : Function.Injective statusText := by
  intro a b h
  cases a <;> cases b <;> first | rfl | exact absurd h (by decide)

omit [Hashing D] in
private theorem reservationDump_injective :
    Function.Injective (reservationDump : PaperReservation D → Json D) := by
  intro a b h
  rcases a with ⟨⟨_, _, _, _, _, _, _, _⟩, _⟩
  rcases b with ⟨⟨_, _, _, _, _, _, _, _⟩, _⟩
  simp only [reservationDump, Json.arr_inj, List.cons.injEq, Json.sha.injEq, Json.str.injEq,
    Json.nat_inj, Json.num.injEq, (Json.opt_inj Json.sha_injective).eq_iff,
    (Json.opt_inj Json.num_injective).eq_iff, statusText_injective.eq_iff, and_true] at h
  obtain ⟨rfl, rfl, rfl, rfl, rfl, rfl, rfl, rfl⟩ := h
  rfl

omit [Hashing D] in
private theorem positionDump_injective : Function.Injective
    fun item : PaperResourcePosition =>
      (Json.arr [.str item.symbol, .nat item.availableExitQuantity] : Json D) := by
  intro a b h
  cases a
  cases b
  simp only [Json.arr_inj, List.cons.injEq, Json.str.injEq, Json.nat_inj, and_true] at h
  obtain ⟨rfl, rfl⟩ := h
  rfl

/-- The dump determines the ledger. -/
theorem modelDump_injective :
    Function.Injective (modelDump : PaperResourceLedger D → Json D) := by
  intro a b h
  rcases a with ⟨⟨_, _, _, _, _, _, _, _⟩, _⟩
  rcases b with ⟨⟨_, _, _, _, _, _, _, _⟩, _⟩
  simp only [modelDump, Json.arr_inj, List.cons.injEq, Json.int_inj, Json.sha.injEq,
    Json.nat_inj, Json.num.injEq, (Json.list_inj positionDump_injective).eq_iff,
    (Json.list_inj reservationDump_injective).eq_iff, and_true] at h
  obtain ⟨rfl, rfl, rfl, rfl, rfl, rfl, rfl, rfl⟩ := h
  rfl

def sha256 (ledger : PaperResourceLedger D) : D := Hashing.sha256 ledger.modelDump

end PaperResourceLedger

/-! ## Orders -/

structure PaperOrderIntentFields (D : Type) where
  executionVersion : String
  executionConfigurationSha256 : D
  requestSha256 : D
  promotionReportSha256 : D
  arbitrationSha256 : D
  candidateSha256 : D
  strategy : String
  symbol : String
  tradeDate : Day
  decisionAt : Instant
  horizonSeconds : Nat
  leg : OrderLeg
  action : OrderAction
  quantity : Nat
  limitPrice : Rat
  priority : Nat
  createdAt : Instant
  expiresAt : Instant
  reservedCashVnd : Rat
  reservedExitQuantity : Nat
  marketSnapshotSha256 : D
  selectionSourceSha256 : D
  resourceLedgerSha256 : D
  parentIntentSha256 : Option D
  deriving DecidableEq

namespace PaperOrderIntentFields

variable {D : Type}

/-- `PaperOrderIntent.validate_intent` with the field constraints. -/
def checks (fields : PaperOrderIntentFields D) : List (Check Raised) :=
  [⟨isVersionName fields.executionVersion, .fieldError "execution_version"⟩,
    ⟨isStrategyName fields.strategy, .fieldError "strategy"⟩,
    ⟨isSymbolName fields.symbol, .fieldError "symbol"⟩,
    ⟨1 ≤ fields.horizonSeconds && fields.horizonSeconds ≤ 86400,
      .fieldError "horizon_seconds"⟩,
    ⟨1 ≤ fields.quantity, .fieldError "quantity"⟩,
    ⟨0 < fields.limitPrice, .fieldError "limit_price"⟩,
    ⟨0 ≤ fields.reservedCashVnd, .fieldError "reserved_cash_vnd"⟩,
    ⟨1 ≤ fields.reservedExitQuantity, .fieldError "reserved_exit_quantity"⟩,
    ⟨fields.decisionAt ≤ fields.createdAt && fields.createdAt < fields.expiresAt,
      .valueError "paper intent timestamps are not ordered"⟩,
    ⟨fields.reservedExitQuantity == fields.quantity,
      .valueError "paper intent exit reservation must equal order quantity"⟩,
    ⟨fields.leg != .entry || (fields.action == .buy &&
      fields.parentIntentSha256.isNone && 0 < fields.reservedCashVnd),
      .valueError "paper entry intent is inconsistent"⟩,
    ⟨fields.leg != .exit || (fields.action == .sell &&
      fields.parentIntentSha256.isSome && fields.reservedCashVnd == 0),
      .valueError "paper exit intent is inconsistent"⟩]

private def legText : OrderLeg → String
  | .entry => "ENTRY"
  | .exit => "EXIT"

private def actionText : OrderAction → String
  | .buy => "BUY"
  | .sell => "SELL"

def modelDump (fields : PaperOrderIntentFields D) : Json D :=
  .arr [.str fields.executionVersion, .sha fields.executionConfigurationSha256,
    .sha fields.requestSha256, .sha fields.promotionReportSha256,
    .sha fields.arbitrationSha256, .sha fields.candidateSha256, .str fields.strategy,
    .str fields.symbol, .int fields.tradeDate, .int fields.decisionAt,
    .nat fields.horizonSeconds, .str (legText fields.leg), .str (actionText fields.action),
    .nat fields.quantity, .num fields.limitPrice, .nat fields.priority,
    .int fields.createdAt, .int fields.expiresAt, .num fields.reservedCashVnd,
    .nat fields.reservedExitQuantity, .sha fields.marketSnapshotSha256,
    .sha fields.selectionSourceSha256, .sha fields.resourceLedgerSha256,
    .opt .sha fields.parentIntentSha256]

private theorem legText_injective : Function.Injective legText := by
  intro a b h
  cases a <;> cases b <;> first | rfl | exact absurd h (by decide)

private theorem actionText_injective : Function.Injective actionText := by
  intro a b h
  cases a <;> cases b <;> first | rfl | exact absurd h (by decide)

/-- The dump determines the intent. -/
theorem modelDump_injective :
    Function.Injective (modelDump : PaperOrderIntentFields D → Json D) := by
  intro a b h
  cases a
  cases b
  simp only [modelDump, Json.arr_inj, List.cons.injEq, Json.int_inj, Json.sha.injEq,
    Json.str.injEq, Json.nat_inj, Json.num.injEq, (Json.opt_inj Json.sha_injective).eq_iff,
    legText_injective.eq_iff, actionText_injective.eq_iff, and_true] at h
  obtain ⟨rfl, rfl, rfl, rfl, rfl, rfl, rfl, rfl, rfl, rfl, rfl, rfl, rfl, rfl, rfl, rfl, rfl,
    rfl, rfl, rfl, rfl, rfl, rfl, rfl⟩ := h
  rfl

end PaperOrderIntentFields

/-- Deterministic paper-only order; never a broker-routing payload. -/
structure PaperOrderIntent (D : Type) extends PaperOrderIntentFields D where
  valid : AllHold toPaperOrderIntentFields.checks
  deriving DecidableEq

namespace PaperOrderIntent

variable {D : Type}

def modelValidate (fields : PaperOrderIntentFields D) : Except Raised (PaperOrderIntent D) :=
  validated fields.checks fun valid => ⟨fields, valid⟩

def sha256 [Hashing D] (intent : PaperOrderIntent D) : D := Hashing.sha256 intent.modelDump

end PaperOrderIntent

inductive PaperPlanStatus where
  | ready
  | blocked
  deriving DecidableEq, Repr

/-- The planner's verdict: an intent, or the ordered reasons against one. -/
structure PaperOrderPlan (D : Type) where
  arbitrationSha256 : D
  status : PaperPlanStatus
  reasons : List PaperBlockReason
  intent : Option (PaperOrderIntent D)
  reasons_nodup : reasons.Nodup
  ready_iff : status = .ready ↔ intent.isSome ∧ reasons = []
  deriving DecidableEq

structure PaperFillEvidenceFields (D : Type) where
  symbol : String
  action : OrderAction
  observedAt : Instant
  streamSessionId : String
  receiveSequence : Nat
  filledQuantity : Nat
  availableQuantity : Nat
  fillPrice : Rat
  sourceSha256 : D
  deriving DecidableEq

namespace PaperFillEvidenceFields

variable {D : Type}

/-- `PaperFillEvidence.validate_liquidity` with the field constraints. -/
def checks (fields : PaperFillEvidenceFields D) : List (Check Raised) :=
  [⟨isSymbolName fields.symbol, .fieldError "symbol"⟩,
    ⟨fields.streamSessionId != "", .fieldError "stream_session_id"⟩,
    ⟨1 ≤ fields.receiveSequence, .fieldError "receive_sequence"⟩,
    ⟨1 ≤ fields.filledQuantity, .fieldError "filled_quantity"⟩,
    ⟨1 ≤ fields.availableQuantity, .fieldError "available_quantity"⟩,
    ⟨0 < fields.fillPrice, .fieldError "fill_price"⟩,
    ⟨fields.filledQuantity ≤ fields.availableQuantity,
      .valueError "paper fill cannot exceed evidenced liquidity"⟩]

private def actionText : OrderAction → String
  | .buy => "BUY"
  | .sell => "SELL"

def modelDump (fields : PaperFillEvidenceFields D) : Json D :=
  .arr [.str fields.symbol, .str (actionText fields.action), .int fields.observedAt,
    .str fields.streamSessionId, .nat fields.receiveSequence, .nat fields.filledQuantity,
    .nat fields.availableQuantity, .num fields.fillPrice, .sha fields.sourceSha256]

private theorem actionText_injective : Function.Injective actionText := by
  intro a b h
  cases a <;> cases b <;> first | rfl | exact absurd h (by decide)

/-- The dump determines the evidence. -/
theorem modelDump_injective :
    Function.Injective (modelDump : PaperFillEvidenceFields D → Json D) := by
  intro a b h
  cases a
  cases b
  simp only [modelDump, Json.arr_inj, List.cons.injEq, Json.int_inj, Json.sha.injEq,
    Json.str.injEq, Json.nat_inj, Json.num.injEq, actionText_injective.eq_iff, and_true] at h
  obtain ⟨rfl, rfl, rfl, rfl, rfl, rfl, rfl, rfl, rfl⟩ := h
  rfl

end PaperFillEvidenceFields

/-- One fill increment tied to immutable market evidence. -/
structure PaperFillEvidence (D : Type) extends PaperFillEvidenceFields D where
  valid : AllHold toPaperFillEvidenceFields.checks
  deriving DecidableEq

def PaperFillEvidence.modelValidate {D : Type} (fields : PaperFillEvidenceFields D) :
    Except Raised (PaperFillEvidence D) :=
  validated fields.checks fun valid => ⟨fields, valid⟩

/-- An adapter's name for an event: the top-of-book matcher spells its evidence
digest, any other adapter a text of its own. -/
inductive AdapterEventId (D : Type) where
  | topOfBook (evidence : D)
  | other (text : String)
  deriving DecidableEq

structure PaperOrderEventFields (D : Type) where
  intentSha256 : D
  sequence : Nat
  eventType : PaperEventType
  occurredAt : Instant
  cumulativeFilledQuantity : Nat
  averageFillPrice : Option Rat
  reason : Option String
  adapterEventId : AdapterEventId D
  adapterEvidenceSha256 : D
  fillEvidence : Option (PaperFillEvidence D)
  deriving DecidableEq

/-- The event types that close an order without an activity. -/
def PaperEventType.needsReason : PaperEventType → Bool
  | .rejected | .cancelled | .expired => true
  | .accepted | .partiallyFilled | .filled => false

/-- The event types that carry a fill. -/
def PaperEventType.isFill : PaperEventType → Bool
  | .partiallyFilled | .filled => true
  | .accepted | .rejected | .cancelled | .expired => false

def PaperEventType.text : PaperEventType → String
  | .accepted => "ACCEPTED"
  | .partiallyFilled => "PARTIALLY_FILLED"
  | .filled => "FILLED"
  | .rejected => "REJECTED"
  | .cancelled => "CANCELLED"
  | .expired => "EXPIRED"

namespace PaperOrderEventFields

variable {D : Type}

/-- `PaperOrderEvent.validate_event` with the field constraints. -/
def checks (fields : PaperOrderEventFields D) : List (Check Raised) :=
  [⟨1 ≤ fields.sequence, .fieldError "sequence"⟩,
    ⟨fields.averageFillPrice.all (0 < ·), .fieldError "average_fill_price"⟩,
    ⟨match fields.adapterEventId with
      | .topOfBook _ => true
      | .other text => text != "", .fieldError "adapter_event_id"⟩,
    ⟨(fields.cumulativeFilledQuantity == 0) == fields.averageFillPrice.isNone,
      .valueError "paper fill quantity and average price must appear together"⟩,
    ⟨!fields.eventType.needsReason || fields.reason.any (!isBlankText ·),
      .valueError "terminal paper event requires a reason"⟩,
    ⟨fields.eventType.needsReason || fields.reason.isNone,
      .valueError "non-terminal paper event cannot carry a reason"⟩,
    ⟨fields.eventType.isFill == fields.fillEvidence.isSome,
      .valueError "paper fill events require exact market evidence"⟩]

private def adapterDump : AdapterEventId D → Json D
  | .topOfBook evidence => .sha evidence
  | .other text => .str text

def modelDump (fields : PaperOrderEventFields D) : Json D :=
  .arr [.sha fields.intentSha256, .nat fields.sequence, .str fields.eventType.text,
    .int fields.occurredAt, .nat fields.cumulativeFilledQuantity,
    .opt .num fields.averageFillPrice, .opt .str fields.reason,
    adapterDump fields.adapterEventId, .sha fields.adapterEvidenceSha256,
    .opt (fun fill => fill.modelDump) fields.fillEvidence]

private theorem eventText_injective : Function.Injective PaperEventType.text := by
  intro a b h
  cases a <;> cases b <;> first | rfl | exact absurd h (by decide)

private theorem adapterDump_injective :
    Function.Injective (adapterDump : AdapterEventId D → Json D) := by
  intro a b h
  cases a <;> cases b <;> cases h <;> rfl

private theorem fillDump_injective :
    Function.Injective fun fill : PaperFillEvidence D => fill.modelDump := by
  intro a b h
  cases a
  cases b
  obtain rfl := PaperFillEvidenceFields.modelDump_injective h
  rfl

/-- The dump determines the event. -/
theorem modelDump_injective :
    Function.Injective (modelDump : PaperOrderEventFields D → Json D) := by
  intro a b h
  cases a
  cases b
  simp only [modelDump, Json.arr_inj, List.cons.injEq, Json.int_inj, Json.sha.injEq,
    Json.str.injEq, Json.nat_inj, (Json.opt_inj Json.num_injective).eq_iff,
    (Json.opt_inj Json.str_injective).eq_iff, (Json.opt_inj fillDump_injective).eq_iff,
    eventText_injective.eq_iff, adapterDump_injective.eq_iff, and_true] at h
  obtain ⟨rfl, rfl, rfl, rfl, rfl, rfl, rfl, rfl, rfl, rfl⟩ := h
  rfl

end PaperOrderEventFields

/-- Append-only observation from a paper adapter. -/
structure PaperOrderEvent (D : Type) extends PaperOrderEventFields D where
  valid : AllHold toPaperOrderEventFields.checks
  deriving DecidableEq

namespace PaperOrderEvent

variable {D : Type}

def modelValidate (fields : PaperOrderEventFields D) : Except Raised (PaperOrderEvent D) :=
  validated fields.checks fun valid => ⟨fields, valid⟩

def sha256 [Hashing D] (event : PaperOrderEvent D) : D := Hashing.sha256 event.modelDump

end PaperOrderEvent

structure PaperOrderStateFields (D : Type) where
  intentSha256 : D
  status : PaperOrderStatus
  cumulativeFilledQuantity : Nat
  averageFillPrice : Option Rat
  eventCount : Nat
  lastEventSha256 : Option D
  deriving DecidableEq

/-- `PaperOrderState.validate_state` with the field constraints. -/
def PaperOrderStateFields.checks {D : Type} (fields : PaperOrderStateFields D) :
    List (Check Raised) :=
  [⟨fields.averageFillPrice.all (0 < ·), .fieldError "average_fill_price"⟩,
    ⟨(fields.cumulativeFilledQuantity == 0) == fields.averageFillPrice.isNone,
      .valueError "paper order state fill quantity and price are inconsistent"⟩,
    ⟨fields.eventCount != 0 ||
      (fields.status == .created && fields.lastEventSha256.isNone),
      .valueError "paper order state without events must remain CREATED"⟩,
    ⟨fields.eventCount == 0 ||
      (fields.status != .created && fields.lastEventSha256.isSome),
      .valueError "paper order state with events requires event lineage"⟩]

structure PaperOrderState (D : Type) extends PaperOrderStateFields D where
  valid : AllHold toPaperOrderStateFields.checks
  deriving DecidableEq

namespace PaperOrderState

variable {D : Type}

def modelValidate (fields : PaperOrderStateFields D) : Except Raised (PaperOrderState D) :=
  validated fields.checks fun valid => ⟨fields, valid⟩

private def statusText : PaperOrderStatus → String
  | .created => "CREATED"
  | .accepted => "ACCEPTED"
  | .partiallyFilled => "PARTIALLY_FILLED"
  | .filled => "FILLED"
  | .rejected => "REJECTED"
  | .cancelled => "CANCELLED"
  | .expired => "EXPIRED"

def modelDump (state : PaperOrderState D) : Json D :=
  .arr [.sha state.intentSha256, .str (statusText state.status),
    .nat state.cumulativeFilledQuantity, .opt .num state.averageFillPrice,
    .nat state.eventCount, .opt .sha state.lastEventSha256]

end PaperOrderState

/-- `_TERMINAL`, `TERMINAL_STATUSES` -/
def PaperOrderStatus.isTerminal : PaperOrderStatus → Bool
  | .filled | .rejected | .cancelled | .expired => true
  | .created | .accepted | .partiallyFilled => false

/-! ## Requests -/

/-- One selected candidate plus only facts available before paper submission. -/
structure PaperExecutionRequest (D : Type) [Hashing D] where
  candidate : BaselineCandidate D
  arbitration : CandidateArbitration D
  promotion : PromotionGateReport D
  selection : SelectionEvidence D
  market : PaperMarketSnapshot D
  account : AccountSnapshot
  costs : CostPolicy
  risk : RiskLimits
  resources : PaperResourceLedger D
  candidate_selected : SelectsCandidate candidate arbitration
  promoted : promotion.status = .pass ∧
    promotion.arbitrationVersion = arbitration.arbitrationVersion ∧
    promotion.arbitrationConfigurationSha256 = arbitration.arbitrationConfigurationSha256 ∧
    (promotion.targets.filter fun item => item.strategy = candidate.strategy ∧
      item.symbol = candidate.symbol ∧
      item.horizonSeconds = arbitration.horizonSeconds).map (·.status) = [.pass] ∧
    ∃ last ∈ promotion.holdoutDates.getLast?, last < candidate.tradeDate
  selection_timely : selection.arbitrationSha256 = arbitration.sha256 ∧
    candidate.decisionAt ≤ selection.selectedAt ∧ selection.selectedAt ≤ market.observedAt
  market_matches : market.symbol = candidate.symbol ∧
    candidate.decisionAt ≤ market.observedAt ∧
    marketTimezone.date market.observedAt = candidate.tradeDate
  account_precedes : account.asOf ≤ market.observedAt ∧
    marketTimezone.date account.asOf = candidate.tradeDate
  costs_effective : costs.contains candidate.tradeDate
  resources_match : resources.tradeDate = candidate.tradeDate ∧
    resources.accountSnapshotSha256 = account.sha256

/-- `PaperExecutionRequest.sha256` -/
def PaperExecutionRequest.sha256 {D : Type} [Hashing D]
    (request : PaperExecutionRequest D) : D :=
  Hashing.sha256 (.arr [request.candidate.modelDump, request.arbitration.modelDump,
    request.promotion.modelDump, request.selection.modelDump, request.market.modelDump,
    request.account.modelDump, request.costs.modelDump, request.risk.modelDump,
    request.resources.modelDump])

structure PaperExitRequestFields (D : Type) [Hashing D] where
  entryIntent : PaperOrderIntent D
  entryState : PaperOrderState D
  market : PaperMarketSnapshot D
  resources : PaperResourceLedger D

section

variable {D : Type} [Hashing D]

/-- `PaperExitRequest.validate_request` -/
def PaperExitRequestFields.checks (fields : PaperExitRequestFields D) :
    List (Check Raised) :=
  let entry := fields.entryIntent
  let state := fields.entryState
  [⟨entry.leg == .entry && state.intentSha256 == entry.sha256 &&
      fields.market.symbol == entry.symbol &&
      marketTimezone.date fields.market.observedAt == entry.tradeDate &&
      state.cumulativeFilledQuantity ≤ entry.quantity &&
      (state.status != .filled || state.cumulativeFilledQuantity == entry.quantity) &&
      fields.resources.reservations.any fun item =>
        item.entryIntentSha256 == entry.sha256 && item.status == .open &&
          0 < item.reservedExitQuantity &&
          item.reservedExitQuantity ≤ state.cumulativeFilledQuantity,
      .valueError "paper exit does not match its entry lineage"⟩]

/-- A paper exit for the quantity actually filled by one terminal entry order. -/
structure PaperExitRequest (D : Type) [Hashing D] extends PaperExitRequestFields D where
  valid : AllHold toPaperExitRequestFields.checks

namespace PaperExitRequest

def modelValidate (fields : PaperExitRequestFields D) :
    Except Raised (PaperExitRequest D) :=
  validated fields.checks fun valid => ⟨fields, valid⟩

def sha256 (request : PaperExitRequest D) : D :=
  Hashing.sha256 (.arr [request.entryIntent.modelDump, request.entryState.modelDump,
    request.market.modelDump, request.resources.modelDump])

end PaperExitRequest

/-- Whether new paper entries may be admitted on a date. -/
inductive PaperMode where
  | observeOnly
  | paper
  deriving DecidableEq, Repr

/-- The verdict of the exact preceding session's gate (`execution/readiness.py`). -/
structure PaperReadiness (D : Type) where
  tradeDate : Day
  previousSession : Day
  mode : PaperMode
  reason : String
  promotion : Option (PromotionGateReport D)
  researchLineage : Option (ResearchLineage D)
  paper_promoted : mode = .paper → reason = "PROMOTION_PASS" ∧
    (∃ report ∈ promotion, ∃ lineage ∈ researchLineage, report.status = .pass ∧
      lineage.arbitrationConfigurationSha256 = report.arbitrationConfigurationSha256) ∧
    previousSession < tradeDate

end

end MiniLakehouse
