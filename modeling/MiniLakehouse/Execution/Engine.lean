import MiniLakehouse.Execution.Model

/-!
# Paper-order planner and lifecycle reducer

`execution/engine.py`: the planner turns a request into an intent or into the
ordered reasons against one, and the reducer folds adapter evidence into an
order state while rejecting impossible histories.
-/

namespace MiniLakehouse

variable {D : Type} [Hashing D]

/-- `_BPS` -/
def bps : Rat := 10000

/-- The reasons whose condition holds, in the order they are tested. -/
def blockReasons (conditions : List (PaperBlockReason × Bool)) : List PaperBlockReason :=
  (conditions.filter (·.2)).map (·.1)

theorem blockReasons_nodup {conditions : List (PaperBlockReason × Bool)}
    (h : (conditions.map (·.1)).Nodup) : (blockReasons conditions).Nodup :=
  h.sublist (List.filter_sublist.map _)

namespace PaperOrderPlan

def blocked (arbitrationSha256 : D) (reasons : List PaperBlockReason)
    (nodup : reasons.Nodup) : PaperOrderPlan D :=
  ⟨arbitrationSha256, .blocked, reasons, none, nodup, by simp⟩

def ready (arbitrationSha256 : D) (intent : PaperOrderIntent D) : PaperOrderPlan D :=
  ⟨arbitrationSha256, .ready, [], some intent, List.nodup_nil, by simp⟩

end PaperOrderPlan

/-- The quote is older than the policy admits. -/
def isStaleQuote (market : PaperMarketSnapshot D) (policy : PaperExecutionVersion) : Bool :=
  seconds policy.maximumQuoteAgeSeconds < market.observedAt - market.quoteReceivedAt

/-- Reasons against an entry, in the source's order. -/
def entryConditions (request : PaperExecutionRequest D) (policy : PaperExecutionVersion)
    (contextPolicy : ContextVersion) (limitPrice notional reservedCash : Rat) :
    List (PaperBlockReason × Bool) :=
  let market := request.market
  let resources := request.resources
  let quantity := policy.orderQuantity
  let position := resources.positions.find? (·.symbol == request.candidate.symbol)
  [(.marketStatusIneligible,
      !contextPolicy.tradableMarketStatuses.contains market.marketStatus),
    (.staleQuote, isStaleQuote market policy),
    (.insufficientAskQuantity, market.bestAskQuantity < quantity),
    (.priceLimit, limitPrice > market.ceilingPrice || limitPrice < market.floorPrice),
    (.positionUnavailable, position.isNone),
    (.insufficientSettledAboveCore, position.any (·.availableExitQuantity < quantity)),
    (.quantityLimit, quantity > request.risk.maxCycleQuantity),
    (.orderNotionalLimit, notional > request.risk.maxOrderNotionalVnd),
    (.cycleLimit, resources.startedCycles ≥ request.risk.maxCyclesPerDay),
    (.dailyLossLimit, resources.realizedNetPnlVnd ≤ -request.risk.maxDailyLossVnd),
    (.cashLimit, resources.availableCashVnd - reservedCash < request.risk.cashReserveVnd)]

/-- The policies are the ones the selected arbitration was promoted under. -/
def EntryPoliciesMatch (request : PaperExecutionRequest D) (policy : PaperExecutionVersion)
    (arbitrationPolicy : CandidateArbitrationVersion) (contextPolicy : ContextVersion)
    (promotionPolicy : PromotionGateVersion) : Prop :=
  policy.contains request.candidate.tradeDate ∧
    contextPolicy.contains request.candidate.tradeDate ∧
    policy.arbitrationVersion = arbitrationPolicy.version ∧
    policy.promotionGateVersion = promotionPolicy.version ∧
    policy.contextVersion = contextPolicy.version ∧
    request.arbitration.arbitrationVersion = arbitrationPolicy.version ∧
    request.arbitration.arbitrationConfigurationSha256 = arbitrationPolicy.sha256 ∧
    request.promotion.gateVersion = promotionPolicy.version ∧
    request.promotion.gateConfigurationSha256 = promotionPolicy.sha256 ∧
    request.promotion.evaluationVersion = promotionPolicy.evaluationVersion ∧
    request.promotion.arbitrationVersion = promotionPolicy.arbitrationVersion

instance (request : PaperExecutionRequest D) (policy : PaperExecutionVersion)
    (arbitrationPolicy : CandidateArbitrationVersion) (contextPolicy : ContextVersion)
    (promotionPolicy : PromotionGateVersion) : Decidable
      (EntryPoliciesMatch request policy arbitrationPolicy contextPolicy promotionPolicy) := by
  unfold EntryPoliciesMatch; infer_instance

/-- `plan_paper_order`: a paper-only BUY limit order. -/
def planPaperOrder (request : PaperExecutionRequest D) (policy : PaperExecutionVersion)
    (arbitrationPolicy : CandidateArbitrationVersion) (contextPolicy : ContextVersion)
    (promotionPolicy : PromotionGateVersion) : Except Raised (PaperOrderPlan D) := do
  let candidate := request.candidate
  let arbitration := request.arbitration
  let market := request.market
  require (EntryPoliciesMatch request policy arbitrationPolicy contextPolicy promotionPolicy)
    (.valueError "paper execution policy does not match selected arbitration")
  let quantity := policy.orderQuantity
  let limitPrice := market.bestAskPrice + market.tickSize * policy.limitOffsetTicks
  let notional := limitPrice * quantity
  let reservedCash := notional * (1 + request.costs.buyFeeBps / bps)
  let conditions := entryConditions request policy contextPolicy limitPrice notional reservedCash
  if blockReasons conditions ≠ [] then
    return .blocked arbitration.sha256 (blockReasons conditions)
      (blockReasons_nodup (by simp [conditions, entryConditions]))
  match arbitration.priority with
  | none =>
      throw (.valueError "selected arbitration is missing paper execution priority")
  | some priority =>
      let intent ← PaperOrderIntent.modelValidate {
        executionVersion := policy.version
        executionConfigurationSha256 := policy.sha256
        requestSha256 := request.sha256
        promotionReportSha256 := request.promotion.sha256
        arbitrationSha256 := arbitration.sha256
        candidateSha256 := candidate.sha256
        strategy := candidate.strategy.text
        symbol := candidate.symbol
        tradeDate := candidate.tradeDate
        decisionAt := candidate.decisionAt
        horizonSeconds := arbitration.horizonSeconds
        leg := .entry
        action := .buy
        quantity := quantity
        limitPrice := limitPrice
        priority := priority
        createdAt := market.observedAt
        expiresAt := market.observedAt + seconds policy.timeInForceSeconds
        reservedCashVnd := reservedCash
        reservedExitQuantity := quantity
        marketSnapshotSha256 := market.sha256
        selectionSourceSha256 := request.selection.sourceSha256
        resourceLedgerSha256 := request.resources.sha256
        parentIntentSha256 := none }
      return .ready arbitration.sha256 intent

/-- Reasons against an exit, in the source's order. -/
def exitConditions (request : PaperExitRequest D) (policy : PaperExecutionVersion)
    (contextPolicy : ContextVersion) (quantity : Nat) (limitPrice : Rat) :
    List (PaperBlockReason × Bool) :=
  let entry := request.entryIntent
  let market := request.market
  [(.entryNotTerminal, !request.entryState.status.isTerminal),
    (.entryUnfilled, quantity == 0),
    (.beforeExitHorizon, market.observedAt < entry.decisionAt + seconds entry.horizonSeconds),
    (.marketStatusIneligible,
      !contextPolicy.tradableMarketStatuses.contains market.marketStatus),
    (.staleQuote, isStaleQuote market policy),
    (.insufficientBidQuantity, market.bestBidQuantity < quantity),
    (.priceLimit, limitPrice < market.floorPrice || limitPrice > market.ceilingPrice)]

/-- `plan_paper_exit`: the SELL leg from terminal paper entry evidence. -/
def planPaperExit (request : PaperExitRequest D) (policy : PaperExecutionVersion)
    (contextPolicy : ContextVersion) : Except Raised (PaperOrderPlan D) := do
  let entry := request.entryIntent
  let market := request.market
  match request.resources.reservations.find? fun item =>
      item.entryIntentSha256 == entry.sha256 && item.status == .open with
  | none => throw .stopIteration
  | some reservation =>
      require (policy.contains entry.tradeDate ∧ contextPolicy.contains entry.tradeDate ∧
          entry.executionVersion = policy.version ∧
          entry.executionConfigurationSha256 = policy.sha256)
        (.valueError "paper exit policy does not match its entry intent")
      let quantity := reservation.reservedExitQuantity
      let limitPrice := market.bestBidPrice - market.tickSize * policy.limitOffsetTicks
      let conditions := exitConditions request policy contextPolicy quantity limitPrice
      if blockReasons conditions ≠ [] then
        return .blocked entry.arbitrationSha256 (blockReasons conditions)
          (blockReasons_nodup (by simp [conditions, exitConditions]))
      let intent ← PaperOrderIntent.modelValidate {
        executionVersion := entry.executionVersion
        executionConfigurationSha256 := entry.executionConfigurationSha256
        requestSha256 := request.sha256
        promotionReportSha256 := entry.promotionReportSha256
        arbitrationSha256 := entry.arbitrationSha256
        candidateSha256 := entry.candidateSha256
        strategy := entry.strategy
        symbol := entry.symbol
        tradeDate := entry.tradeDate
        decisionAt := entry.decisionAt
        horizonSeconds := entry.horizonSeconds
        leg := .exit
        action := .sell
        quantity := quantity
        limitPrice := limitPrice
        priority := entry.priority
        createdAt := market.observedAt
        expiresAt := market.observedAt + seconds policy.timeInForceSeconds
        reservedCashVnd := 0
        reservedExitQuantity := quantity
        marketSnapshotSha256 := market.sha256
        selectionSourceSha256 := entry.selectionSourceSha256
        resourceLedgerSha256 := request.resources.sha256
        parentIntentSha256 := some entry.sha256 }
      return .ready entry.arbitrationSha256 intent

/-! ## The lifecycle reducer -/

/-- Order of fill evidence: receipt, stream session, sequence. -/
abbrev FillPosition := Instant ×ₗ String ×ₗ Nat

/-- `fill_position` -/
def PaperFillEvidenceFields.position (fill : PaperFillEvidenceFields D) : FillPosition :=
  toLex (fill.observedAt, toLex (fill.streamSessionId, fill.receiveSequence))

/-- `fill_identity` -/
def PaperFillEvidenceFields.identity (fill : PaperFillEvidenceFields D) : String × Nat × D :=
  (fill.streamSessionId, fill.receiveSequence, fill.sourceSha256)

/-- The price violates the order's limit. -/
def ViolatesLimit (intent : PaperOrderIntent D) (price : Rat) : Prop :=
  (intent.action = .buy ∧ intent.limitPrice < price) ∨
    (intent.action = .sell ∧ price < intent.limitPrice)

instance (intent : PaperOrderIntent D) (price : Rat) :
    Decidable (ViolatesLimit intent price) := by
  unfold ViolatesLimit; infer_instance

/-- `allowed`: the event types that may follow a status. -/
def allowed : PaperOrderStatus → List PaperEventType
  | .created => [.accepted, .rejected, .expired]
  | .accepted | .partiallyFilled => [.partiallyFilled, .filled, .cancelled, .expired]
  | .filled | .rejected | .cancelled | .expired => []

/-- The status an event leaves its order in. -/
def PaperEventType.status : PaperEventType → PaperOrderStatus
  | .accepted => .accepted
  | .partiallyFilled => .partiallyFilled
  | .filled => .filled
  | .rejected => .rejected
  | .cancelled => .cancelled
  | .expired => .expired

/-- The reducer's accumulators. -/
structure Reduction (D : Type) where
  status : PaperOrderStatus
  filled : Nat
  average : Option Rat
  lastAt : Instant
  lastSequence : Nat
  hashes : List D
  adapterIds : List (AdapterEventId D)
  fillPositions : List (String × Nat × D)
  lastFillPosition : Option FillPosition
  deriving DecidableEq

namespace Reduction

def start (intent : PaperOrderIntent D) : Reduction D :=
  ⟨.created, 0, none, intent.createdAt, 0, [], [], [], none⟩

/-- The accumulators after an accepted event. -/
def after (r : Reduction D) (event : PaperOrderEvent D) : Reduction D where
  status := event.eventType.status
  filled := event.cumulativeFilledQuantity
  average := event.averageFillPrice
  lastAt := event.occurredAt
  lastSequence := event.sequence
  hashes := event.sha256 :: r.hashes
  adapterIds := event.adapterEventId :: r.adapterIds
  fillPositions := (event.fillEvidence.map (·.identity)).toList ++ r.fillPositions
  lastFillPosition := (event.fillEvidence.map (·.position)).or r.lastFillPosition

/-- `expected_average` of a fill, absent where an earlier fill has no price. -/
def expectedAverage (r : Reduction D) (event : PaperOrderEvent D)
    (evidence : PaperFillEvidence D) : Except Raised Rat :=
  if r.filled = 0 then .ok evidence.fillPrice
  else
    match r.average with
    | none => .error (.valueError "existing paper fill is missing its average price")
    | some average =>
        let increment := event.cumulativeFilledQuantity - r.filled
        .ok ((average * r.filled + evidence.fillPrice * increment) /
          event.cumulativeFilledQuantity)

end Reduction

/-- The fill part of one reducer step. -/
def reduceFill (intent : PaperOrderIntent D) (r : Reduction D) (event : PaperOrderEvent D) :
    Except Raised Unit :=
  match event.fillEvidence with
  | none => .ok ()
  | some evidence => do
      let expected ← r.expectedAverage event evidence
      require (evidence.symbol = intent.symbol ∧ evidence.action = intent.action ∧
          evidence.filledQuantity = event.cumulativeFilledQuantity - r.filled ∧
          intent.createdAt ≤ evidence.observedAt ∧ evidence.observedAt ≤ event.occurredAt ∧
          event.averageFillPrice = some expected ∧ evidence.identity ∉ r.fillPositions ∧
          ∀ last ∈ r.lastFillPosition, last < evidence.position)
        (.valueError "paper fill evidence does not reconcile with the order event")
      require (¬ViolatesLimit intent evidence.fillPrice)
        (.valueError "paper fill violates its limit price")

/-- One step of `reduce_paper_order`. -/
def reduceEvent (intent : PaperOrderIntent D) (r : Reduction D) (event : PaperOrderEvent D) :
    Except Raised (Reduction D) := do
  let cumulative := event.cumulativeFilledQuantity
  require (event.intentSha256 = intent.sha256 ∧ event.sha256 ∉ r.hashes ∧
      event.adapterEventId ∉ r.adapterIds ∧ r.lastSequence < event.sequence ∧
      r.lastAt ≤ event.occurredAt ∧ ¬r.status.isTerminal ∧ event.eventType ∈ allowed r.status ∧
      r.filled ≤ cumulative ∧ cumulative ≤ intent.quantity)
    (.valueError "paper order event history is inconsistent")
  require (event.eventType = .accepted → cumulative = 0)
    (.valueError "accepted paper order cannot already contain a fill")
  require (event.eventType = .rejected → cumulative = 0)
    (.valueError "rejected paper order cannot contain a fill")
  require (event.eventType = .partiallyFilled → r.filled < cumulative ∧
      cumulative < intent.quantity)
    (.valueError "partial paper fill quantity is inconsistent")
  require (event.eventType = .filled → cumulative = intent.quantity)
    (.valueError "filled paper order must reach its complete quantity")
  require (cumulative = r.filled → event.averageFillPrice = r.average)
    (.valueError "paper fill average changed without additional quantity")
  require (0 < cumulative - r.filled ↔ event.fillEvidence.isSome)
    (.valueError "paper quantity changes require fill evidence")
  reduceFill intent r event
  require (∀ price ∈ event.averageFillPrice, ¬ViolatesLimit intent price)
    (.valueError "paper fill violates its limit price")
  require (event.eventType = .accepted ∨ event.eventType.isFill →
      event.occurredAt ≤ intent.expiresAt)
    (.valueError "paper order activity cannot occur after expiry")
  require (event.eventType = .expired → intent.expiresAt ≤ event.occurredAt)
    (.valueError "paper order cannot expire before its deadline")
  return r.after event

/-- `reduce_paper_order` -/
def reducePaperOrder (intent : PaperOrderIntent D) (events : List (PaperOrderEvent D)) :
    Except Raised (PaperOrderState D) := do
  let r ← events.foldlM (reduceEvent intent) (Reduction.start intent)
  PaperOrderState.modelValidate {
    intentSha256 := intent.sha256
    status := r.status
    cumulativeFilledQuantity := r.filled
    averageFillPrice := r.average
    eventCount := events.length
    lastEventSha256 := events.getLast?.map (·.sha256) }

end MiniLakehouse
