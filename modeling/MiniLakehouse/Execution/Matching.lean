import MiniLakehouse.Execution.Engine

/-!
# Conservative top-of-book matching

`execution/matching.py`: one deterministic event constructor, and the matcher
of one order against one quote's shared budget.
-/

namespace MiniLakehouse

variable {D : Type} [Hashing D]

/-- The evidence digest binds an event to its whole predecessor chain. -/
def eventEvidence (intent : PaperOrderIntent D) (previous : Option D)
    (eventType : PaperEventType) (at' : Instant) (reason : Option String)
    (fill : Option (PaperFillEvidence D)) : D :=
  sha256 (.arr [.sha intent.sha256, .opt .sha previous, .str eventType.text, .int at',
    .opt .str reason, .opt (fun evidence => evidence.modelDump) fill])

/-- Filled quantity and average price once a fill is added to a state. -/
def filledWith (state : PaperOrderState D) :
    Option (PaperFillEvidence D) → Nat × Option Rat
  | none => (state.cumulativeFilledQuantity, state.averageFillPrice)
  | some fill =>
      let filled := state.cumulativeFilledQuantity
      (filled + fill.filledQuantity,
        some ((state.averageFillPrice.getD 0 * filled + fill.fillPrice * fill.filledQuantity) /
          (filled + fill.filledQuantity)))

/-- `lifecycle_event`: the reducer remains authoritative. -/
def lifecycleEvent (intent : PaperOrderIntent D) (events : List (PaperOrderEvent D))
    (eventType : PaperEventType) (at' : Instant) (reason : Option String)
    (fill : Option (PaperFillEvidence D)) : Except Raised (PaperOrderEvent D) := do
  let state ← reducePaperOrder intent events
  let evidence := eventEvidence intent state.lastEventSha256 eventType at' reason fill
  let event ← PaperOrderEvent.modelValidate {
    intentSha256 := intent.sha256
    sequence := state.eventCount + 1
    eventType := eventType
    occurredAt := at'
    cumulativeFilledQuantity := (filledWith state fill).1
    averageFillPrice := (filledWith state fill).2
    reason := reason
    adapterEventId := .topOfBook evidence
    adapterEvidenceSha256 := evidence
    fillEvidence := fill }
  let _ ← reducePaperOrder intent (events ++ [event])
  return event

/-- A price beyond the order's limit matches nothing. -/
def beyondLimit (intent : PaperOrderIntent D) (price : Rat) : Bool :=
  match intent.action with
  | .buy => intent.limitPrice < price
  | .sell => price < intent.limitPrice

/-- Whole lots an order can take from what is available. -/
def matchedQuantity (intent : PaperOrderIntent D) (state : PaperOrderState D)
    (policy : PaperExecutionVersion) (available : Nat) : Nat :=
  min (intent.quantity - state.cumulativeFilledQuantity) available / policy.lotSize *
    policy.lotSize

/-- `match_quote`: match one order from a shared quote budget. -/
def matchQuote (intent : PaperOrderIntent D) (events : List (PaperOrderEvent D))
    (market : PaperMarketSnapshot D) (policy : PaperExecutionVersion)
    (contextPolicy : ContextVersion) (availableQuantity : Int) :
    Except Raised (Option (PaperOrderEvent D)) := do
  let state ← reducePaperOrder intent events
  if state.status.isTerminal then return none
  require (intent.executionConfigurationSha256 = policy.sha256 ∧ market.symbol = intent.symbol)
    (.valueError "paper matching policy or symbol mismatch")
  require (intent.createdAt ≤ market.observedAt ∧
      ∀ last ∈ events.getLast?, last.occurredAt ≤ market.observedAt)
    (.valueError "paper matching cannot rewind order time")
  if intent.expiresAt ≤ market.observedAt then
    return some (← lifecycleEvent intent events .expired market.observedAt
      (some "TIME_IN_FORCE") none)
  require (state.status ≠ .created)
    (.valueError "paper order must be accepted before matching")
  if market.marketStatus ∉ contextPolicy.tradableMarketStatuses then
    return some (← lifecycleEvent intent events .cancelled market.observedAt
      (some "MARKET_STATUS_INELIGIBLE") none)
  if market.quoteReceivedAt ≤ intent.createdAt ∨ isStaleQuote market policy then return none
  let price := market.bestPrice intent.action
  let displayed := market.bestQuantity intent.action
  require (0 ≤ availableQuantity ∧ availableQuantity ≤ displayed)
    (.valueError "paper quote budget exceeds displayed liquidity")
  if beyondLimit intent price then return none
  let quantity := matchedQuantity intent state policy availableQuantity.toNat
  if quantity = 0 then return none
  if events.any fun item => item.fillEvidence.any fun evidence =>
      evidence.streamSessionId == market.streamSessionId &&
        evidence.receiveSequence == market.receiveSequence then return none
  let fill ← PaperFillEvidence.modelValidate {
    symbol := intent.symbol
    action := intent.action
    observedAt := market.quoteReceivedAt
    streamSessionId := market.streamSessionId
    receiveSequence := market.receiveSequence
    filledQuantity := quantity
    availableQuantity := availableQuantity.toNat
    fillPrice := price
    sourceSha256 := market.sourceSha256 }
  let eventType : PaperEventType :=
    if quantity + state.cumulativeFilledQuantity = intent.quantity then .filled
    else .partiallyFilled
  return some (← lifecycleEvent intent events eventType market.observedAt none (some fill))

end MiniLakehouse
