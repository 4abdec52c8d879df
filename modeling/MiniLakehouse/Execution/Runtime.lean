import MiniLakehouse.Execution.Ledger
import MiniLakehouse.Execution.Matching

/-!
# Atomic paper-session transitions

`execution/runtime.py`: the session appends operations incrementally, and every
command ends in `finish`, which validates the result by replaying the whole
operation log from the account.
-/

namespace MiniLakehouse

variable {D : Type} [Hashing D]

/-- `Operation` -/
inductive Operation (D : Type) where
  | intent (value : PaperOrderIntent D)
  | event (value : PaperOrderEvent D)
  deriving DecidableEq

namespace Operation

/-- When the operation happened. -/
def instant : Operation D → Instant
  | intent value => value.createdAt
  | event value => value.occurredAt

def asIntent : Operation D → Option (PaperOrderIntent D)
  | intent value => some value
  | event _ => none

def asEvent : Operation D → Option (PaperOrderEvent D)
  | intent _ => none
  | event value => some value

/-- `operation.sha256` -/
def sha256 : Operation D → D
  | intent value => value.sha256
  | event value => value.sha256

def modelDump : Operation D → Json D
  | intent value => value.modelDump
  | event value => value.modelDump

omit [Hashing D] in
/-- The dump determines the operation. -/
theorem modelDump_injective : Function.Injective (modelDump : Operation D → Json D) := by
  intro a b h
  cases a with
  | intent intent =>
      cases b with
      | intent intent' =>
          cases intent
          cases intent'
          obtain rfl := PaperOrderIntentFields.modelDump_injective h
          rfl
      | event event =>
          have hhead := (List.cons.inj (Json.arr_inj.mp h)).1
          cases hhead
  | event event =>
      cases b with
      | intent intent =>
          have hhead := (List.cons.inj (Json.arr_inj.mp h)).1
          cases hhead
      | event event' =>
          cases event
          cases event'
          obtain rfl := PaperOrderEventFields.modelDump_injective h
          rfl

end Operation

/-- The intents of an operation log. -/
def intentsOf (operations : List (Operation D)) : List (PaperOrderIntent D) :=
  operations.filterMap Operation.asIntent

/-- The events of one intent in an operation log. -/
def eventsOf (operations : List (Operation D)) (intentSha256 : D) :
    List (PaperOrderEvent D) :=
  (operations.filterMap Operation.asEvent).filter (·.intentSha256 == intentSha256)

/-- `PaperSession`: an account, its ledger, the log and the quote cursors. -/
structure PaperSession (D : Type) [Hashing D] where
  account : AccountSnapshot
  costs : CostPolicy
  ledger : PaperResourceLedger D
  revision : Nat
  operations : List (Operation D)
  markets : List (PaperMarketSnapshot D)
  deriving DecidableEq

/-- Key of one quote's liquidity on one side. -/
abbrev LiquidityKey := String × Nat × String × OrderAction

def PaperFillEvidenceFields.liquidityKey (fill : PaperFillEvidenceFields D) : LiquidityKey :=
  (fill.streamSessionId, fill.receiveSequence, fill.symbol, fill.action)

/-- What `reconcile` has rebuilt from the operations read so far. -/
structure Reconciliation (D : Type) [Hashing D] where
  ledger : PaperResourceLedger D
  intents : D → Option (PaperOrderIntent D)
  events : D → List (PaperOrderEvent D)
  entries : List D
  liquidity : LiquidityKey → Option (Nat × Nat × D)
  lastOperationAt : Instant

namespace Reconciliation

def start (account : AccountSnapshot) (ledger : PaperResourceLedger D) :
    Reconciliation D :=
  ⟨ledger, fun _ => none, fun _ => [], [], fun _ => none, account.asOf⟩

/-- The quote-liquidity part of one reconciled event. -/
def useLiquidity (liquidity : LiquidityKey → Option (Nat × Nat × D))
    (event : PaperOrderEvent D) : Except Raised (LiquidityKey → Option (Nat × Nat × D)) :=
  match event.fillEvidence with
  | none => .ok liquidity
  | some fill => do
      let (used, capacity, digest) := (liquidity fill.liquidityKey).getD
        (0, fill.availableQuantity, fill.sourceSha256)
      require (digest = fill.sourceSha256 ∧ used + fill.filledQuantity ≤ capacity)
        (.valueError "paper operations reuse or conflict on quote liquidity")
      return Function.update liquidity fill.liquidityKey
        (some (used + fill.filledQuantity, capacity, digest))

/-- The reservation that an order of this leg takes. -/
def reserve (ledger : PaperResourceLedger D) (intent : PaperOrderIntent D) :
    Except Raised (PaperResourceLedger D) :=
  match intent.leg with
  | .entry => reservePaperEntry ledger intent
  | .exit => reservePaperExit ledger intent

/-- The settlement that a terminal order of this leg takes. -/
def settle (ledger : PaperResourceLedger D) (intent : PaperOrderIntent D)
    (state : PaperOrderState D) (costs : CostPolicy) :
    Except Raised (PaperResourceLedger D) :=
  if state.status.isTerminal then
    match intent.leg with
    | .entry => settlePaperEntry ledger intent state costs
    | .exit => settlePaperExit ledger intent state costs
  else .ok ledger

/-- One operation of the loop in `PaperSession.reconcile`. -/
def step (costs : CostPolicy) (r : Reconciliation D) (operation : Operation D) :
    Except Raised (Reconciliation D) := do
  require (r.lastOperationAt ≤ operation.instant)
    (.valueError "paper operations cannot rewind the session clock")
  match operation with
  | .intent intent =>
      require (r.intents intent.sha256 = none) (.valueError "duplicate paper intent")
      require (intent.leg = .entry → intent.arbitrationSha256 ∉ r.entries)
        (.valueError "arbitration already planned")
      let ledger ← reserve r.ledger intent
      return { r with
        ledger := ledger
        intents := Function.update r.intents intent.sha256 (some intent)
        events := Function.update r.events intent.sha256 []
        entries :=
          if intent.leg = .entry then intent.arbitrationSha256 :: r.entries else r.entries
        lastOperationAt := intent.createdAt }
  | .event event =>
      match r.intents event.intentSha256 with
      | none => throw (.valueError "paper event has no intent")
      | some intent =>
          let history := r.events intent.sha256 ++ [event]
          let state ← reducePaperOrder intent history
          let liquidity ← useLiquidity r.liquidity event
          let ledger ← settle r.ledger intent state costs
          return { r with
            ledger := ledger
            events := Function.update r.events intent.sha256 history
            liquidity := liquidity
            lastOperationAt := event.occurredAt }

/-- The loop in `PaperSession.reconcile` over a whole operation log. -/
def run (account : AccountSnapshot) (costs : CostPolicy) (ledger : PaperResourceLedger D)
    (operations : List (Operation D)) : Except Raised (Reconciliation D) :=
  operations.foldlM (step costs) (start account ledger)

end Reconciliation

namespace PaperSession

variable (session : PaperSession D)

def modelDump : Json D :=
  .arr [session.account.modelDump, session.costs.modelDump, session.ledger.modelDump,
    .nat session.revision, .list Operation.modelDump session.operations,
    .list PaperMarketSnapshot.modelDump session.markets]

/-- The dump determines the session. -/
theorem modelDump_injective : Function.Injective (modelDump : PaperSession D → Json D) := by
  intro a b h
  cases a
  cases b
  simp only [modelDump, Json.arr_inj, List.cons.injEq, Json.nat_inj,
    AccountSnapshot.modelDump_injective.eq_iff, CostPolicy.modelDump_injective.eq_iff,
    PaperResourceLedger.modelDump_injective.eq_iff,
    (Json.list_inj Operation.modelDump_injective).eq_iff,
    (Json.list_inj PaperMarketSnapshot.modelDump_injective).eq_iff, and_true] at h
  obtain ⟨rfl, rfl, rfl, rfl, rfl, rfl⟩ := h
  rfl

/-- `PaperSession.sha256` -/
def sha256 : D := Hashing.sha256 session.modelDump

/-- `PaperSession.reconcile` -/
def reconcile : Except Raised Unit := do
  require (session.costs.contains session.ledger.tradeDate)
    (.valueError "paper costs must cover the session date")
  let initial ← initializePaperLedger session.account session.ledger.tradeDate
  let r ← Reconciliation.run session.account session.costs initial session.operations
  require (r.ledger = session.ledger)
    (.valueError "paper ledger does not reconcile to immutable operations")
  require ((session.markets.map (·.symbol)).Pairwise (· < ·))
    (.valueError "paper quote cursors must be unique and ordered")

/-- `PaperSession.model_validate` -/
def modelValidate : Except Raised (PaperSession D) := do
  session.reconcile
  return session

/-- `PaperSession.intents` -/
def intents : List (PaperOrderIntent D) := intentsOf session.operations

/-- `PaperSession.events` -/
def events (intent : PaperOrderIntent D) : List (PaperOrderEvent D) :=
  eventsOf session.operations intent.sha256

/-- The empty session of an account, as the runtime is started with it. -/
def empty (account : AccountSnapshot) (costs : CostPolicy) (tradeDate : Day) :
    Except Raised (PaperSession D) := do
  let ledger ← initializePaperLedger account tradeDate
  modelValidate ⟨account, costs, ledger, 0, [], []⟩

/-- The ledger `_append` moves to. -/
def nextLedger : Operation D → Except Raised (PaperResourceLedger D)
  | .intent intent => Reconciliation.reserve session.ledger intent
  | .event event =>
      match session.intents.find? (·.sha256 == event.intentSha256) with
      | none => throw .stopIteration
      | some intent => do
          let state ← reducePaperOrder intent (session.events intent ++ [event])
          Reconciliation.settle session.ledger intent state session.costs

/-- `_append` -/
def append (operation : Operation D) : Except Raised (PaperSession D) := do
  let ledger ← session.nextLedger operation
  return { session with ledger := ledger, operations := session.operations ++ [operation] }

/-- `_finish` -/
def finish (previous current : PaperSession D) : Except Raised (PaperSession D) :=
  if current = previous then .ok previous
  else modelValidate { current with revision := previous.revision + 1 }

/-- The planned order and its acceptance, appended as one command. -/
def place (intent : PaperOrderIntent D) : Except Raised (PaperSession D) := do
  let planned ← session.append (.intent intent)
  let accepted ← lifecycleEvent intent [] .accepted intent.createdAt none none
  let result ← planned.append (.event accepted)
  finish session result

/-- `submit_entry` up to its plan: nothing to do, or the planned intent. -/
def admitEntry (request : PaperExecutionRequest D) (readiness : PaperReadiness D)
    (configuration : TradingConfiguration) :
    Except Raised (Option (PaperOrderIntent D)) := do
  if readiness.mode ≠ .paper then return none
  match readiness.researchLineage with
  | none => throw (.valueError "paper admission requires research lineage")
  | some lineage =>
      let mismatch := Raised.valueError "paper admission lineage mismatch"
      require (readiness.promotion = some request.promotion ∧
        readiness.tradeDate = request.candidate.tradeDate ∧
        readiness.previousSession < readiness.tradeDate ∧
        request.account = session.account ∧ request.costs = session.costs ∧
        readiness.tradeDate = session.ledger.tradeDate) mismatch
      let resolved ← resolveResearchLineage configuration session.ledger.tradeDate session.costs
      require (lineage = resolved ∧ baselineVersion = lineage.baselineVersion ∧
        request.candidate.contextConfigurationSha256 =
          some lineage.contextConfigurationSha256) mismatch
      if session.intents.any fun item => item.leg == .entry &&
          item.arbitrationSha256 == request.arbitration.sha256 then return none
      require (request.resources = session.ledger)
        (.valueError "paper planner used stale resources")
      let day := session.ledger.tradeDate
      let policy ← configuration.resolvePaperExecution day
      let gate ← configuration.resolvePromotionGate day
      let arbitration ← configuration.resolveCandidateArbitration day
      match policy, gate, arbitration with
      | some policy, some gate, some arbitration =>
          let context ← configuration.resolveContext day
          let plan ← planPaperOrder request policy arbitration context gate
          match plan.intent with
          | none => throw (.paperOrderBlocked (plan.reasons.map (·.text)))
          | some intent => return some intent
      | _, _, _ => throw (.paperOrderBlocked ["NO_EFFECTIVE_POLICY"])

/-- `submit_entry` -/
def submitEntry (request : PaperExecutionRequest D) (readiness : PaperReadiness D)
    (configuration : TradingConfiguration) : Except Raised (PaperSession D) := do
  match ← session.admitEntry request readiness configuration with
  | none => return session
  | some intent => session.place intent

/-- `submit_exit` up to its plan: nothing to do, or the planned intent. -/
def admitExit (entry : PaperOrderIntent D) (market : PaperMarketSnapshot D)
    (configuration : TradingConfiguration) :
    Except Raised (Option (PaperOrderIntent D)) := do
  require (entry ∈ session.intents) (.valueError "paper exit parent is unknown")
  if !session.ledger.reservations.any fun item =>
      item.entryIntentSha256 == entry.sha256 && item.status == .open then return none
  match ← configuration.resolvePaperExecution entry.tradeDate with
  | none => throw (.paperOrderBlocked ["NO_EFFECTIVE_POLICY"])
  | some policy =>
      let state ← reducePaperOrder entry (session.events entry)
      let request ← PaperExitRequest.modelValidate ⟨entry, state, market, session.ledger⟩
      let context ← configuration.resolveContext entry.tradeDate
      let plan ← planPaperExit request policy context
      match plan.intent with
      | none => throw (.paperOrderBlocked (plan.reasons.map (·.text)))
      | some intent => return some intent

/-- `submit_exit`: managing an exposure needs no new entry promotion. -/
def submitExit (entry : PaperOrderIntent D) (market : PaperMarketSnapshot D)
    (configuration : TradingConfiguration) : Except Raised (PaperSession D) := do
  match ← session.admitExit entry market configuration with
  | none => return session
  | some intent => session.place intent

/-- Expire one order whose deadline has passed. -/
def expireOrder (at' : Instant) (result : PaperSession D) (intent : PaperOrderIntent D) :
    Except Raised (PaperSession D) := do
  let events := result.events intent
  let state ← reducePaperOrder intent events
  if !state.status.isTerminal && intent.expiresAt ≤ at' then
    let event ← lifecycleEvent intent events .expired at' (some "TIME_IN_FORCE") none
    result.append (.event event)
  else return result

/-- `advance_clock`: expire orders even in quiet markets. -/
def advanceClock (at' : Instant) : Except Raised (PaperSession D) := do
  let result ← session.intents.foldlM (expireOrder at') session
  finish session result

/-- `cancel_order` -/
def cancelOrder (intent : PaperOrderIntent D) (at' : Instant) (reason : String) :
    Except Raised (PaperSession D) := do
  require (intent ∈ session.intents) (.valueError "paper cancel intent is unknown")
  let events := session.events intent
  let state ← reducePaperOrder intent events
  if state.status.isTerminal then return session
  let event ← lifecycleEvent intent events .cancelled at' (some reason) none
  let result ← session.append (.event event)
  finish session result

/-- The symbol's quote cursor. -/
def cursor (symbol : String) : Option (PaperMarketSnapshot D) :=
  session.markets.find? (·.symbol == symbol)

/-- A later quote may follow the cursor. -/
def FollowsCursor (previous market : PaperMarketSnapshot D) : Prop :=
  ¬((previous.streamSessionId = market.streamSessionId ∧
      previous.receiveSequence = market.receiveSequence) ∨
    market.quoteReceivedAt < previous.quoteReceivedAt ∨
    market.observedAt < previous.observedAt ∨
    (market.streamSessionId = previous.streamSessionId ∧
      market.receiveSequence ≤ previous.receiveSequence))

instance (previous market : PaperMarketSnapshot D) : Decidable (FollowsCursor previous market) := by
  unfold FollowsCursor; infer_instance

/-- What `process_quote` does with a quote. -/
inductive CursorVerdict (D : Type) where
  /-- The cursor already stands on this very quote. -/
  | repeated
  | fresh (previous : Option (PaperMarketSnapshot D))

/-- `process_quote` up to the quote cursor. -/
def acceptCursor (market : PaperMarketSnapshot D) (configuration : TradingConfiguration) :
    Except Raised (CursorVerdict D) := do
  let trading ← configuration.resolve session.ledger.tradeDate
  require (trading.market.timezone.date market.observedAt = session.ledger.tradeDate)
    (.valueError "paper quote must belong to the resource session date")
  match session.cursor market.symbol with
  | none => return .fresh none
  | some previous =>
      if previous = market then return .repeated
      require (FollowsCursor previous market)
        (.valueError "paper quote cursor conflict or regression")
      return .fresh (some previous)

/-- An unchanged best price replenishes only what the quantity grew by. -/
def budget (previous : Option (PaperMarketSnapshot D)) (market : PaperMarketSnapshot D)
    (action : OrderAction) : Int :=
  match previous with
  | none => market.bestQuantity action
  | some quote =>
      if quote.bestPrice action = market.bestPrice action then
        max 0 ((market.bestQuantity action : Int) - quote.bestQuantity action)
      else market.bestQuantity action

/-- `sorted(session.intents, key=(priority, created_at, sha256))` -/
def matchingOrder : List (PaperOrderIntent D) :=
  sortOn (fun item : PaperOrderIntent D =>
    (toLex (item.priority, toLex (item.createdAt, item.sha256)) : Nat ×ₗ Instant ×ₗ D))
    session.intents

/-- Match one order of the loop in `process_quote`. -/
def matchOrder (market : PaperMarketSnapshot D) (policy : PaperExecutionVersion)
    (context : ContextVersion) (state : PaperSession D × (OrderAction → Int))
    (intent : PaperOrderIntent D) :
    Except Raised (PaperSession D × (OrderAction → Int)) := do
  let (result, budgets) := state
  if intent.symbol ≠ market.symbol ∨ market.observedAt < intent.createdAt then return state
  match ← matchQuote intent (result.events intent) market policy context
      (budgets intent.action) with
  | none => return state
  | some event =>
      let appended ← result.append (.event event)
      match event.fillEvidence with
      | none => return (appended, budgets)
      | some fill =>
          return (appended, Function.update budgets intent.action
            (budgets intent.action - fill.filledQuantity))

/-- The quote cursors once a quote has been processed. -/
def advanceCursor (market : PaperMarketSnapshot D) : List (PaperMarketSnapshot D) :=
  sortOn (·.symbol) (session.markets.filter (·.symbol != market.symbol) ++ [market])

/-- `process_quote` -/
def processQuote (market : PaperMarketSnapshot D) (configuration : TradingConfiguration) :
    Except Raised (PaperSession D) := do
  match ← session.acceptCursor market configuration with
  | .repeated => return session
  | .fresh previous =>
      match ← configuration.resolvePaperExecution session.ledger.tradeDate with
      | none => return session
      | some policy =>
          let context ← configuration.resolveContext session.ledger.tradeDate
          let (result, _) ← session.matchingOrder.foldlM
            (matchOrder market policy context) (session, budget previous market)
          finish session { result with markets := session.advanceCursor market }

end PaperSession

/-- A command of the paper runtime. -/
inductive PaperCommand (D : Type) [Hashing D] where
  | submitEntry (request : PaperExecutionRequest D) (readiness : PaperReadiness D)
  | submitExit (entry : PaperOrderIntent D) (market : PaperMarketSnapshot D)
  | processQuote (market : PaperMarketSnapshot D)
  | advanceClock (at' : Instant)
  | cancelOrder (intent : PaperOrderIntent D) (at' : Instant) (reason : String)

/-- One command of a session under a configuration. -/
def PaperCommand.run (configuration : TradingConfiguration) (session : PaperSession D) :
    PaperCommand D → Except Raised (PaperSession D)
  | submitEntry request readiness => session.submitEntry request readiness configuration
  | submitExit entry market => session.submitExit entry market configuration
  | processQuote market => session.processQuote market configuration
  | advanceClock at' => session.advanceClock at'
  | cancelOrder intent at' reason => session.cancelOrder intent at' reason

end MiniLakehouse
