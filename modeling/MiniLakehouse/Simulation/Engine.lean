import MiniLakehouse.Simulation.Model
import MiniLakehouse.Library.Keyed

/-!
# Cycle simulation

`simulation/engine.py`: the proposals of one day become entry and exit events,
each event moves the accounting state, and the report is read off the last one.
-/

namespace MiniLakehouse

variable {D : Type} [Hashing D]

/-- `_Position` -/
structure SimulatedPosition where
  settled : Int
  t1 : Int
  t2 : Int
  boughtToday : Int
  deriving DecidableEq

def SimulatedPosition.total (position : SimulatedPosition) : Int :=
  position.settled + position.t1 + position.t2 + position.boughtToday

/-- `_Execution` -/
structure SimulatedExecution where
  price : Rat
  notional : Rat
  charge : Rat
  deriving DecidableEq

/-- `_OpenCycle` -/
structure OpenCycle (D : Type) [Hashing D] where
  proposal : ArbitratedCycleProposal D
  entry : SimulatedExecution

def OpenCycle.symbol (cycle : OpenCycle D) : String := cycle.proposal.symbol

/-- `_execution` -/
def execution (costs : CostPolicy) (bookPrice : Rat) (action : Action) (quantity : Nat) :
    SimulatedExecution :=
  let slip := costs.extraSlippageBps / 10000
  let price := bookPrice * match action with
    | .buy => 1 + slip
    | .sell => 1 - slip
  let notional := price * quantity
  let rate := match action with
    | .buy => costs.buyFeeBps
    | .sell => costs.sellFeeBps + costs.sellTaxBps
  ⟨price, notional, notional * rate / 10000⟩

namespace ArbitratedCycleProposal

/-- The result of a proposal, its profit included where it closed. -/
private def resultOf (proposal : ArbitratedCycleProposal D) (status : CycleStatus)
    (reason : Option String) (entry exit : Option SimulatedExecution)
    (pnl : Option (Rat × Rat)) : CycleResult D where
  cycleId := proposal.cycleId
  outcomeSha256 := proposal.outcome.sha256
  symbol := proposal.symbol
  strategy := proposal.candidate.strategy
  quantity := proposal.quantity
  entryAt := proposal.entryAt
  horizonAt := proposal.horizonAt
  status := status
  reason := reason
  entryPrice := entry.map (·.price)
  exitPrice := exit.map (·.price)
  grossPnlVnd := pnl.map (·.1)
  tradingCostVnd := pnl.map (·.2)
  netPnlVnd := pnl.map fun amounts => amounts.1 - amounts.2
  result_quantity_pos := proposal.outcome.quantity_pos

/-- `_result` -/
def result (proposal : ArbitratedCycleProposal D) (status : CycleStatus)
    (reason : Option String) (entry exit : Option SimulatedExecution) :
    Except Raised (CycleResult D) :=
  match status with
  | .closed =>
      match entry, exit with
      | some bought, some sold => .ok (resultOf proposal .closed reason entry exit
          (some (sold.notional - bought.notional, bought.charge + sold.charge)))
      | _, _ => .error (.valueError "closed cycle requires both executions")
  | .rejected | .open => .ok (resultOf proposal status reason entry exit none)

end ArbitratedCycleProposal

/-- The accounting state between two events. -/
structure SimulationState (D : Type) [Hashing D] where
  positions : String → Option SimulatedPosition
  cash : Rat
  pendingSales : Rat
  advancePrincipal : Rat
  advanceInterest : Rat
  openBySymbol : List (OpenCycle D)
  results : D → Option (CycleResult D)
  started : Nat
  realizedNet : Rat

/-- An entry or an exit of a proposal. -/
structure SimulationEvent (D : Type) [Hashing D] where
  isEntry : Bool
  proposal : ArbitratedCycleProposal D

namespace SimulationEvent

def time (event : SimulationEvent D) : Instant :=
  if event.isEntry then event.proposal.entryAt else event.proposal.horizonAt

/-- Exits precede entries at an identical instant. -/
def key (event : SimulationEvent D) : Instant ×ₗ Nat ×ₗ Nat :=
  toLex (event.time, toLex (if event.isEntry then 1 else 0, event.proposal.priority))

end SimulationEvent

namespace SimulationRequest

variable (request : SimulationRequest D)

/-- `initial` -/
def initial (symbol : String) : Option AccountPosition :=
  request.account.positions.find? (·.symbol == symbol)

/-- The entry and the exit of a proposal. -/
def eventsOf (proposal : ArbitratedCycleProposal D) : List (SimulationEvent D) :=
  [⟨true, proposal⟩, ⟨false, proposal⟩]

/-- `events` -/
def events : List (SimulationEvent D) :=
  sortOn SimulationEvent.key (request.proposals.flatMap eventsOf)

/-- The state before the first event. -/
def start : SimulationState D where
  positions := fun symbol => (request.initial symbol).map fun item =>
    ⟨item.settledQty, item.t1Qty, item.t2Qty, 0⟩
  cash := request.account.cashVnd
  pendingSales := 0
  advancePrincipal := 0
  advanceInterest := 0
  openBySymbol := []
  results := fun _ => none
  started := 0
  realizedNet := 0

/-- `_fund_buy`: a permitted advance draw and its full-to-settlement interest. -/
def fundBuy (state : SimulationState D) (spend : Rat) : Option (Rat × Rat) :=
  let draw := max (spend + request.risk.cashReserveVnd - state.cash) 0
  if draw = 0 then some (0, 0)
  else
    match request.advance with
    | none => none
    | some policy =>
        let days := policy.settlementDate - request.tradeDate
        let interest := draw * policy.dailyInterestBps * days / 10000
        if state.advancePrincipal + draw + state.advanceInterest + interest >
            state.pendingSales then none
        else some (draw, interest)

/-- The first reason against an entry that the book price does not decide. -/
def entryReason (state : SimulationState D) (proposal : ArbitratedCycleProposal D)
    (item : AccountPosition) (position : SimulatedPosition) : Option String :=
  if state.openBySymbol.any (·.symbol == proposal.symbol) then some "SYMBOL_BUSY"
  else if proposal.outcome.entryVwap.isNone then some "ENTRY_BOOK_UNAVAILABLE"
  else if proposal.quantity % request.lotSize ≠ 0 then some "LOT_SIZE"
  else if proposal.quantity > request.risk.maxCycleQuantity then some "QUANTITY_LIMIT"
  else if state.started ≥ request.risk.maxCyclesPerDay then some "CYCLE_LIMIT"
  else if state.realizedNet ≤ -request.risk.maxDailyLossVnd then some "DAILY_LOSS_LIMIT"
  else if position.settled - proposal.quantity < item.coreMinQty then
    some "INSUFFICIENT_SETTLED_ABOVE_CORE"
  else none

/-- `results[cycle_id] = result` -/
def record (state : SimulationState D) (result : CycleResult D) : SimulationState D :=
  { state with results := Function.update state.results result.cycleId (some result) }

/-- Reject a proposal. -/
def reject (state : SimulationState D) (proposal : ArbitratedCycleProposal D)
    (reason : String) : Except Raised (SimulationState D) := do
  return record state (← proposal.result .rejected (some reason) none none)

/-- The state once an entry has been funded and bought. -/
def bought (state : SimulationState D) (proposal : ArbitratedCycleProposal D)
    (position : SimulatedPosition) (entry : SimulatedExecution) (draw interest : Rat) :
    SimulationState D where
  positions := Function.update state.positions proposal.symbol
    (some { position with boughtToday := position.boughtToday + proposal.quantity })
  cash := state.cash + draw - (entry.notional + entry.charge)
  pendingSales := state.pendingSales
  advancePrincipal := state.advancePrincipal + draw
  advanceInterest := state.advanceInterest + interest
  openBySymbol :=
    without OpenCycle.symbol proposal.symbol state.openBySymbol ++ [⟨proposal, entry⟩]
  results := state.results
  started := state.started + 1
  realizedNet := state.realizedNet - interest

/-- The entry part of one event. -/
def enter (state : SimulationState D) (proposal : ArbitratedCycleProposal D) :
    Except Raised (SimulationState D) :=
  match request.initial proposal.symbol, state.positions proposal.symbol with
  | some item, some position =>
      match request.entryReason state proposal item position, proposal.outcome.entryVwap with
      | some reason, _ => reject state proposal reason
      | none, none => .error (.valueError "actionable entry requires a book price")
      | none, some price =>
          let entry := execution request.costs price .buy proposal.quantity
          if entry.notional > request.risk.maxOrderNotionalVnd then
            reject state proposal "ORDER_NOTIONAL_LIMIT"
          else
            match request.fundBuy state (entry.notional + entry.charge) with
            | none => reject state proposal "CASH_LIMIT"
            | some (draw, interest) => .ok (bought state proposal position entry draw interest)
  | _, _ => .error (.lookupError proposal.symbol)

/-- The state once an open cycle has been sold. -/
def sold (state : SimulationState D) (proposal : ArbitratedCycleProposal D)
    (position : SimulatedPosition) (exit : SimulatedExecution) (result : CycleResult D)
    (net : Rat) : SimulationState D where
  positions := Function.update state.positions proposal.symbol
    (some { position with settled := position.settled - proposal.quantity })
  cash := state.cash
  pendingSales := state.pendingSales + (exit.notional - exit.charge)
  advancePrincipal := state.advancePrincipal
  advanceInterest := state.advanceInterest
  openBySymbol := without OpenCycle.symbol proposal.symbol state.openBySymbol
  results := Function.update state.results result.cycleId (some result)
  started := state.started
  realizedNet := state.realizedNet + net

/-- Sell an open cycle of the proposal at its horizon's book price. -/
def sell (state : SimulationState D) (proposal : ArbitratedCycleProposal D)
    (opened : OpenCycle D) (price : Rat) : Except Raised (SimulationState D) :=
  match request.initial proposal.symbol, state.positions proposal.symbol with
  | some item, some position =>
      if position.settled - proposal.quantity < item.coreMinQty then do
        return record state
          (← proposal.result .open (some "EXIT_SETTLED_SHORTFALL") (some opened.entry) none)
      else do
        let exit := execution request.costs price .sell proposal.quantity
        let result ← proposal.result .closed none (some opened.entry) (some exit)
        match result.netPnlVnd with
        | none => throw (.valueError "closed cycle is missing net PnL")
        | some net => return sold state proposal position exit result net
  | _, _ => .error (.lookupError proposal.symbol)

/-- The exit part of one event. -/
def leave (state : SimulationState D) (proposal : ArbitratedCycleProposal D) :
    Except Raised (SimulationState D) :=
  match state.openBySymbol.find? (·.symbol == proposal.symbol) with
  | none => .ok state
  | some opened =>
      if opened.proposal.cycleId ≠ proposal.cycleId then .ok state
      else
        match proposal.outcome.horizonVwap with
        | none => do
            return record state
              (← proposal.result .open (some "EXIT_BOOK_UNAVAILABLE") (some opened.entry) none)
        | some price => request.sell state proposal opened price

/-- One event of the loop in `simulate_cycles`. -/
def step (state : SimulationState D) (event : SimulationEvent D) :
    Except Raised (SimulationState D) :=
  if event.isEntry then request.enter state event.proposal
  else request.leave state event.proposal

/-- The loop of `simulate_cycles` over events. -/
def run (events : List (SimulationEvent D)) : Except Raised (SimulationState D) :=
  events.foldlM request.step request.start

/-- `results[item.cycle_id]` -/
def resultAt (state : SimulationState D) (item : ArbitratedCycleProposal D) :
    Except Raised (CycleResult D) :=
  match state.results item.cycleId with
  | none => .error (.lookupError "cycle_id")
  | some result => .ok result

/-- `closing_prices[symbol]` -/
def closingPrice (symbol : String) : Except Raised Rat :=
  match request.closingMarks.find? (·.symbol == symbol) with
  | none => .error (.lookupError symbol)
  | some mark => .ok mark.price

/-- What holding a position over the day earned. -/
def holdPnl (item : AccountPosition) : Except Raised Rat := do
  return item.totalQty * ((← request.closingPrice item.symbol) - item.startPrice)

/-- One `EndPosition`. -/
def endPosition (state : SimulationState D) (symbol : String) :
    Except Raised EndPosition :=
  match state.positions symbol with
  | none => .error (.lookupError symbol)
  | some position =>
      if h : 0 ≤ position.settled ∧ 0 ≤ position.t1 ∧ 0 ≤ position.t2 ∧
          0 ≤ position.boughtToday then
        .ok ⟨symbol, position.settled, position.t1, position.t2, position.boughtToday, h⟩
      else .error (.fieldError "end_positions")

/-- The symbol's total inventory is the account's. -/
def inventoryRestored (state : SimulationState D) (item : AccountPosition) : Bool :=
  (state.positions item.symbol).any (·.total == (item.totalQty : Int))

/-- The reconciliation of a day without open cycles. -/
def reconcile (state : SimulationState D) (grossAlpha tradingCost : Rat) :
    Except Raised Unit := do
  require (∀ item ∈ request.account.positions, inventoryRestored state item)
    (.valueError "closed T0 cycles must restore each symbol's total inventory")
  require (state.cash + state.pendingSales - state.advancePrincipal - state.advanceInterest -
      request.account.cashVnd = grossAlpha - tradingCost - state.advanceInterest)
    (.valueError "T0 cash movement does not reconcile with cycle net PnL")

/-- `simulate_cycles` -/
def simulateCycles : Except Raised (SimulationReport D) := do
  let state ← request.run request.events
  let ordered ← (sortOn (fun item : ArbitratedCycleProposal D =>
      (toLex (item.entryAt, item.priority) : Instant ×ₗ Nat)) request.proposals).mapM
    (resultAt state)
  let complete := state.openBySymbol.isEmpty
  let grossAlpha := (ordered.filterMap (·.grossPnlVnd)).sum
  let tradingCost := (ordered.filterMap (·.tradingCostVnd)).sum
  let holdPnl := (← request.account.positions.mapM request.holdPnl).sum
  let _ ← if complete then request.reconcile state grossAlpha tradingCost else .ok ()
  let endPositions ← (sortOn (fun symbol : String => symbol) request.symbols).mapM
    (endPosition state)
  let net := grossAlpha - tradingCost - state.advanceInterest
  return {
    tradeDate := request.tradeDate
    requestSha256 := request.sha256
    feeProvenanceRecorded := request.costs.feeCheckedAt.isSome
    feeBasis := request.costs.basis
    accountPlan := request.costs.accountPlan
    selectionReferenceRecorded := !request.selectionEvidence.isEmpty
    isComplete := complete
    cycles := ordered
    startingCashVnd := request.account.cashVnd
    endingCashVnd := state.cash
    pendingSaleProceedsVnd := state.pendingSales
    advancePrincipalVnd := state.advancePrincipal
    advanceInterestVnd := state.advanceInterest
    endPositions := endPositions
    holdPnlVnd := holdPnl
    grossT0AlphaVnd := if complete then some grossAlpha else none
    tradingCostVnd := if complete then some tradingCost else none
    financingCostVnd := if complete then some state.advanceInterest else none
    netT0AlphaVnd := if complete then some net else none
    holdPlusT0PnlVnd := if complete then some (holdPnl + net) else none }

end SimulationRequest

end MiniLakehouse
