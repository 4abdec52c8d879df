import MiniLakehouse.Execution.Engine
import MiniLakehouse.Library.Keyed

/-!
# Paper cash and settled inventory

`execution/ledger.py`: the compare-and-swap transitions of the resource ledger.
An entry reserves cash and the inventory it will later sell, its settlement
releases what was not filled; an exit binds an open cycle, its settlement
removes what was sold and realises the result.
-/

namespace MiniLakehouse

variable {D : Type} [Hashing D]

/-- `sorted(reservations, key=entry_intent_sha256)` -/
def sortedReservations (reservations : List (PaperReservation D)) :
    List (PaperReservation D) :=
  sortOn (·.entryIntentSha256) reservations

/-- `initialize_paper_ledger`: the only valid revision-zero ledger. -/
def initializePaperLedger (account : AccountSnapshot) (tradeDate : Day) :
    Except Raised (PaperResourceLedger D) := do
  require (marketTimezone.date account.asOf = tradeDate)
    (.valueError "paper ledger account snapshot must belong to its trade date")
  let positions ← (sortOn (·.symbol) account.positions).mapM fun item => validated
    [⟨isSymbolName item.symbol, Raised.fieldError "symbol"⟩]
    fun valid => PaperResourcePosition.mk item.symbol (item.settledQty - item.coreMinQty)
      (by simpa using valid)
  PaperResourceLedger.modelValidate {
    tradeDate := tradeDate
    accountSnapshotSha256 := account.sha256
    revision := 0
    availableCashVnd := account.cashVnd
    positions := positions
    startedCycles := 0
    realizedNetPnlVnd := 0
    reservations := [] }

/-- `_positions`: move one symbol's available quantity by `delta`. -/
def movePositions (ledger : PaperResourceLedger D) (symbol : String) (delta : Int) :
    Except Raised (List PaperResourcePosition) := do
  let values ← ledger.positions.mapM fun item =>
    let quantity : Int :=
      if item.symbol = symbol then item.availableExitQuantity + delta
      else item.availableExitQuantity
    if quantity < 0 then
      .error (.valueError "paper reservation exceeds available settled inventory")
    else .ok { item with availableExitQuantity := quantity.toNat }
  require (∃ item ∈ ledger.positions, item.symbol = symbol)
    (.valueError "paper reservation symbol is absent from the resource ledger")
  return values

/-- `reserve_paper_entry` -/
def reservePaperEntry (ledger : PaperResourceLedger D) (intent : PaperOrderIntent D) :
    Except Raised (PaperResourceLedger D) := do
  require (intent.leg = .entry ∧ intent.tradeDate = ledger.tradeDate ∧
      intent.resourceLedgerSha256 = ledger.sha256 ∧
      (∀ item ∈ ledger.reservations, item.entryIntentSha256 ≠ intent.sha256) ∧
      intent.reservedCashVnd ≤ ledger.availableCashVnd)
    (.valueError "paper entry cannot reserve the supplied ledger revision")
  let reservation ← PaperReservation.modelValidate {
    entryIntentSha256 := intent.sha256
    exitIntentSha256 := none
    symbol := intent.symbol
    status := .entryPending
    reservedCashVnd := intent.reservedCashVnd
    reservedExitQuantity := intent.reservedExitQuantity
    entryFilledQuantity := 0
    entryAverageFillPrice := none }
  let positions ← movePositions ledger intent.symbol (-intent.reservedExitQuantity)
  PaperResourceLedger.modelValidate {
    ledger.toPaperResourceLedgerFields with
    revision := ledger.revision + 1
    availableCashVnd := ledger.availableCashVnd - intent.reservedCashVnd
    positions := positions
    startedCycles := ledger.startedCycles + 1
    reservations := sortedReservations (ledger.reservations ++ [reservation]) }

/-- What is left of a cycle stays reserved while it is outstanding. -/
def retainOutstanding (remaining : List (PaperReservation D)) (outstanding : Nat)
    (fields : PaperReservationFields D) : Except Raised (List (PaperReservation D)) :=
  if outstanding = 0 then .ok remaining
  else do
    let replacement ← PaperReservation.modelValidate fields
    return sortedReservations (remaining ++ [replacement])

/-- Cash an entry's fills cost, fee included. -/
def spentCash (costs : CostPolicy) (state : PaperOrderState D) : Rat :=
  match state.averageFillPrice with
  | none => 0
  | some average => average * state.cumulativeFilledQuantity * (1 + costs.buyFeeBps / bps)

/-- `settle_paper_entry` -/
def settlePaperEntry (ledger : PaperResourceLedger D) (intent : PaperOrderIntent D)
    (state : PaperOrderState D) (costs : CostPolicy) :
    Except Raised (PaperResourceLedger D) := do
  let mismatch := Raised.valueError "paper entry settlement does not match an active reservation"
  require (intent.leg = .entry ∧ state.intentSha256 = intent.sha256 ∧
    state.status.isTerminal ∧ costs.contains intent.tradeDate) mismatch
  match ledger.reservations.filter fun item =>
      item.entryIntentSha256 == intent.sha256 && item.status == .entryPending with
  | [reservation] =>
      let filled := state.cumulativeFilledQuantity
      let spent := spentCash costs state
      require (spent ≤ reservation.reservedCashVnd)
        (.valueError "paper entry fill exceeds reserved cash")
      let remaining := ledger.reservations.filter (·.entryIntentSha256 != intent.sha256)
      let reservations ← retainOutstanding remaining filled {
        entryIntentSha256 := intent.sha256
        exitIntentSha256 := none
        symbol := intent.symbol
        status := .open
        reservedCashVnd := 0
        reservedExitQuantity := filled
        entryFilledQuantity := filled
        entryAverageFillPrice := state.averageFillPrice }
      let positions ← movePositions ledger intent.symbol
        (reservation.reservedExitQuantity - filled)
      PaperResourceLedger.modelValidate {
        ledger.toPaperResourceLedgerFields with
        revision := ledger.revision + 1
        availableCashVnd := ledger.availableCashVnd + reservation.reservedCashVnd - spent
        positions := positions
        reservations := reservations }
  | _ => throw mismatch

/-- `reserve_paper_exit` -/
def reservePaperExit (ledger : PaperResourceLedger D) (intent : PaperOrderIntent D) :
    Except Raised (PaperResourceLedger D) := do
  let mismatch := Raised.valueError "paper exit cannot reserve the supplied open cycle"
  require (intent.leg = .exit ∧ intent.resourceLedgerSha256 = ledger.sha256) mismatch
  match ledger.reservations.filter fun item =>
      some item.entryIntentSha256 == intent.parentIntentSha256 && item.status == .open with
  | [selected] =>
      require (selected.reservedExitQuantity = intent.quantity) mismatch
      let replacement ← PaperReservation.modelValidate {
        selected.toPaperReservationFields with
        exitIntentSha256 := some intent.sha256
        status := .exitPending }
      PaperResourceLedger.modelValidate {
        ledger.toPaperResourceLedgerFields with
        revision := ledger.revision + 1
        reservations := ledger.reservations.map fun item =>
          if item.entryIntentSha256 = selected.entryIntentSha256 then replacement else item }
  | _ => throw mismatch

/-- Result of the sold quantity, fees and tax included. -/
def realizedPnl (costs : CostPolicy) (state : PaperOrderState D)
    (reservation : PaperReservation D) : Except Raised Rat :=
  let sold := state.cumulativeFilledQuantity
  if sold = 0 then .ok 0
  else
    match state.averageFillPrice, reservation.entryAverageFillPrice with
    | some exitPrice, some entryPrice =>
        .ok (exitPrice * sold * (1 - (costs.sellFeeBps + costs.sellTaxBps) / bps) -
          entryPrice * sold * (1 + costs.buyFeeBps / bps))
    | _, _ =>
        .error (.valueError "paper exit settlement requires priced entry and exit fills")

/-- `settle_paper_exit` -/
def settlePaperExit (ledger : PaperResourceLedger D) (intent : PaperOrderIntent D)
    (state : PaperOrderState D) (costs : CostPolicy) :
    Except Raised (PaperResourceLedger D) := do
  let mismatch := Raised.valueError "paper exit settlement does not match an active reservation"
  require (intent.leg = .exit ∧ state.intentSha256 = intent.sha256 ∧
    state.status.isTerminal ∧ costs.contains intent.tradeDate) mismatch
  match ledger.reservations.filter fun item =>
      item.exitIntentSha256 == some intent.sha256 && item.status == .exitPending with
  | [reservation] =>
      let sold := state.cumulativeFilledQuantity
      require (sold ≤ reservation.reservedExitQuantity)
        (.valueError "paper exit exceeds its reserved quantity")
      let realized ← realizedPnl costs state reservation
      let outstanding := reservation.reservedExitQuantity - sold
      let remaining := ledger.reservations.filter
        (·.entryIntentSha256 != reservation.entryIntentSha256)
      let reservations ← retainOutstanding remaining outstanding {
        reservation.toPaperReservationFields with
        exitIntentSha256 := none
        status := .open
        reservedCashVnd := 0
        reservedExitQuantity := outstanding
        entryFilledQuantity := outstanding }
      PaperResourceLedger.modelValidate {
        ledger.toPaperResourceLedgerFields with
        revision := ledger.revision + 1
        realizedNetPnlVnd := ledger.realizedNetPnlVnd + realized
        reservations := reservations }
  | _ => throw mismatch

end MiniLakehouse
