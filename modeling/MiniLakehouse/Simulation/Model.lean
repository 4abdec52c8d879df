import MiniLakehouse.Arbitration.Model
import MiniLakehouse.Controls.Model
import MiniLakehouse.Outcomes.Model

/-!
# Simulation requests and reports

The inputs and outputs of one simulated day (`simulation/model.py`).  A request
carries its proposals with the lineage that selected them, and a validated one
is what `simulateCycles` takes.
-/

namespace MiniLakehouse

structure ClosingMark where
  symbol : String
  asOf : Instant
  price : Rat
  source : String
  mark_priced : 0 < price ∧ source ≠ ""

/-- The outcome is the one that the arbitration's selection is conditional on. -/
structure MatchesOutcome {D : Type} [Hashing D] (candidate : BaselineCandidate D)
    (arbitration : CandidateArbitration D) (outcome : OutcomeLabel D) : Prop where
  feature : outcome.featureSnapshotSha256 = candidate.featureSnapshotSha256
  symbol : outcome.symbol = candidate.symbol
  tradeDate : outcome.tradeDate = candidate.tradeDate
  decisionAt : outcome.decisionAt = candidate.decisionAt
  action : outcome.action = .buy
  horizon : outcome.horizonSeconds = arbitration.horizonSeconds

/-- One selected buy-first candidate and its exact conditional outcome. -/
structure ArbitratedCycleProposal (D : Type) [Hashing D] where
  candidate : BaselineCandidate D
  arbitration : CandidateArbitration D
  outcome : OutcomeLabel D
  selected : SelectsCandidate candidate arbitration
  lineage : MatchesOutcome candidate arbitration outcome
  priced_eligible :
    ¬(outcome.reasons ≠ [] ∧ outcome.entryVwap.isSome ∧ outcome.horizonVwap.isSome)

section

variable {D : Type} [Hashing D]

theorem CandidateArbitration.priority_of_selected (arbitration : CandidateArbitration D)
    (h : arbitration.status = .selected) : arbitration.priority.isSome := by
  have hvalid := arbitration.valid
  simp only [CandidateArbitrationFields.checks, allHold_cons] at hvalid
  have hselected := hvalid.2.2.2.2.2.2.1
  simp only [h, bne_self_eq_false, Bool.false_or, Bool.and_eq_true] at hselected
  exact hselected.1.2

namespace ArbitratedCycleProposal

/-- A selected arbitration always carries its priority. -/
def priority (proposal : ArbitratedCycleProposal D) : Nat :=
  proposal.arbitration.priority.get
    (proposal.arbitration.priority_of_selected proposal.selected.2.1)

/-- `cycle_id` -/
def cycleId (proposal : ArbitratedCycleProposal D) : D := proposal.arbitration.sha256

def symbol (proposal : ArbitratedCycleProposal D) : String := proposal.candidate.symbol

def entryAt (proposal : ArbitratedCycleProposal D) : Instant := proposal.outcome.entryAt

def horizonAt (proposal : ArbitratedCycleProposal D) : Instant := proposal.outcome.horizonAt

def quantity (proposal : ArbitratedCycleProposal D) : Nat := proposal.outcome.orderQuantity

end ArbitratedCycleProposal

structure SimulationRequestFields (D : Type) [Hashing D] where
  tradeDate : Day
  account : AccountSnapshot
  costs : CostPolicy
  advance : Option AdvancePolicy
  risk : RiskLimits
  lotSize : Nat
  closingMarks : List ClosingMark
  selectionEvidence : List (SelectionEvidence D)
  proposals : List (ArbitratedCycleProposal D)

namespace SimulationRequestFields

variable (fields : SimulationRequestFields D)

/-- `symbols` -/
def symbols : List String := fields.account.positions.map (·.symbol)

/-- `marks[symbol].as_of` -/
def markAt (symbol : String) : Option Instant :=
  (fields.closingMarks.find? (·.symbol == symbol)).map (·.asOf)

/-- `selections[sha256].selected_at` -/
def selectedAt (arbitrationSha256 : D) : Option Instant :=
  (fields.selectionEvidence.find? (·.arbitrationSha256 == arbitrationSha256)).map
    (·.selectedAt)

/-- Two lists name the same keys. -/
private def sameKeys {α : Type} [DecidableEq α] (first second : List α) : Bool :=
  first.all (second.contains ·) && second.all (first.contains ·)

/-- `SimulationRequest.validate_request` with the field constraints. -/
def checks : List (Check Raised) :=
  let marked : List String := fields.closingMarks.map (·.symbol)
  let arbitrations : List D := fields.proposals.map (·.arbitration.sha256)
  [⟨1 ≤ fields.lotSize, .fieldError "lot_size"⟩,
    ⟨fields.costs.contains fields.tradeDate,
      .valueError "cost policy is not effective for trade date"⟩,
    ⟨fields.advance.all (fields.tradeDate < ·.settlementDate),
      .valueError "advance settlement date must follow the trade date"⟩,
    ⟨marketTimezone.date fields.account.asOf = fields.tradeDate,
      .valueError "account snapshot must be from the trade date"⟩,
    ⟨decide marked.Nodup && sameKeys marked fields.symbols,
      .valueError "closing marks must cover account symbols exactly once"⟩,
    ⟨fields.closingMarks.all fun mark =>
        marketTimezone.date mark.asOf = fields.tradeDate && fields.account.asOf < mark.asOf,
      .valueError "closing marks must follow the same-day account snapshot"⟩,
    ⟨decide arbitrations.Nodup && decide (fields.proposals.map fun item =>
        (item.arbitration.symbol, item.arbitration.decisionAt)).Nodup,
      .valueError "proposals must have unique arbitrations and symbol clocks"⟩,
    ⟨(fields.proposals.map fun item => (item.entryAt, item.priority)).Nodup,
      .valueError "simultaneous proposals require unique explicit priorities"⟩,
    ⟨decide (fields.selectionEvidence.map (·.arbitrationSha256)).Nodup &&
        sameKeys (fields.selectionEvidence.map (·.arbitrationSha256)) arbitrations,
      .valueError "selection evidence must cover selected arbitrations exactly once"⟩,
    ⟨fields.proposals.all fun item =>
        (fields.selectedAt item.arbitration.sha256).any fun selectedAt =>
          item.candidate.decisionAt ≤ selectedAt && selectedAt < item.entryAt,
      .valueError "selection evidence must precede outcome entry"⟩,
    ⟨fields.proposals.all fun item =>
        item.candidate.tradeDate == fields.tradeDate &&
          fields.symbols.contains item.symbol &&
          fields.account.asOf < item.candidate.decisionAt &&
          (fields.markAt item.symbol).any fun asOf =>
            item.entryAt < asOf && item.horizonAt ≤ asOf,
      .valueError "proposal or outcome falls outside account and closing-mark window"⟩]

private def proposalDump (item : ArbitratedCycleProposal D) : Json D :=
  .arr [item.candidate.modelDump, item.arbitration.modelDump, item.outcome.modelDump]

private def markDump (mark : ClosingMark) : Json D :=
  .arr [.str mark.symbol, .int mark.asOf, .num mark.price, .str mark.source]

def modelDump : Json D :=
  .arr [.int fields.tradeDate, fields.account.modelDump, fields.costs.modelDump,
    .opt (fun policy => policy.modelDump) fields.advance, fields.risk.modelDump,
    .nat fields.lotSize, .list markDump fields.closingMarks,
    .list (fun item => item.modelDump) fields.selectionEvidence,
    .list proposalDump fields.proposals]

end SimulationRequestFields

/-- One exchange-local day of explicitly arbitrated buy-first proposals. -/
structure SimulationRequest (D : Type) [Hashing D] extends SimulationRequestFields D where
  valid : AllHold toSimulationRequestFields.checks

namespace SimulationRequest

variable (request : SimulationRequest D)

def sha256 : D := Hashing.sha256 request.modelDump

theorem lotSize_pos : 1 ≤ request.lotSize := by
  have h := request.valid
  simp only [SimulationRequestFields.checks, allHold_cons] at h
  simpa using h.1

theorem settles_later : ∀ policy ∈ request.advance, request.tradeDate < policy.settlementDate := by
  have h := request.valid
  simp only [SimulationRequestFields.checks, allHold_cons] at h
  intro policy hpolicy
  have hall := h.2.2.1
  rw [Option.mem_def.mp hpolicy] at hall
  simpa using hall

/-- Every account symbol has its closing mark. -/
theorem marked : ∀ symbol ∈ request.symbols,
    ∃ mark ∈ request.closingMarks, mark.symbol = symbol := by
  have h := request.valid
  simp only [SimulationRequestFields.checks, allHold_cons] at h
  have hmarks := h.2.2.2.2.1
  simp only [Bool.and_eq_true, SimulationRequestFields.sameKeys, List.all_eq_true] at hmarks
  intro symbol hsymbol
  simpa using hmarks.2.2 symbol hsymbol

/-- No two proposals share a cycle. -/
theorem cycleIds_nodup : (request.proposals.map (·.cycleId)).Nodup := by
  have h := request.valid
  simp only [SimulationRequestFields.checks, allHold_cons] at h
  have hunique := h.2.2.2.2.2.2.1
  simp only [Bool.and_eq_true, decide_eq_true_eq] at hunique
  exact hunique.1

/-- Every proposal trades a symbol of the account. -/
theorem proposal_known : ∀ item ∈ request.proposals, item.symbol ∈ request.symbols := by
  have h := request.valid
  simp only [SimulationRequestFields.checks, allHold_cons] at h
  have hwindow := h.2.2.2.2.2.2.2.2.2.2.1
  simp only [List.all_eq_true, Bool.and_eq_true] at hwindow
  intro item hitem
  simpa using (hwindow item hitem).1.1.2

end SimulationRequest

inductive CycleStatus where
  | closed
  | rejected
  | «open»
  deriving DecidableEq, Repr

@[ext] structure CycleResult (D : Type) where
  cycleId : D
  outcomeSha256 : D
  symbol : String
  strategy : BaselineName
  quantity : Nat
  entryAt : Instant
  horizonAt : Instant
  status : CycleStatus
  reason : Option String
  entryPrice : Option Rat
  exitPrice : Option Rat
  grossPnlVnd : Option Rat
  tradingCostVnd : Option Rat
  netPnlVnd : Option Rat
  result_quantity_pos : 1 ≤ quantity

structure EndPosition where
  symbol : String
  settledQty : Int
  t1Qty : Int
  t2Qty : Int
  boughtTodayQty : Int
  quantities_nonneg : 0 ≤ settledQty ∧ 0 ≤ t1Qty ∧ 0 ≤ t2Qty ∧ 0 ≤ boughtTodayQty

/-- Complete means reconstructable, never approved or profitable. -/
structure SimulationReport (D : Type) where
  tradeDate : Day
  requestSha256 : D
  feeProvenanceRecorded : Bool
  feeBasis : CostBasis
  accountPlan : Option String
  selectionReferenceRecorded : Bool
  isComplete : Bool
  cycles : List (CycleResult D)
  startingCashVnd : Rat
  endingCashVnd : Rat
  pendingSaleProceedsVnd : Rat
  advancePrincipalVnd : Rat
  advanceInterestVnd : Rat
  endPositions : List EndPosition
  holdPnlVnd : Rat
  grossT0AlphaVnd : Option Rat
  tradingCostVnd : Option Rat
  financingCostVnd : Option Rat
  netT0AlphaVnd : Option Rat
  holdPlusT0PnlVnd : Option Rat

end

end MiniLakehouse
