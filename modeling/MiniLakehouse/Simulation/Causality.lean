import MiniLakehouse.Simulation.Accounting
import MiniLakehouse.Execution.Commands

/-!
# Simulation causality

Two requests that only prices observed after an instant tell apart are
simulated in lockstep up to it.  `SameUntil` relates proposals, `SameSoFar` the
accounting states, one lemma per kind of event carries the relation, and the
lockstep rule of loops carries it along the sorted events.
-/

namespace MiniLakehouse

variable {D : Type} [Hashing D] {t : Instant}

/-- What a label says without the horizon's price and what is derived from it. -/
def OutcomeLabelFields.withoutHorizon (fields : OutcomeLabelFields D) :
    OutcomeLabelFields D :=
  { fields with
    horizonQuoteReceivedAt := none, horizonReceiveSequence := none, horizonVwap := none,
    grossReturnBps := none, reasons := [] }

/-- Proposals that only a horizon price observed after `t` tells apart. -/
structure SameUntil (t : Instant) (first second : ArbitratedCycleProposal D) : Prop where
  candidate : first.candidate = second.candidate
  arbitration : first.arbitration = second.arbitration
  entry : first.outcome.withoutHorizon = second.outcome.withoutHorizon
  observed : first.horizonAt ≤ t → first.outcome = second.outcome

namespace SameUntil

variable {first second : ArbitratedCycleProposal D} (h : SameUntil t first second)

include h

theorem cycleId : first.cycleId = second.cycleId :=
  congrArg CandidateArbitration.sha256 h.arbitration

theorem symbol : first.symbol = second.symbol :=
  congrArg (fun item : BaselineCandidate D => item.symbol) h.candidate

theorem entryAt : first.entryAt = second.entryAt :=
  (congrArg OutcomeLabelFields.entryAt h.entry :)

theorem horizonAt : first.horizonAt = second.horizonAt :=
  (congrArg OutcomeLabelFields.horizonAt h.entry :)

theorem quantity : first.quantity = second.quantity :=
  (congrArg OutcomeLabelFields.orderQuantity h.entry :)

theorem entryVwap : first.outcome.entryVwap = second.outcome.entryVwap :=
  (congrArg OutcomeLabelFields.entryVwap h.entry :)

theorem priority : first.priority = second.priority := by
  simp only [ArbitratedCycleProposal.priority, h.arbitration]

/-- Once the horizon has been observed nothing tells the proposals apart. -/
theorem eq_of_observed (hobserved : first.horizonAt ≤ t) : first = second := by
  have houtcome := h.observed hobserved
  obtain ⟨hcandidate, harbitration, -, -⟩ := h
  cases first
  cases second
  subst hcandidate harbitration houtcome
  rfl

end SameUntil

/-- Results that differ in nothing but the identity of their outcome label. -/
def SameResult (first second : CycleResult D) : Prop :=
  { first with outcomeSha256 := second.outcomeSha256 } = second

/-- Open cycles of matching proposals, entered at one execution. -/
structure SameOpen (t : Instant) (first second : OpenCycle D) : Prop where
  proposal : SameUntil t first.proposal second.proposal
  entry : first.entry = second.entry

/-- Accounting states that what is observed up to `t` does not tell apart. -/
structure SameSoFar (t : Instant) (first second : SimulationState D) : Prop where
  positions : first.positions = second.positions
  cash : first.cash = second.cash
  pendingSales : first.pendingSales = second.pendingSales
  advancePrincipal : first.advancePrincipal = second.advancePrincipal
  advanceInterest : first.advanceInterest = second.advanceInterest
  openBySymbol : List.Forall₂ (SameOpen t) first.openBySymbol second.openBySymbol
  results : ∀ key, Option.Rel SameResult (first.results key) (second.results key)
  started : first.started = second.started
  realizedNet : first.realizedNet = second.realizedNet

/-- Requests that only horizon prices observed after `t` tell apart. -/
structure AgreeUntil (t : Instant) (first second : SimulationRequest D) : Prop where
  shared : { first.toSimulationRequestFields with proposals := [] } =
    { second.toSimulationRequestFields with proposals := [] }
  proposals : List.Forall₂ (SameUntil t) first.proposals second.proposals

namespace AgreeUntil

variable {first second : SimulationRequest D} (h : AgreeUntil t first second)

include h

theorem tradeDate : first.tradeDate = second.tradeDate :=
  (congrArg SimulationRequestFields.tradeDate h.shared :)

theorem account : first.account = second.account :=
  (congrArg SimulationRequestFields.account h.shared :)

theorem costs : first.costs = second.costs :=
  (congrArg SimulationRequestFields.costs h.shared :)

theorem advance : first.advance = second.advance :=
  (congrArg SimulationRequestFields.advance h.shared :)

theorem risk : first.risk = second.risk :=
  (congrArg SimulationRequestFields.risk h.shared :)

theorem lotSize : first.lotSize = second.lotSize :=
  (congrArg SimulationRequestFields.lotSize h.shared :)

theorem initial (symbol : String) : first.initial symbol = second.initial symbol := by
  simp only [SimulationRequest.initial, h.account]

end AgreeUntil

/-! ## Entries and exits -/

theorem SameSoFar.start {first second : SimulationRequest D}
    (h : AgreeUntil t first second) : SameSoFar t first.start second.start := by
  constructor
  case positions => simp only [SimulationRequest.start, h.initial]
  case cash => simp only [SimulationRequest.start, h.account]
  case openBySymbol => exact .nil
  case results => exact fun _ => .none
  all_goals rfl

/-- A result without a second execution depends on nothing unobserved. -/
theorem SameUntil.result {first second : ArbitratedCycleProposal D}
    (h : SameUntil t first second) {status : CycleStatus} (hstatus : status ≠ .closed)
    {reason : Option String} {entry : Option SimulatedExecution} {result result' : CycleResult D}
    (hfirst : first.result status reason entry none = .ok result)
    (hsecond : second.result status reason entry none = .ok result') :
    SameResult result result' := by
  have hstrategy : first.candidate.strategy = second.candidate.strategy := by rw [h.candidate]
  cases status with
  | closed => exact absurd rfl hstatus
  | rejected =>
      obtain rfl := Except.ok.inj hfirst
      obtain rfl := Except.ok.inj hsecond
      exact CycleResult.ext h.cycleId rfl h.symbol hstrategy h.quantity h.entryAt h.horizonAt
        rfl rfl rfl rfl rfl rfl rfl
  | «open» =>
      obtain rfl := Except.ok.inj hfirst
      obtain rfl := Except.ok.inj hsecond
      exact CycleResult.ext h.cycleId rfl h.symbol hstrategy h.quantity h.entryAt h.horizonAt
        rfl rfl rfl rfl rfl rfl rfl

omit [Hashing D] in
theorem SameResult.cycleId {first second : CycleResult D} (h : SameResult first second) :
    first.cycleId = second.cycleId :=
  (congrArg CycleResult.cycleId h :)

/-- Matching results are recorded under one key. -/
theorem SameResult.update {first second : CycleResult D} (h : SameResult first second)
    {results results' : D → Option (CycleResult D)}
    (hresults : ∀ key, Option.Rel SameResult (results key) (results' key)) (key : D) :
    Option.Rel SameResult (Function.update results first.cycleId (some first) key)
      (Function.update results' second.cycleId (some second) key) := by
  rw [h.cycleId]
  by_cases hkey : key = second.cycleId
  · subst hkey
    simp only [Function.update_self]
    exact .some h
  · simp only [Function.update_of_ne hkey]
    exact hresults key

/-- Recording matching results keeps the states alike. -/
theorem SameSoFar.record {first second : SimulationState D} (h : SameSoFar t first second)
    {result result' : CycleResult D} (hresult : SameResult result result') :
    SameSoFar t (SimulationRequest.record first result)
      (SimulationRequest.record second result') :=
  { h with results := hresult.update h.results }

/-- Rejections for one reason keep the states alike. -/
theorem SameSoFar.reject {first second first' second' : SimulationState D}
    (h : SameSoFar t first second) {proposal proposal' : ArbitratedCycleProposal D}
    (hproposal : SameUntil t proposal proposal') {reason : String}
    (hfirst : SimulationRequest.reject first proposal reason = .ok first')
    (hsecond : SimulationRequest.reject second proposal' reason = .ok second') :
    SameSoFar t first' second' := by
  simp only [SimulationRequest.reject, bind_eq_ok, pure_eq_ok] at hfirst hsecond
  obtain ⟨result, hresult, rfl⟩ := hfirst
  obtain ⟨result', hresult', rfl⟩ := hsecond
  exact h.record (hproposal.result (by simp) hresult hresult')

/-- A symbol is open in both states or in neither. -/
theorem SameSoFar.busy {first second : SimulationState D} (h : SameSoFar t first second)
    (symbol : String) : first.openBySymbol.any (·.symbol == symbol) =
      second.openBySymbol.any (·.symbol == symbol) := by
  have hsymbols : second.openBySymbol.map OpenCycle.symbol =
      first.openBySymbol.map OpenCycle.symbol :=
    map_eq_of_forall₂ (h.openBySymbol.imp fun _ _ hcycle => hcycle.proposal.symbol.symm)
  have hany := congrArg (List.any · (· == symbol)) hsymbols
  simpa [List.any_map, Function.comp_def] using hany.symm

/-- A symbol's open cycles match. -/
theorem find?_sameOpen {cycles cycles' : List (OpenCycle D)}
    (h : List.Forall₂ (SameOpen t) cycles cycles') (symbol : String) :
    Option.Rel (SameOpen t) (cycles.find? (·.symbol == symbol))
      (cycles'.find? (·.symbol == symbol)) := by
  induction h with
  | nil => exact .none
  | @cons cycle cycle' _ _ hhead _ ih =>
      have hsymbol : cycle.symbol = cycle'.symbol := hhead.proposal.symbol
      simp only [List.find?_cons, hsymbol]
      split
      · exact .some hhead
      · exact ih

/-- Removing a symbol's open cycles keeps the rest alike. -/
theorem without_sameOpen {cycles cycles' : List (OpenCycle D)}
    (h : List.Forall₂ (SameOpen t) cycles cycles') (symbol : String) :
    List.Forall₂ (SameOpen t) (without OpenCycle.symbol symbol cycles)
      (without OpenCycle.symbol symbol cycles') := by
  refine List.rel_filter (fun cycle cycle' hcycle => ?_) h
  have hsymbol : cycle.symbol = cycle'.symbol := hcycle.proposal.symbol
  simp [hsymbol]

/-- An entry is turned down for the same reason. -/
theorem SameSoFar.entryReason {request request' : SimulationRequest D}
    (hagree : AgreeUntil t request request') {first second : SimulationState D}
    (h : SameSoFar t first second) {proposal proposal' : ArbitratedCycleProposal D}
    (hproposal : SameUntil t proposal proposal') (item : AccountPosition)
    (position : SimulatedPosition) : request.entryReason first proposal item position =
      request'.entryReason second proposal' item position := by
  simp only [SimulationRequest.entryReason, h.busy, hproposal.symbol, hproposal.entryVwap,
    hproposal.quantity, hagree.lotSize, hagree.risk, h.started, h.realizedNet]

/-- A purchase draws the same advance. -/
theorem SameSoFar.fundBuy {request request' : SimulationRequest D}
    (hagree : AgreeUntil t request request') {first second : SimulationState D}
    (h : SameSoFar t first second) (spend : Rat) :
    request.fundBuy first spend = request'.fundBuy second spend := by
  simp only [SimulationRequest.fundBuy, hagree.risk, hagree.advance, hagree.tradeDate, h.cash,
    h.advancePrincipal, h.advanceInterest, h.pendingSales]

/-- A funded purchase keeps the states alike. -/
theorem SameSoFar.bought {first second : SimulationState D} (h : SameSoFar t first second)
    {proposal proposal' : ArbitratedCycleProposal D} (hproposal : SameUntil t proposal proposal')
    (position : SimulatedPosition) (entry : SimulatedExecution) (draw interest : Rat) :
    SameSoFar t (SimulationRequest.bought first proposal position entry draw interest)
      (SimulationRequest.bought second proposal' position entry draw interest) := by
  constructor
  case positions =>
    simp only [SimulationRequest.bought, h.positions, hproposal.symbol, hproposal.quantity]
  case cash => simp only [SimulationRequest.bought, h.cash]
  case pendingSales => exact h.pendingSales
  case advancePrincipal => simp only [SimulationRequest.bought, h.advancePrincipal]
  case advanceInterest => simp only [SimulationRequest.bought, h.advanceInterest]
  case openBySymbol =>
    have hkept := without_sameOpen h.openBySymbol proposal.symbol
    simp only [SimulationRequest.bought, ← hproposal.symbol]
    exact List.rel_append hkept (.cons ⟨hproposal, rfl⟩ .nil)
  case results => exact h.results
  case started => simp only [SimulationRequest.bought, h.started]
  case realizedNet => simp only [SimulationRequest.bought, h.realizedNet]

/-- **An entry** that both runs can make keeps their states alike: no price of
the horizon is read. -/
theorem SameSoFar.enter {request request' : SimulationRequest D}
    (hagree : AgreeUntil t request request') {first second first' second' : SimulationState D}
    (h : SameSoFar t first second) {proposal proposal' : ArbitratedCycleProposal D}
    (hproposal : SameUntil t proposal proposal')
    (hfirst : request.enter first proposal = .ok first')
    (hsecond : request'.enter second proposal' = .ok second') : SameSoFar t first' second' := by
  simp only [SimulationRequest.enter, ← hagree.initial, ← h.positions, ← hproposal.symbol,
    ← hproposal.entryVwap, ← hproposal.quantity, ← hagree.costs, ← hagree.risk,
    ← h.fundBuy hagree, ← h.entryReason hagree hproposal] at hfirst hsecond
  split at hfirst
  next item position hitem hposition =>
    simp only [hitem, hposition] at hsecond
    split at hfirst
    · next reason hreason =>
        simp only [hreason] at hsecond
        exact h.reject hproposal hfirst hsecond
    · cases hfirst
    · next price hreason hprice =>
        simp only [hreason, hprice] at hsecond
        split at hfirst
        · next hlimit =>
            rw [if_pos hlimit] at hsecond
            exact h.reject hproposal hfirst hsecond
        · next hlimit =>
            rw [if_neg hlimit] at hsecond
            split at hfirst
            · next hfund =>
                simp only [hfund] at hsecond
                exact h.reject hproposal hfirst hsecond
            · next draw interest hfund =>
                simp only [hfund] at hsecond
                obtain rfl := Except.ok.inj hfirst
                obtain rfl := Except.ok.inj hsecond
                exact h.bought hproposal position _ draw interest
  · cases hfirst

/-- A sale at an observed horizon keeps the states alike. -/
theorem SameSoFar.sell {request request' : SimulationRequest D}
    (hagree : AgreeUntil t request request') {first second first' second' : SimulationState D}
    (h : SameSoFar t first second) {proposal : ArbitratedCycleProposal D}
    {opened opened' : OpenCycle D} (hentry : opened.entry = opened'.entry) {price : Rat}
    (hfirst : request.sell first proposal opened price = .ok first')
    (hsecond : request'.sell second proposal opened' price = .ok second') :
    SameSoFar t first' second' := by
  simp only [SimulationRequest.sell, ← hagree.initial, ← h.positions, ← hentry,
    ← hagree.costs] at hfirst hsecond
  split at hfirst
  next item position hitem hposition =>
    simp only [hitem, hposition] at hsecond
    split at hfirst
    · next hshort =>
        rw [if_pos hshort] at hsecond
        simp only [bind_eq_ok, pure_eq_ok] at hfirst hsecond
        obtain ⟨result, hresult, rfl⟩ := hfirst
        obtain ⟨result', hresult', rfl⟩ := hsecond
        obtain rfl := Except.ok.inj (hresult.symm.trans hresult')
        exact h.record rfl
    · next hshort =>
        rw [if_neg hshort] at hsecond
        simp only [bind_eq_ok] at hfirst hsecond
        obtain ⟨result, hresult, hfirst⟩ := hfirst
        obtain ⟨result', hresult', hsecond⟩ := hsecond
        obtain rfl := Except.ok.inj (hresult.symm.trans hresult')
        split at hfirst
        · simp at hfirst
        · next net hnet =>
            simp only [hnet, pure_eq_ok] at hfirst hsecond
            subst hfirst hsecond
            constructor
            case positions => simp only [SimulationRequest.sold, h.positions]
            case cash => exact h.cash
            case pendingSales => simp only [SimulationRequest.sold, h.pendingSales]
            case advancePrincipal => exact h.advancePrincipal
            case advanceInterest => exact h.advanceInterest
            case openBySymbol => exact without_sameOpen h.openBySymbol _
            case results =>
              have hsame : SameResult result result := rfl
              exact hsame.update h.results
            case started => exact h.started
            case realizedNet => simp only [SimulationRequest.sold, h.realizedNet]
  · cases hfirst

/-- **An exit** at a horizon that has been observed keeps the states alike. -/
theorem SameSoFar.leave {request request' : SimulationRequest D}
    (hagree : AgreeUntil t request request') {first second first' second' : SimulationState D}
    (h : SameSoFar t first second) {proposal proposal' : ArbitratedCycleProposal D}
    (hproposal : SameUntil t proposal proposal') (hobserved : proposal.horizonAt ≤ t)
    (hfirst : request.leave first proposal = .ok first')
    (hsecond : request'.leave second proposal' = .ok second') : SameSoFar t first' second' := by
  obtain rfl := hproposal.eq_of_observed hobserved
  have hfound := find?_sameOpen h.openBySymbol proposal.symbol
  simp only [SimulationRequest.leave] at hfirst hsecond
  generalize first.openBySymbol.find? (·.symbol == proposal.symbol) = found at hfirst hfound
  generalize second.openBySymbol.find? (·.symbol == proposal.symbol) = found' at hsecond hfound
  cases hfound with
  | none =>
      obtain rfl := Except.ok.inj hfirst
      obtain rfl := Except.ok.inj hsecond
      exact h
  | @some opened opened' hopen =>
      simp only [← hopen.proposal.cycleId] at hfirst hsecond
      split at hfirst
      · next hother =>
          rw [if_pos hother] at hsecond
          obtain rfl := Except.ok.inj hfirst
          obtain rfl := Except.ok.inj hsecond
          exact h
      · next hmine =>
          rw [if_neg hmine] at hsecond
          split at hfirst
          · next hprice =>
              simp only [hprice, ← hopen.entry, bind_eq_ok, pure_eq_ok] at hfirst hsecond
              obtain ⟨result, hresult, rfl⟩ := hfirst
              obtain ⟨result', hresult', rfl⟩ := hsecond
              obtain rfl := Except.ok.inj (hresult.symm.trans hresult')
              exact h.record rfl
          · next price hprice =>
              simp only [hprice] at hsecond
              exact h.sell hagree hopen.entry hfirst hsecond

/-! ## The whole day -/

/-- Events of one kind and of matching proposals. -/
structure SameEvent (t : Instant) (first second : SimulationEvent D) : Prop where
  isEntry : first.isEntry = second.isEntry
  proposal : SameUntil t first.proposal second.proposal

namespace SameEvent

variable {first second : SimulationEvent D} (h : SameEvent t first second)

include h

theorem time : first.time = second.time := by
  simp only [SimulationEvent.time, h.isEntry, h.proposal.entryAt, h.proposal.horizonAt]

theorem key : first.key = second.key := by
  simp only [SimulationEvent.key, h.time, h.isEntry, h.proposal.priority]

end SameEvent

/-- Requests that agree up to `t` have the same events in the same order. -/
theorem AgreeUntil.events {first second : SimulationRequest D}
    (h : AgreeUntil t first second) :
    List.Forall₂ (SameEvent t) first.events second.events := by
  refine sortOn_forall₂ (fun _ _ hevent => hevent.key) ?_
  refine List.rel_flatMap h.proposals fun proposal proposal' hproposal => ?_
  exact .cons ⟨rfl, hproposal⟩ (.cons ⟨rfl, hproposal⟩ .nil)

/-- **One event** up to `t` keeps the states alike. -/
theorem SameSoFar.step {request request' : SimulationRequest D}
    (hagree : AgreeUntil t request request') {first second first' second' : SimulationState D}
    (h : SameSoFar t first second) {event event' : SimulationEvent D}
    (hevent : SameEvent t event event') (htime : event.time ≤ t)
    (hfirst : request.step first event = .ok first')
    (hsecond : request'.step second event' = .ok second') : SameSoFar t first' second' := by
  simp only [SimulationRequest.step, ← hevent.isEntry] at hfirst hsecond
  by_cases hentry : event.isEntry = true
  · rw [if_pos hentry] at hfirst hsecond
    exact h.enter hagree hevent.proposal hfirst hsecond
  · rw [if_neg hentry] at hfirst hsecond
    have hobserved : event.proposal.horizonAt ≤ t := by
      simpa [SimulationEvent.time, hentry] using htime
    exact h.leave hagree hevent.proposal hobserved hfirst hsecond

/-- **Simulation causality.**  Two requests that differ only in horizon prices
observed after `t`, and in what the labels derive from them, have the same
events in the same order.  After every number of events up to `t` both runs
have recorded the same decisions with the same reasons and executions, and hold
the same cash, inventory, pending sales, advances, open cycles and profit. -/
theorem simulation_causality {first second : SimulationRequest D}
    (h : AgreeUntil t first second) :
    List.Forall₂ (SameEvent t) first.events second.events ∧
    ∀ n, (∀ event ∈ first.events.take n, event.time ≤ t) → ∃ state state',
      first.run (first.events.take n) = .ok state ∧
      second.run (second.events.take n) = .ok state' ∧ SameSoFar t state state' := by
  refine ⟨h.events, fun n htime => ?_⟩
  obtain ⟨state, hrun, -⟩ := Accounted.run (List.take_append_drop n first.events).symm
  obtain ⟨state', hrun', -⟩ := Accounted.run (List.take_append_drop n second.events).symm
  refine ⟨state, state', hrun, hrun', ?_⟩
  have hevents : List.Forall₂ (fun event event' => SameEvent t event event' ∧ event.time ≤ t)
      (first.events.take n) (second.events.take n) := by
    have htaken := List.forall₂_take n h.events
    refine List.forall₂_iff_get.mpr ⟨htaken.length_eq, fun i hi hi' => ⟨?_, ?_⟩⟩
    · exact htaken.get hi hi'
    · exact htime _ (List.get_mem _ _)
  exact foldlM_lockstep (fun _ _ _ _ _ _ hsame hevent => hsame.step h hevent.1 hevent.2)
    (SameSoFar.start h) hevents hrun hrun'

namespace Rehearsal

/-- The label of the rehearsed candidate, at a horizon price or without one. -/
def outcomeFields (horizonVwap grossReturnBps : Option Rat) (reasons : List String) :
    OutcomeLabelFields Spelled where
  outcomeVersion := "outcomes-v1"
  outcomeConfigurationSha256 := mark 7
  featureVersion := "features-v1"
  featureConfigurationSha256 := mark 8
  featureSnapshotSha256 := mark 1
  streamSessionId := "stream"
  symbol := "VIC"
  tradeDate := day
  decisionAt := clock 0
  action := .buy
  horizonSeconds := 300
  orderQuantity := 100
  entryAt := clock 2
  horizonAt := clock 300
  entryQuoteReceivedAt := some (clock 1)
  entryReceiveSequence := some 2
  entryVwap := some 50000
  horizonQuoteReceivedAt := some (clock 299)
  horizonReceiveSequence := some 3
  horizonVwap := horizonVwap
  grossReturnBps := grossReturnBps
  reasons := reasons

def risingOutcome : OutcomeLabel Spelled :=
  ⟨outcomeFields (some 50100) (some 20) [], by decide +kernel⟩

def missingOutcome : OutcomeLabel Spelled :=
  ⟨outcomeFields none none ["HORIZON_BOOK_UNAVAILABLE"], by decide +kernel⟩

private theorem matched_outcome {outcome : OutcomeLabel Spelled}
    (h : outcome.withoutHorizon = (outcomeFields none none []).withoutHorizon) :
    MatchesOutcome candidate arbitration outcome where
  feature := (congrArg OutcomeLabelFields.featureSnapshotSha256 h :)
  symbol := (congrArg OutcomeLabelFields.symbol h :)
  tradeDate := (congrArg OutcomeLabelFields.tradeDate h :)
  decisionAt := (congrArg OutcomeLabelFields.decisionAt h :)
  action := (congrArg OutcomeLabelFields.action h :)
  horizon := (congrArg OutcomeLabelFields.horizonSeconds h :)

private theorem rising_eligible : ¬(risingOutcome.reasons ≠ [] ∧
    risingOutcome.entryVwap.isSome ∧ risingOutcome.horizonVwap.isSome) := by decide

private theorem missing_eligible : ¬(missingOutcome.reasons ≠ [] ∧
    missingOutcome.entryVwap.isSome ∧ missingOutcome.horizonVwap.isSome) := by decide

private theorem mark_priced : (0 : Rat) < 50200 ∧ "close" ≠ "" := by decide

/-- The rehearsed candidate, whose horizon price rises. -/
def rising : ArbitratedCycleProposal Spelled :=
  ⟨candidate, arbitration, risingOutcome, request.candidate_selected, matched_outcome rfl,
    rising_eligible⟩

/-- The rehearsed candidate, whose horizon price is missing. -/
def missing : ArbitratedCycleProposal Spelled :=
  ⟨candidate, arbitration, missingOutcome, request.candidate_selected, matched_outcome rfl,
    missing_eligible⟩

/-- One simulated day of one proposal. -/
def simulated (proposal : ArbitratedCycleProposal Spelled) :
    SimulationRequestFields Spelled where
  tradeDate := day
  account := account
  costs := costs
  advance := none
  risk := request.risk
  lotSize := 100
  closingMarks := [⟨"VIC", clock 5000, 50200, "close", mark_priced⟩]
  selectionEvidence :=
    [⟨arbitration.sha256, clock 1, "journal", mark 6, request.selection.source_nonempty⟩]
  proposals := [proposal]

def risingDay : SimulationRequest Spelled := ⟨simulated rising, by decide +kernel⟩

def missingDay : SimulationRequest Spelled := ⟨simulated missing, by decide +kernel⟩

theorem days_agree : AgreeUntil (clock 100) risingDay missingDay where
  shared := rfl
  proposals := .cons ⟨rfl, rfl, rfl, fun h => absurd h (by decide +kernel)⟩ .nil

end Rehearsal

/-- The rehearsed entry is started alike whether its horizon price rises or is
missing later. -/
theorem simulation_causality_rehearsal : ∃ state state',
    Rehearsal.risingDay.run (Rehearsal.risingDay.events.take 1) = .ok state ∧
    Rehearsal.missingDay.run (Rehearsal.missingDay.events.take 1) = .ok state' ∧
    SameSoFar (Rehearsal.clock 100) state state' ∧ state'.started = 1 := by
  have hstarted : (Rehearsal.missingDay.run
      (Rehearsal.missingDay.events.take 1)).toOption.any (·.started = 1) = true := by
    decide +kernel
  obtain ⟨state, state', hrun, hrun', hsame⟩ :=
    (simulation_causality Rehearsal.days_agree).2 1 (by decide +kernel)
  rw [hrun'] at hstarted
  have hone : state'.started = 1 := by simpa [Except.toOption] using hstarted
  exact ⟨state, state', hrun, hrun', hsame, hone⟩

end MiniLakehouse
