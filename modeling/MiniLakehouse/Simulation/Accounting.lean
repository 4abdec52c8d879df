import MiniLakehouse.Simulation.Engine

/-!
# Simulation accounting

`Accounted` ties cash, pending sales, advances, inventory, open cycles and
recorded results together, `Progress` says how far each proposal has come after
a prefix of the events.  One lemma per way an event can end carries both, and
the run lemma follows the sorted events.
-/

namespace MiniLakehouse

variable {D : Type} [Hashing D]

/-! ## Executions and results -/

/-- A sale at a positive book price never costs more than it brings. -/
theorem execution_sell_proceeds (costs : CostPolicy) {price : Rat} (hprice : 0 < price)
    (quantity : Nat) : (execution costs price .sell quantity).charge ≤
      (execution costs price .sell quantity).notional := by
  have hslip := costs.extraSlippage_bounds
  have hrate := costs.sale_keeps_proceeds
  have hkeep : 0 ≤ 1 - costs.extraSlippageBps / 10000 := by linarith
  have hnotional : 0 ≤ (execution costs price .sell quantity).notional := by
    simp only [execution]
    positivity
  have hcharge : (execution costs price .sell quantity).charge =
      (execution costs price .sell quantity).notional *
        ((costs.sellFeeBps + costs.sellTaxBps) / 10000) := by
    simp only [execution]
    ring
  rw [hcharge]
  apply mul_le_of_le_one_right hnotional
  linarith

/-- Profit and its parts appear together. -/
def CycleResult.Consistent (result : CycleResult D) : Prop :=
  (result.grossPnlVnd = none ∧ result.tradingCostVnd = none ∧ result.netPnlVnd = none) ∨
    ∃ gross cost, result.grossPnlVnd = some gross ∧ result.tradingCostVnd = some cost ∧
      result.netPnlVnd = some (gross - cost)

/-- A result without executions on both sides carries no profit. -/
theorem ArbitratedCycleProposal.result_unpriced {proposal : ArbitratedCycleProposal D}
    {status : CycleStatus} (h : status ≠ .closed) (reason : Option String)
    (entry : Option SimulatedExecution) :
    ∃ result, proposal.result status reason entry none = .ok result ∧
      result.cycleId = proposal.cycleId ∧ result.reason = reason ∧
      result.netPnlVnd = none ∧ result.Consistent := by
  cases status with
  | closed => exact absurd rfl h
  | rejected => exact ⟨_, rfl, rfl, rfl, rfl, .inl ⟨rfl, rfl, rfl⟩⟩
  | «open» => exact ⟨_, rfl, rfl, rfl, rfl, .inl ⟨rfl, rfl, rfl⟩⟩

/-- A closed result carries the profit of its two executions. -/
theorem ArbitratedCycleProposal.result_closed (proposal : ArbitratedCycleProposal D)
    (entry exit : SimulatedExecution) :
    ∃ result, proposal.result .closed none (some entry) (some exit) = .ok result ∧
      result.cycleId = proposal.cycleId ∧ result.reason = none ∧
      result.netPnlVnd =
        some (exit.notional - entry.notional - (entry.charge + exit.charge)) ∧
      result.Consistent :=
  ⟨_, rfl, rfl, rfl, rfl, .inr ⟨_, _, rfl, rfl, rfl⟩⟩

/-! ## Sums over cycles and results -/

/-- What a recorded result realised. -/
def closedNet (result : Option (CycleResult D)) : Rat :=
  (result.bind (·.netPnlVnd)).getD 0

/-- Entry notional and charge of an open cycle. -/
def OpenCycle.cost (cycle : OpenCycle D) : Rat := cycle.entry.notional + cycle.entry.charge

/-- Entry notional and charge of the open cycles. -/
def openCost (cycles : List (OpenCycle D)) : Rat := (cycles.map OpenCycle.cost).sum

/-- Quantity bought by the open cycles of a symbol. -/
def openQuantity (symbol : String) (cycles : List (OpenCycle D)) : Nat :=
  ((cycles.filter (·.symbol == symbol)).map (·.proposal.quantity)).sum

namespace SimulationRequest

variable (request : SimulationRequest D)

/-- What the recorded results realised. -/
def closedTotal (results : D → Option (CycleResult D)) : Rat :=
  (request.proposals.map fun item => closedNet (results item.cycleId)).sum

variable {request}

/-- Recording a proposal's first result adds what it realised. -/
theorem closedTotal_update {results : D → Option (CycleResult D)}
    {proposal : ArbitratedCycleProposal D} {result : CycleResult D}
    (hmem : proposal ∈ request.proposals) (hnone : results proposal.cycleId = none)
    (hid : result.cycleId = proposal.cycleId) :
    request.closedTotal (Function.update results result.cycleId (some result)) =
      request.closedTotal results + closedNet (some result) := by
  have hexchange := sum_map_exchange ArbitratedCycleProposal.cycleId
    (f := fun item => closedNet (Function.update results result.cycleId (some result)
      item.cycleId))
    (g := fun item => closedNet (results item.cycleId)) request.cycleIds_nodup hmem
    (by
      intro item _ hne
      rw [hid, Function.update_of_ne hne])
  have hold : closedNet (results proposal.cycleId) = 0 := by rw [hnone]; rfl
  have hnew : Function.update results result.cycleId (some result) proposal.cycleId =
      some result := by rw [hid, Function.update_self]
  simp only [hold, hnew, add_zero] at hexchange
  exact hexchange

end SimulationRequest

/-! ## The accounting invariant -/

/-- Nothing of an account's position is lost: what is settled stays above the
core even if the symbol's open cycle sells. -/
structure Holds (cycles : List (OpenCycle D)) (item : AccountPosition)
    (position : SimulatedPosition) : Prop where
  core : item.coreMinQty ≤ position.settled
  t1 : position.t1 = item.t1Qty
  t2 : position.t2 = item.t2Qty
  bought : 0 ≤ position.boughtToday
  total : position.total = item.totalQty + openQuantity item.symbol cycles
  covered : ∀ cycle ∈ cycles, cycle.symbol = item.symbol →
    item.coreMinQty ≤ position.settled - cycle.proposal.quantity

/-- The accounting invariant of a simulation state. -/
structure Accounted (request : SimulationRequest D) (state : SimulationState D) : Prop where
  unique : (state.openBySymbol.map OpenCycle.symbol).Nodup
  holding : ∀ symbol item, request.initial symbol = some item →
    ∃ position, state.positions symbol = some position ∧
      Holds state.openBySymbol item position
  started : state.started ≤ request.risk.maxCyclesPerDay
  principal : 0 ≤ state.advancePrincipal
  interest : 0 ≤ state.advanceInterest
  advanced : state.advancePrincipal + state.advanceInterest ≤ state.pendingSales
  reserve : min request.account.cashVnd request.risk.cashReserveVnd ≤ state.cash
  money : state.cash + state.pendingSales - state.advancePrincipal =
    request.account.cashVnd + request.closedTotal state.results -
      openCost state.openBySymbol
  realized : state.realizedNet =
    request.closedTotal state.results - state.advanceInterest

theorem SimulationRequest.initial_symbol {request : SimulationRequest D} {symbol : String}
    {item : AccountPosition} (h : request.initial symbol = some item) :
    item.symbol = symbol ∧ item ∈ request.account.positions :=
  ⟨by simpa using List.find?_some h, List.mem_of_find?_eq_some h⟩

/-- The account's own state is accounted. -/
theorem Accounted.start (request : SimulationRequest D) : Accounted request request.start := by
  have htotal : request.closedTotal (fun _ => none) = 0 := by
    simp [SimulationRequest.closedTotal, closedNet]
  constructor
  case unique => exact List.nodup_nil
  case holding =>
    intro symbol item hitem
    refine ⟨⟨item.settledQty, item.t1Qty, item.t2Qty, 0⟩, ?_, ?_⟩
    · simp [SimulationRequest.start, hitem]
    · have hcore := item.core_settled
      constructor
      case core => exact Int.ofNat_le.mpr hcore
      case t1 => rfl
      case t2 => rfl
      case bought => exact le_refl _
      case total =>
        simp [SimulatedPosition.total, openQuantity, AccountPosition.totalQty,
          SimulationRequest.start]
      case covered => simp [SimulationRequest.start]
  case started => exact Nat.zero_le _
  case principal => exact le_refl _
  case interest => exact le_refl _
  case advanced => simp [SimulationRequest.start]
  case reserve => exact min_le_left _ _
  case money => simp [SimulationRequest.start, htotal, openCost]
  case realized => simp [SimulationRequest.start, htotal]

/-- A first result without profit changes no account. -/
theorem Accounted.record {request : SimulationRequest D} {state : SimulationState D}
    {proposal : ArbitratedCycleProposal D} {result : CycleResult D}
    (h : Accounted request state) (hmem : proposal ∈ request.proposals)
    (hnone : state.results proposal.cycleId = none)
    (hid : result.cycleId = proposal.cycleId) (hnet : result.netPnlVnd = none) :
    Accounted request (SimulationRequest.record state result) := by
  have hsame : request.closedTotal (SimulationRequest.record state result).results =
      request.closedTotal state.results := by
    rw [SimulationRequest.record, SimulationRequest.closedTotal_update hmem hnone hid]
    simp [closedNet, hnet]
  constructor
  case unique => exact h.unique
  case holding => exact h.holding
  case started => exact h.started
  case principal => exact h.principal
  case interest => exact h.interest
  case advanced => exact h.advanced
  case reserve => exact h.reserve
  case money => rw [hsame]; exact h.money
  case realized => rw [hsame]; exact h.realized

/-! ## Entries -/

/-- A permitted draw funds the purchase above the reserve, within pending sales. -/
theorem SimulationRequest.fundBuy_some {request : SimulationRequest D}
    {state : SimulationState D} {spend draw interest : Rat}
    (h : request.fundBuy state spend = some (draw, interest))
    (hadvanced : state.advancePrincipal + state.advanceInterest ≤ state.pendingSales) :
    0 ≤ draw ∧ 0 ≤ interest ∧
      request.risk.cashReserveVnd ≤ state.cash + draw - spend ∧
      state.advancePrincipal + draw + (state.advanceInterest + interest) ≤
        state.pendingSales := by
  have hdraw : 0 ≤ max (spend + request.risk.cashReserveVnd - state.cash) 0 := le_max_right _ _
  have hfunds := le_max_left (spend + request.risk.cashReserveVnd - state.cash) 0
  simp only [SimulationRequest.fundBuy] at h
  split at h
  · next hzero =>
      obtain ⟨rfl, rfl⟩ := Prod.mk.inj (Option.some.inj h)
      rw [hzero] at hfunds
      exact ⟨le_refl _, le_refl _, by linarith, by linarith⟩
  · split at h
    · cases h
    · next policy hpolicy =>
        split at h
        · cases h
        · next hpermitted =>
            obtain ⟨rfl, rfl⟩ := Prod.mk.inj (Option.some.inj h)
            have hrate := policy.interest_bounds.1
            have hsettles := request.settles_later policy hpolicy
            have hdays : (0 : Rat) ≤ ((policy.settlementDate - request.tradeDate : Int) : Rat) := by
              exact Int.cast_nonneg (Int.sub_nonneg_of_le hsettles.le)
            refine ⟨hdraw, by positivity, by linarith, ?_⟩
            have hwithin := not_lt.mp hpermitted
            linarith

/-- **A funded entry** keeps the accounts and leaves the reserve in cash. -/
theorem Accounted.bought {request : SimulationRequest D} {state : SimulationState D}
    {proposal : ArbitratedCycleProposal D} {item : AccountPosition}
    {position : SimulatedPosition} {entry : SimulatedExecution} {draw interest : Rat}
    (h : Accounted request state) (hitem : request.initial proposal.symbol = some item)
    (hposition : state.positions proposal.symbol = some position)
    (hreason : request.entryReason state proposal item position = none)
    (hfunded : request.fundBuy state (entry.notional + entry.charge) =
      some (draw, interest)) :
    Accounted request
        (SimulationRequest.bought state proposal position entry draw interest) ∧
      (SimulationRequest.bought state proposal position entry draw interest).openBySymbol =
        state.openBySymbol ++ [⟨proposal, entry⟩] ∧
      -request.risk.maxDailyLossVnd < state.realizedNet ∧
      request.risk.cashReserveVnd ≤
        (SimulationRequest.bought state proposal position entry draw interest).cash := by
  simp only [SimulationRequest.entryReason] at hreason
  split at hreason
  · cases hreason
  next hbusy =>
  split at hreason
  · cases hreason
  split at hreason
  · cases hreason
  split at hreason
  · cases hreason
  split at hreason
  · cases hreason
  next hlimit =>
  split at hreason
  · cases hreason
  next hloss =>
  split at hreason
  · cases hreason
  next hsettled =>
  obtain ⟨hdraw, hinterest, hcash, hwithin⟩ :=
    SimulationRequest.fundBuy_some hfunded h.advanced
  have hfree : ∀ cycle ∈ state.openBySymbol, cycle.symbol ≠ proposal.symbol := by
    simpa using hbusy
  have hkept : without OpenCycle.symbol proposal.symbol state.openBySymbol =
      state.openBySymbol := by
    refine List.filter_eq_self.mpr fun cycle hcycle => ?_
    simpa using hfree cycle hcycle
  obtain ⟨hsymbol, -⟩ := SimulationRequest.initial_symbol hitem
  refine ⟨?_, by rw [SimulationRequest.bought, hkept], not_le.mp hloss, hcash⟩
  constructor
  case unique =>
    rw [SimulationRequest.bought, hkept, List.map_append]
    refine List.Nodup.append h.unique (List.nodup_singleton _) ?_
    simp only [List.map_cons, List.map_nil, List.disjoint_singleton, List.mem_map, not_exists,
      not_and]
    intro cycle hcycle
    exact hfree cycle hcycle
  case holding =>
    intro symbol other hother
    by_cases hsame : symbol = proposal.symbol
    · subst hsame
      obtain rfl : other = item := Option.some.inj (hother.symm.trans hitem)
      obtain ⟨before, hbefore, hholds⟩ := h.holding _ _ hitem
      obtain rfl : before = position := Option.some.inj (hbefore.symm.trans hposition)
      refine ⟨{ before with boughtToday := before.boughtToday + proposal.quantity }, ?_, ?_⟩
      · simp [SimulationRequest.bought]
      have hnone : openQuantity other.symbol state.openBySymbol = 0 := by
        have hempty : state.openBySymbol.filter (·.symbol == other.symbol) = [] := by
          rw [List.filter_eq_nil_iff]
          intro cycle hcycle
          simpa [hsymbol] using hfree cycle hcycle
        simp [openQuantity, hempty]
      have hone : openQuantity other.symbol (state.openBySymbol ++ [⟨proposal, entry⟩]) =
          proposal.quantity := by
        have hmine : (OpenCycle.mk proposal entry).symbol = other.symbol := hsymbol.symm
        simp only [openQuantity, List.filter_append, List.map_append, List.sum_append] at hnone ⊢
        simp [hnone, hmine]
      have htotal := hholds.total
      have hbought := hholds.bought
      constructor
      case core => exact hholds.core
      case t1 => exact hholds.t1
      case t2 => exact hholds.t2
      case bought => exact add_nonneg hbought (Int.natCast_nonneg _)
      case total =>
        rw [SimulationRequest.bought, hkept, hone]
        simp only [SimulatedPosition.total, hnone] at htotal ⊢
        omega
      case covered =>
        intro cycle hcycle _
        rw [SimulationRequest.bought, hkept, List.mem_append, List.mem_singleton] at hcycle
        rcases hcycle with hold | rfl
        · exact absurd (by rw [‹cycle.symbol = other.symbol›, hsymbol]) (hfree cycle hold)
        · exact not_lt.mp hsettled
    · obtain ⟨before, hbefore, hholds⟩ := h.holding symbol other hother
      obtain ⟨hotherSymbol, -⟩ := SimulationRequest.initial_symbol hother
      have hnot : (OpenCycle.mk proposal entry).symbol ≠ other.symbol := by
        rw [hotherSymbol]
        exact fun heq => hsame heq.symm
      refine ⟨before, by simp [SimulationRequest.bought, Function.update_of_ne hsame, hbefore],
        ?_⟩
      constructor
      case core => exact hholds.core
      case t1 => exact hholds.t1
      case t2 => exact hholds.t2
      case bought => exact hholds.bought
      case total =>
        have hquantity : openQuantity other.symbol
            (state.openBySymbol ++ [⟨proposal, entry⟩]) =
              openQuantity other.symbol state.openBySymbol := by
          simp [openQuantity, hnot]
        rw [SimulationRequest.bought, hkept, hquantity]
        exact hholds.total
      case covered =>
        intro cycle hcycle hcycleSymbol
        rw [SimulationRequest.bought, hkept, List.mem_append, List.mem_singleton] at hcycle
        rcases hcycle with hold | rfl
        · exact hholds.covered cycle hold hcycleSymbol
        · exact absurd hcycleSymbol hnot
  case started => exact not_le.mp hlimit
  case principal => exact add_nonneg h.principal hdraw
  case interest => exact add_nonneg h.interest hinterest
  case advanced => exact hwithin
  case reserve => exact (min_le_right _ _).trans hcash
  case money =>
    have hmoney := h.money
    have hcost : openCost (state.openBySymbol ++ [⟨proposal, entry⟩]) =
        openCost state.openBySymbol + (entry.notional + entry.charge) := by
      simp [openCost, OpenCycle.cost]
    simp only [SimulationRequest.bought, hkept, hcost]
    linarith
  case realized =>
    have hrealized := h.realized
    simp only [SimulationRequest.bought]
    linarith

/-! ## Exits -/

/-- **A sale** keeps the accounts. -/
theorem Accounted.sold {request : SimulationRequest D} {state : SimulationState D}
    {proposal : ArbitratedCycleProposal D} {opened : OpenCycle D} {item : AccountPosition}
    {position : SimulatedPosition} {exit : SimulatedExecution} {result : CycleResult D}
    {net : Rat} (h : Accounted request state) (hmem : proposal ∈ request.proposals)
    (hopened : opened ∈ state.openBySymbol) (hproposal : opened.proposal = proposal)
    (hnone : state.results proposal.cycleId = none)
    (hitem : request.initial proposal.symbol = some item)
    (hposition : state.positions proposal.symbol = some position)
    (hproceeds : exit.charge ≤ exit.notional) (hid : result.cycleId = proposal.cycleId)
    (hnet : result.netPnlVnd = some net)
    (hprofit : net = exit.notional - opened.entry.notional -
      (opened.entry.charge + exit.charge)) :
    Accounted request
      (SimulationRequest.sold state proposal position exit result net) := by
  obtain ⟨hsymbol, -⟩ := SimulationRequest.initial_symbol hitem
  have hmine : opened.symbol = proposal.symbol := by rw [OpenCycle.symbol, hproposal]
  have hperm : state.openBySymbol.Perm
      (opened :: without OpenCycle.symbol proposal.symbol state.openBySymbol) := by
    rw [← hmine]
    exact perm_cons_without OpenCycle.symbol h.unique hopened
  have htotal : request.closedTotal (Function.update state.results result.cycleId
      (some result)) = request.closedTotal state.results + net := by
    rw [SimulationRequest.closedTotal_update hmem hnone hid]
    simp [closedNet, hnet]
  have hcost : openCost state.openBySymbol = opened.entry.notional + opened.entry.charge +
      openCost (without OpenCycle.symbol proposal.symbol state.openBySymbol) := by
    rw [openCost, (hperm.map OpenCycle.cost).sum_eq]
    simp [openCost, OpenCycle.cost]
  have hquantity : ∀ symbol, openQuantity symbol state.openBySymbol =
      (if opened.symbol = symbol then opened.proposal.quantity else 0) +
        openQuantity symbol
          (without OpenCycle.symbol proposal.symbol state.openBySymbol) := by
    intro symbol
    rw [openQuantity, ((hperm.filter _).map _).sum_eq]
    by_cases hsame : opened.symbol = symbol <;> simp [openQuantity, hsame]
  constructor
  case unique => exact h.unique.sublist (List.filter_sublist.map _)
  case holding =>
    intro symbol other hother
    by_cases hsame : symbol = proposal.symbol
    · subst hsame
      obtain rfl : other = item := Option.some.inj (hother.symm.trans hitem)
      obtain ⟨before, hbefore, hholds⟩ := h.holding _ _ hitem
      obtain rfl : before = position := Option.some.inj (hbefore.symm.trans hposition)
      refine ⟨{ before with settled := before.settled - proposal.quantity }, ?_, ?_⟩
      · simp [SimulationRequest.sold]
      have hcovered := hholds.covered opened hopened (hmine.trans hsymbol.symm)
      have hleft := hquantity other.symbol
      have htotal := hholds.total
      rw [if_pos (hmine.trans hsymbol.symm)] at hleft
      rw [hproposal] at hcovered hleft
      constructor
      case core => exact hcovered
      case t1 => exact hholds.t1
      case t2 => exact hholds.t2
      case bought => exact hholds.bought
      case total =>
        simp only [SimulatedPosition.total, SimulationRequest.sold] at htotal ⊢
        omega
      case covered =>
        intro cycle hcycle hcycleSymbol
        have hne := (mem_without.mp hcycle).2
        exact absurd (hcycleSymbol.trans hsymbol) hne
    · obtain ⟨before, hbefore, hholds⟩ := h.holding symbol other hother
      obtain ⟨hotherSymbol, -⟩ := SimulationRequest.initial_symbol hother
      have hnot : opened.symbol ≠ other.symbol := by
        rw [hmine, hotherSymbol]
        exact fun heq => hsame heq.symm
      refine ⟨before, by simp [SimulationRequest.sold, Function.update_of_ne hsame, hbefore],
        ?_⟩
      constructor
      case core => exact hholds.core
      case t1 => exact hholds.t1
      case t2 => exact hholds.t2
      case bought => exact hholds.bought
      case total =>
        have hleft := hquantity other.symbol
        rw [if_neg hnot, Nat.zero_add] at hleft
        rw [SimulationRequest.sold, ← hleft]
        exact hholds.total
      case covered =>
        intro cycle hcycle hcycleSymbol
        exact hholds.covered cycle (mem_without.mp hcycle).1 hcycleSymbol
  case started => exact h.started
  case principal => exact h.principal
  case interest => exact h.interest
  case advanced =>
    have hadvanced := h.advanced
    simp only [SimulationRequest.sold]
    linarith
  case reserve => exact h.reserve
  case money =>
    have hmoney := h.money
    simp only [SimulationRequest.sold, htotal]
    linarith
  case realized =>
    have hrealized := h.realized
    simp only [SimulationRequest.sold, htotal]
    linarith

/-! ## Progress of the proposals -/

/-- How far the proposals have come after the events `done`. -/
structure Progress (request : SimulationRequest D) (done : List (SimulationEvent D))
    (state : SimulationState D) : Prop where
  fresh : ∀ item ∈ request.proposals, ⟨true, item⟩ ∉ done →
    state.results item.cycleId = none
  opened : ∀ cycle ∈ state.openBySymbol, cycle.proposal ∈ request.proposals ∧
    ⟨true, cycle.proposal⟩ ∈ done ∧
    (⟨false, cycle.proposal⟩ ∉ done → state.results cycle.proposal.cycleId = none)
  decided : ∀ item ∈ request.proposals, ⟨true, item⟩ ∈ done →
    (∃ cycle ∈ state.openBySymbol, cycle.proposal = item) ∨
      (state.results item.cycleId).isSome
  finished : ∀ item ∈ request.proposals, ⟨false, item⟩ ∈ done →
    (state.results item.cycleId).isSome
  recorded : ∀ key result, state.results key = some result → result.cycleId = key ∧
    result.reason ≠ some "EXIT_SETTLED_SHORTFALL" ∧ result.Consistent

theorem Progress.start (request : SimulationRequest D) :
    Progress request [] request.start where
  fresh := fun _ _ _ => rfl
  opened := by simp [SimulationRequest.start]
  decided := by simp
  finished := by simp
  recorded := by simp [SimulationRequest.start]

/-- Two proposals of one cycle are one proposal. -/
theorem SimulationRequest.same_cycle {request : SimulationRequest D}
    {first second : ArbitratedCycleProposal D} (hfirst : first ∈ request.proposals)
    (hsecond : second ∈ request.proposals) (h : first.cycleId = second.cycleId) :
    first = second :=
  eq_of_key_eq ArbitratedCycleProposal.cycleId request.cycleIds_nodup hfirst hsecond h

/-- One event decides or finishes its own proposal and no other. -/
theorem Progress.record {request : SimulationRequest D} {done : List (SimulationEvent D)}
    {state : SimulationState D} {event : SimulationEvent D} {result : CycleResult D}
    {cycles : List (OpenCycle D)} (h : Progress request done state)
    (hmem : event.proposal ∈ request.proposals)
    (hentered : event.isEntry = false → ⟨true, event.proposal⟩ ∈ done)
    (hid : result.cycleId = event.proposal.cycleId)
    (hreason : result.reason ≠ some "EXIT_SETTLED_SHORTFALL")
    (hconsistent : result.Consistent)
    (hcycles : ∀ cycle ∈ cycles, cycle ∈ state.openBySymbol)
    (hmine : ∀ cycle ∈ cycles, cycle.proposal = event.proposal → event.isEntry = false)
    (hothers : ∀ cycle ∈ state.openBySymbol, cycle.proposal ≠ event.proposal →
      cycle ∈ cycles)
    {state' : SimulationState D} (hopen : state'.openBySymbol = cycles)
    (hresults : state'.results =
      Function.update state.results result.cycleId (some result)) :
    Progress request (done ++ [event]) state' := by
  have hkept : ∀ item ∈ request.proposals, item ≠ event.proposal →
      state'.results item.cycleId = state.results item.cycleId := by
    intro item hitem hne
    have hkey : item.cycleId ≠ result.cycleId := by
      intro heq
      exact hne (request.same_cycle hitem hmem (heq.trans hid))
    rw [hresults, Function.update_of_ne hkey]
  have hset : state'.results event.proposal.cycleId = some result := by
    rw [hresults, hid, Function.update_self]
  constructor
  case fresh =>
    intro item hitem hnot
    rw [List.mem_append, not_or] at hnot
    have hne : item ≠ event.proposal := by
      rintro rfl
      cases hentry : event.isEntry with
      | true => exact hnot.2 (by simp [← hentry])
      | false => exact hnot.1 (hentered hentry)
    rw [hkept item hitem hne]
    exact h.fresh item hitem hnot.1
  case opened =>
    intro cycle hcycle
    rw [hopen] at hcycle
    obtain ⟨hknown, hdone, hnone⟩ := h.opened cycle (hcycles cycle hcycle)
    refine ⟨hknown, List.mem_append_left _ hdone, ?_⟩
    intro hnot
    rw [List.mem_append, not_or] at hnot
    have hne : cycle.proposal ≠ event.proposal := by
      intro heq
      have hexit := hmine cycle hcycle heq
      exact hnot.2 (by simp [heq, ← hexit])
    rw [hkept _ hknown hne]
    exact hnone hnot.1
  case decided =>
    intro item hitem hdone
    by_cases hne : item = event.proposal
    · subst hne
      exact .inr (by simp [hset])
    rw [List.mem_append, List.mem_singleton] at hdone
    rcases hdone with hold | hnew
    · rw [hkept item hitem hne, hopen]
      rcases h.decided item hitem hold with ⟨cycle, hcycle, rfl⟩ | hsome
      · exact .inl ⟨cycle, hothers cycle hcycle hne, rfl⟩
      · exact .inr hsome
    · exact absurd (by rw [← hnew]) hne
  case finished =>
    intro item hitem hdone
    by_cases hne : item = event.proposal
    · subst hne
      simp [hset]
    rw [List.mem_append, List.mem_singleton] at hdone
    rcases hdone with hold | hnew
    · rw [hkept item hitem hne]
      exact h.finished item hitem hold
    · exact absurd (by rw [← hnew]) hne
  case recorded =>
    intro key other hother
    rw [hresults] at hother
    by_cases hkey : key = result.cycleId
    · rw [hkey, Function.update_self] at hother
      obtain rfl := Option.some.inj hother
      exact ⟨hkey.symm, hreason, hconsistent⟩
    · rw [Function.update_of_ne hkey] at hother
      exact h.recorded key other hother

/-- An entry that opens a cycle. -/
theorem Progress.bought {request : SimulationRequest D} {done : List (SimulationEvent D)}
    {state state' : SimulationState D} {proposal : ArbitratedCycleProposal D}
    {entry : SimulatedExecution} (h : Progress request done state)
    (hmem : proposal ∈ request.proposals) (hfresh : ⟨true, proposal⟩ ∉ done)
    (hopen : state'.openBySymbol = state.openBySymbol ++ [⟨proposal, entry⟩])
    (hresults : state'.results = state.results) :
    Progress request (done ++ [⟨true, proposal⟩]) state' := by
  have hnone := h.fresh proposal hmem hfresh
  constructor
  case fresh =>
    intro item hitem hnot
    rw [hresults]
    exact h.fresh item hitem fun hdone => hnot (List.mem_append_left _ hdone)
  case opened =>
    intro cycle hcycle
    rw [hopen, List.mem_append, List.mem_singleton] at hcycle
    rw [hresults]
    rcases hcycle with hold | rfl
    · obtain ⟨hknown, hdone, hopened⟩ := h.opened cycle hold
      exact ⟨hknown, List.mem_append_left _ hdone,
        fun hnot => hopened fun hexit => hnot (List.mem_append_left _ hexit)⟩
    · exact ⟨hmem, by simp, fun _ => hnone⟩
  case decided =>
    intro item hitem hdone
    rw [hopen, hresults]
    rw [List.mem_append, List.mem_singleton] at hdone
    rcases hdone with hold | hnew
    · rcases h.decided item hitem hold with ⟨cycle, hcycle, rfl⟩ | hsome
      · exact .inl ⟨cycle, List.mem_append_left _ hcycle, rfl⟩
      · exact .inr hsome
    · obtain rfl : item = proposal := by
        have heq := congrArg SimulationEvent.proposal hnew
        exact heq
      exact .inl ⟨⟨item, entry⟩, by simp, rfl⟩
  case finished =>
    intro item hitem hdone
    rw [hresults]
    rw [List.mem_append, List.mem_singleton] at hdone
    rcases hdone with hold | hnew
    · exact h.finished item hitem hold
    · have heq := congrArg SimulationEvent.isEntry hnew
      cases heq
  case recorded =>
    rw [hresults]
    exact h.recorded

/-- An exit whose cycle is not open any more. -/
theorem Progress.kept {request : SimulationRequest D} {done : List (SimulationEvent D)}
    {state : SimulationState D} {proposal : ArbitratedCycleProposal D}
    (h : Progress request done state)
    (hmem : proposal ∈ request.proposals) (hentered : ⟨true, proposal⟩ ∈ done)
    (hclosed : ∀ cycle ∈ state.openBySymbol, cycle.proposal ≠ proposal) :
    Progress request (done ++ [⟨false, proposal⟩]) state := by
  constructor
  case fresh =>
    intro item hitem hnot
    exact h.fresh item hitem fun hdone => hnot (List.mem_append_left _ hdone)
  case opened =>
    intro cycle hcycle
    obtain ⟨hknown, hdone, hnone⟩ := h.opened cycle hcycle
    exact ⟨hknown, List.mem_append_left _ hdone,
      fun hnot => hnone fun hexit => hnot (List.mem_append_left _ hexit)⟩
  case decided =>
    intro item hitem hdone
    rw [List.mem_append, List.mem_singleton] at hdone
    rcases hdone with hold | hnew
    · exact h.decided item hitem hold
    · have heq := congrArg SimulationEvent.isEntry hnew
      cases heq
  case finished =>
    intro item hitem hdone
    rw [List.mem_append, List.mem_singleton] at hdone
    rcases hdone with hold | hnew
    · exact h.finished item hitem hold
    · obtain rfl : item = proposal := congrArg SimulationEvent.proposal hnew
      rcases h.decided item hitem hentered with ⟨cycle, hcycle, heq⟩ | hsome
      · exact absurd heq (hclosed cycle hcycle)
      · exact hsome
  case recorded => exact h.recorded

/-! ## The events of a day -/

namespace SimulationRequest

variable {request : SimulationRequest D}

theorem mem_events {event : SimulationEvent D} :
    event ∈ request.events ↔ event.proposal ∈ request.proposals := by
  simp only [events, mem_sortOn, List.mem_flatMap, eventsOf, List.mem_cons, List.not_mem_nil,
    or_false]
  constructor
  · rintro ⟨item, hitem, rfl | rfl⟩
    · exact hitem
    · exact hitem
  · intro hmem
    refine ⟨event.proposal, hmem, ?_⟩
    obtain ⟨isEntry, item⟩ := event
    cases isEntry <;> simp

/-- Every event of a day happens once. -/
theorem events_nodup (request : SimulationRequest D) : request.events.Nodup := by
  have hflat : (request.proposals.flatMap eventsOf).Nodup := by
    rw [List.nodup_flatMap]
    constructor
    · intro item _
      simp [eventsOf]
    · have hunique := List.Nodup.of_map _ request.cycleIds_nodup
      refine hunique.imp ?_
      intro first second hne
      simp only [Function.onFun, eventsOf, List.disjoint_cons_left, List.disjoint_nil_left,
        List.mem_cons, SimulationEvent.mk.injEq, List.not_mem_nil, or_false, and_true]
      simp [hne]
  exact (sortOn_perm _ _).nodup_iff.mpr hflat

/-- What comes before an event is not later than it. -/
theorem events_ordered {done rest : List (SimulationEvent D)} {event : SimulationEvent D}
    (h : request.events = done ++ event :: rest) :
    ∀ later ∈ rest, event.key ≤ later.key := by
  have hsorted := sortOn_pairwise (SimulationEvent.key (D := D))
    (request.proposals.flatMap eventsOf)
  rw [← events, h] at hsorted
  exact (List.pairwise_cons.mp (List.pairwise_append.mp hsorted).2.1).1

/-- An exit comes after its own entry. -/
theorem entered_before {done rest : List (SimulationEvent D)}
    {proposal : ArbitratedCycleProposal D}
    (h : request.events = done ++ ⟨false, proposal⟩ :: rest) : ⟨true, proposal⟩ ∈ done := by
  have hmem : (⟨true, proposal⟩ : SimulationEvent D) ∈ request.events := by
    have hexit : (⟨false, proposal⟩ : SimulationEvent D) ∈ request.events := by simp [h]
    have hknown : proposal ∈ request.proposals := mem_events.mp hexit
    exact mem_events.mpr hknown
  rw [h, List.mem_append, List.mem_cons] at hmem
  rcases hmem with hdone | hsame | hlater
  · exact hdone
  · cases congrArg SimulationEvent.isEntry hsame
  · have hordered := events_ordered h _ hlater
    have hbefore : proposal.entryAt < proposal.horizonAt :=
      proposal.outcome.entry_before_horizon
    rcases Prod.Lex.le_iff.mp hordered with hlt | ⟨heq, -⟩
    · exact absurd hlt (not_lt.mpr hbefore.le)
    · exact absurd heq hbefore.ne'

end SimulationRequest

/-- What an event that starts a cycle was allowed by, and what it leaves. -/
def StartsSafely (request : SimulationRequest D) (before after : SimulationState D) : Prop :=
  after.started ≠ before.started →
    -request.risk.maxDailyLossVnd < before.realizedNet ∧
      before.started < request.risk.maxCyclesPerDay ∧
      request.risk.cashReserveVnd ≤ after.cash

/-- The account holds a position in every symbol that a proposal trades. -/
theorem SimulationRequest.initial_known {request : SimulationRequest D}
    {proposal : ArbitratedCycleProposal D} (hmem : proposal ∈ request.proposals) :
    ∃ item, request.initial proposal.symbol = some item := by
  have hsymbol := request.proposal_known proposal hmem
  simp only [SimulationRequestFields.symbols, List.mem_map] at hsymbol
  obtain ⟨item, hitem, hname⟩ := hsymbol
  have hsome : (request.initial proposal.symbol).isSome := by
    rw [SimulationRequest.initial, List.find?_isSome]
    exact ⟨item, hitem, by simp [hname]⟩
  exact Option.isSome_iff_exists.mp hsome

/-- **An entry event** never raises, keeps the accounts and starts safely. -/
theorem Accounted.enter {request : SimulationRequest D} {done rest : List (SimulationEvent D)}
    {state : SimulationState D} {proposal : ArbitratedCycleProposal D}
    (h : Accounted request state) (hprogress : Progress request done state)
    (hevents : request.events = done ++ ⟨true, proposal⟩ :: rest) :
    ∃ state', request.enter state proposal = .ok state' ∧ Accounted request state' ∧
      Progress request (done ++ [⟨true, proposal⟩]) state' ∧
      StartsSafely request state state' := by
  have hmem : proposal ∈ request.proposals :=
    SimulationRequest.mem_events.mp (by simp [hevents] : (⟨true, proposal⟩ : SimulationEvent D) ∈
      request.events)
  have hfresh : (⟨true, proposal⟩ : SimulationEvent D) ∉ done := by
    intro hdone
    have hunique := request.events_nodup
    rw [hevents, List.nodup_append] at hunique
    exact hunique.2.2 _ hdone _ (by simp) rfl
  have hnone := hprogress.fresh proposal hmem hfresh
  have hclosed : ∀ cycle ∈ state.openBySymbol, cycle.proposal ≠ proposal := by
    rintro cycle hcycle rfl
    exact hfresh (hprogress.opened cycle hcycle).2.1
  have hreject : ∀ reason, reason ≠ "EXIT_SETTLED_SHORTFALL" → ∃ state',
      SimulationRequest.reject state proposal reason = .ok state' ∧ Accounted request state' ∧
        Progress request (done ++ [⟨true, proposal⟩]) state' ∧
        StartsSafely request state state' := by
    intro reason hreason
    obtain ⟨result, hresult, hid, hreasonEq, hnet, hconsistent⟩ :=
      proposal.result_unpriced (show CycleStatus.rejected ≠ .closed by decide) (some reason) none
    refine ⟨_, by rw [SimulationRequest.reject, hresult]; rfl, h.record hmem hnone hid hnet, ?_,
      fun hstarted => absurd rfl hstarted⟩
    refine hprogress.record hmem ?_ hid ?_ hconsistent (fun _ hcycle => hcycle) ?_
      (fun _ hcycle _ => hcycle) rfl rfl
    · intro hentry
      cases hentry
    · rw [hreasonEq]
      simpa using hreason
    · intro cycle hcycle heq
      exact absurd heq (hclosed cycle hcycle)
  obtain ⟨item, hitem⟩ := SimulationRequest.initial_known hmem
  obtain ⟨position, hposition, -⟩ := h.holding _ _ hitem
  simp only [SimulationRequest.enter, hitem, hposition]
  cases hreason : request.entryReason state proposal item position with
  | some reason =>
      apply hreject
      rintro rfl
      simp only [SimulationRequest.entryReason] at hreason
      repeat' split at hreason
      all_goals simp at hreason
  | none =>
      cases hvwap : proposal.outcome.entryVwap with
      | none =>
          simp only [SimulationRequest.entryReason, hvwap, Option.isNone_none, if_true]
            at hreason
          split at hreason <;> cases hreason
      | some price =>
          simp only
          split
          · exact hreject _ (by decide)
          · cases hfunded : request.fundBuy state
                ((execution request.costs price .buy proposal.quantity).notional +
                  (execution request.costs price .buy proposal.quantity).charge) with
            | none => exact hreject _ (by decide)
            | some funding =>
                obtain ⟨draw, interest⟩ := funding
                obtain ⟨haccounted, hopen, hloss, hreserve⟩ :=
                  h.bought hitem hposition hreason hfunded
                refine ⟨_, rfl, haccounted, hprogress.bought hmem hfresh hopen rfl, ?_⟩
                intro _
                have hlimit : state.started < request.risk.maxCyclesPerDay := haccounted.started
                exact ⟨hloss, hlimit, hreserve⟩

/-- **An exit event** never raises and keeps the accounts. -/
theorem Accounted.leave {request : SimulationRequest D} {done rest : List (SimulationEvent D)}
    {state : SimulationState D} {proposal : ArbitratedCycleProposal D}
    (h : Accounted request state) (hprogress : Progress request done state)
    (hevents : request.events = done ++ ⟨false, proposal⟩ :: rest) :
    ∃ state', request.leave state proposal = .ok state' ∧ Accounted request state' ∧
      Progress request (done ++ [⟨false, proposal⟩]) state' ∧
      state'.started = state.started := by
  have hmem : proposal ∈ request.proposals :=
    SimulationRequest.mem_events.mp (by simp [hevents] : (⟨false, proposal⟩ : SimulationEvent D) ∈
      request.events)
  have hentered := SimulationRequest.entered_before hevents
  have hpending : (⟨false, proposal⟩ : SimulationEvent D) ∉ done := by
    intro hdone
    have hunique := request.events_nodup
    rw [hevents, List.nodup_append] at hunique
    exact hunique.2.2 _ hdone _ (by simp) rfl
  simp only [SimulationRequest.leave]
  cases hfind : state.openBySymbol.find? (·.symbol == proposal.symbol) with
  | none =>
      refine ⟨state, rfl, h, hprogress.kept hmem hentered ?_, rfl⟩
      rintro cycle hcycle rfl
      have hno := List.find?_eq_none.mp hfind cycle hcycle
      simp [OpenCycle.symbol] at hno
  | some opened =>
      have hopened := List.mem_of_find?_eq_some hfind
      have hsymbol : opened.symbol = proposal.symbol := by simpa using List.find?_some hfind
      obtain ⟨hknown, -, hunrecorded⟩ := hprogress.opened opened hopened
      by_cases hsame : opened.proposal.cycleId = proposal.cycleId
      · have hproposal := request.same_cycle hknown hmem hsame
        rw [hproposal] at hunrecorded
        have hnone := hunrecorded hpending
        simp only [hsame, ne_eq, not_true_eq_false, if_false]
        cases hvwap : proposal.outcome.horizonVwap with
        | none =>
            obtain ⟨result, hresult, hid, hreason, hnet, hconsistent⟩ :=
              proposal.result_unpriced (show CycleStatus.open ≠ .closed by decide)
                (some "EXIT_BOOK_UNAVAILABLE") (some opened.entry)
            refine ⟨_, by simp only [hresult]; rfl, h.record hmem hnone hid hnet, ?_, rfl⟩
            refine hprogress.record hmem (fun _ => hentered) hid ?_ hconsistent
              (fun _ hcycle => hcycle) (fun _ _ _ => rfl) (fun _ hcycle _ => hcycle) rfl rfl
            rw [hreason]
            decide
        | some price =>
            obtain ⟨item, hitem⟩ := SimulationRequest.initial_known hmem
            obtain ⟨position, hposition, hholds⟩ := h.holding _ _ hitem
            obtain ⟨hitemSymbol, -⟩ := SimulationRequest.initial_symbol hitem
            have hcovered := hholds.covered opened hopened (hsymbol.trans hitemSymbol.symm)
            rw [hproposal] at hcovered
            obtain ⟨result, hresult, hid, hreason, hnet, hconsistent⟩ :=
              proposal.result_closed opened.entry
                (execution request.costs price .sell proposal.quantity)
            have hprice := proposal.outcome.horizonVwap_pos price hvwap
            simp only [SimulationRequest.sell, hitem, hposition, not_lt.mpr hcovered, if_false,
              hresult, ok_bind, hnet]
            refine ⟨_, rfl, h.sold hmem hopened hproposal hnone hitem hposition
              (execution_sell_proceeds request.costs hprice proposal.quantity) hid hnet rfl,
              ?_, rfl⟩
            refine hprogress.record hmem (fun _ => hentered) hid ?_ hconsistent
              (fun _ hcycle => (mem_without.mp hcycle).1) (fun _ _ _ => rfl) ?_ rfl rfl
            · rw [hreason]
              decide
            · intro cycle hcycle hne
              refine mem_without.mpr ⟨hcycle, ?_⟩
              intro heq
              apply hne
              rw [← hproposal]
              exact congrArg OpenCycle.proposal (eq_of_key_eq OpenCycle.symbol h.unique hcycle
                hopened (heq.trans hsymbol.symm))
      · simp only [hsame, ne_eq, not_false_eq_true, if_true]
        refine ⟨state, rfl, h, hprogress.kept hmem hentered ?_, rfl⟩
        rintro cycle hcycle rfl
        apply hsame
        rw [eq_of_key_eq OpenCycle.symbol h.unique hopened hcycle hsymbol]

/-! ## The whole day -/

/-- **One event** never raises, keeps the accounts and starts safely. -/
theorem Accounted.step {request : SimulationRequest D} {done rest : List (SimulationEvent D)}
    {state : SimulationState D} {event : SimulationEvent D} (h : Accounted request state)
    (hprogress : Progress request done state)
    (hevents : request.events = done ++ event :: rest) :
    ∃ state', request.step state event = .ok state' ∧ Accounted request state' ∧
      Progress request (done ++ [event]) state' ∧ StartsSafely request state state' := by
  obtain ⟨isEntry, proposal⟩ := event
  cases isEntry with
  | true => exact h.enter hprogress hevents
  | false =>
      obtain ⟨state', hstep, haccounted, hprogress', hstarted⟩ := h.leave hprogress hevents
      exact ⟨state', hstep, haccounted, hprogress', fun hne => absurd hstarted hne⟩

/-- **Every prefix of the events** runs, and its state is accounted. -/
theorem Accounted.run {request : SimulationRequest D} {done rest : List (SimulationEvent D)}
    (hevents : request.events = done ++ rest) :
    ∃ state, request.run done = .ok state ∧ Accounted request state ∧
      Progress request done state := by
  induction done using List.reverseRecOn generalizing rest with
  | nil => exact ⟨_, rfl, Accounted.start request, Progress.start request⟩
  | append_singleton done event ih =>
      rw [List.append_assoc, List.singleton_append] at hevents
      obtain ⟨state, hrun, haccounted, hprogress⟩ := ih hevents
      obtain ⟨state', hstep, haccounted', hprogress', -⟩ := haccounted.step hprogress hevents
      refine ⟨state', ?_, haccounted', hprogress'⟩
      rw [SimulationRequest.run, foldlM_snoc, bind_eq_ok]
      exact ⟨state, hrun, hstep⟩

theorem SimulationRequest.initial_eq {request : SimulationRequest D} {item : AccountPosition}
    (hitem : item ∈ request.account.positions) : request.initial item.symbol = some item :=
  (find?_key_eq_some AccountPosition.symbol request.account.symbols_nodup).mpr ⟨hitem, rfl⟩

/-- The profits of consistent results add up to what was realised. -/
theorem sum_consistent {state : SimulationState D} {items : List (ArbitratedCycleProposal D)}
    {ordered : List (CycleResult D)}
    (h : List.Forall₂ (fun item result => state.results item.cycleId = some result ∧
      result.Consistent) items ordered) :
    (ordered.filterMap (·.grossPnlVnd)).sum - (ordered.filterMap (·.tradingCostVnd)).sum =
        (items.map fun item => closedNet (state.results item.cycleId)).sum ∧
      (ordered.filterMap (·.netPnlVnd)).sum =
        (items.map fun item => closedNet (state.results item.cycleId)).sum := by
  induction h with
  | nil => simp
  | cons hhead _ ih =>
      obtain ⟨hresult, hconsistent⟩ := hhead
      rcases hconsistent with ⟨hgross, hcost, hnet⟩ | ⟨gross, cost, hgross, hcost, hnet⟩
      · simpa [hgross, hcost, hnet, hresult, closedNet] using ih
      · simp only [List.filterMap_cons, hgross, hcost, hnet, List.sum_cons, List.map_cons,
          hresult, closedNet, Option.bind_some, Option.getD_some]
        constructor
        · have hsum := ih.1
          simp only [closedNet] at hsum
          linarith
        · have hsum := ih.2
          simp only [closedNet] at hsum
          linarith

/-- Every decided proposal's result is found. -/
theorem Progress.all_decided {request : SimulationRequest D} {state : SimulationState D}
    (h : Progress request request.events state) :
    ∀ item ∈ request.proposals, ∃ result, state.results item.cycleId = some result ∧
      result.cycleId = item.cycleId ∧ result.reason ≠ some "EXIT_SETTLED_SHORTFALL" ∧
      result.Consistent := by
  intro item hitem
  have hexit : (⟨false, item⟩ : SimulationEvent D) ∈ request.events :=
    SimulationRequest.mem_events.mpr hitem
  obtain ⟨result, hresult⟩ := Option.isSome_iff_exists.mp (h.finished item hitem hexit)
  exact ⟨result, hresult, h.recorded _ _ hresult⟩

/-- A day without open cycles reconciles. -/
theorem Accounted.reconciles {request : SimulationRequest D} {state : SimulationState D}
    (h : Accounted request state) (hcomplete : state.openBySymbol = []) {gross cost : Rat}
    (hprofit : gross - cost = request.closedTotal state.results) :
    request.reconcile state gross cost = .ok () := by
  simp only [SimulationRequest.reconcile, bind_eq_ok, require_eq_ok]
  refine ⟨(), ?_, ?_⟩
  · intro item hitem
    obtain ⟨position, hposition, hholds⟩ :=
      h.holding _ _ (SimulationRequest.initial_eq hitem)
    have htotal := hholds.total
    rw [hcomplete] at htotal
    simp [SimulationRequest.inventoryRestored, hposition, htotal, openQuantity]
  · have hmoney := h.money
    rw [hcomplete] at hmoney
    simp only [openCost, List.map_nil, List.sum_nil] at hmoney
    linarith

/-- The end positions of an accounted state are representable. -/
theorem Accounted.endPositions {request : SimulationRequest D} {state : SimulationState D}
    (h : Accounted request state) : ∃ positions,
      (sortOn (fun symbol : String => symbol) request.symbols).mapM
        (SimulationRequest.endPosition state) = .ok positions := by
  apply mapM_total
  intro symbol hsymbol
  rw [mem_sortOn] at hsymbol
  simp only [SimulationRequestFields.symbols, List.mem_map] at hsymbol
  obtain ⟨item, hitem, rfl⟩ := hsymbol
  obtain ⟨position, hposition, hholds⟩ := h.holding _ _ (SimulationRequest.initial_eq hitem)
  have hcore := hholds.core
  have ht1 := hholds.t1
  have ht2 := hholds.t2
  have hbought := hholds.bought
  have hnonneg : 0 ≤ position.settled ∧ 0 ≤ position.t1 ∧ 0 ≤ position.t2 ∧
      0 ≤ position.boughtToday := by omega
  refine ⟨⟨item.symbol, position.settled, position.t1, position.t2, position.boughtToday,
    hnonneg⟩, ?_⟩
  simp [SimulationRequest.endPosition, hposition, hnonneg]

theorem SimulationRequest.holdPnl_ok (request : SimulationRequest D) :
    ∃ pnl, request.account.positions.mapM request.holdPnl = .ok pnl := by
  apply mapM_total
  intro item hitem
  obtain ⟨mark, hmark, hsymbol⟩ := request.marked item.symbol (List.mem_map_of_mem hitem)
  cases hfind : request.closingMarks.find? (·.symbol == item.symbol) with
  | none =>
      have hno := List.find?_eq_none.mp hfind mark hmark
      simp [hsymbol] at hno
  | some found =>
      refine ⟨item.totalQty * (found.price - item.startPrice), ?_⟩
      simp only [SimulationRequest.holdPnl, SimulationRequest.closingPrice, hfind, ok_bind]
      rfl

/-- **The report.**  A day is simulated to its end, and every proposal has
exactly one result in it. -/
theorem Accounted.report {request : SimulationRequest D} {state : SimulationState D}
    (h : Accounted request state) (hprogress : Progress request request.events state)
    (hrun : request.run request.events = .ok state) :
    ∃ report, request.simulateCycles = .ok report ∧
      (report.cycles.map (·.cycleId)).Perm (request.proposals.map (·.cycleId)) ∧
      (∀ result ∈ report.cycles, result.reason ≠ some "EXIT_SETTLED_SHORTFALL") ∧
      (report.cycles.filterMap (·.netPnlVnd)).sum = request.closedTotal state.results ∧
      report.endingCashVnd = state.cash ∧
      report.pendingSaleProceedsVnd = state.pendingSales ∧
      report.advancePrincipalVnd = state.advancePrincipal ∧
      report.advanceInterestVnd = state.advanceInterest := by
  have hdecided := hprogress.all_decided
  let items := sortOn (fun item : ArbitratedCycleProposal D =>
    (toLex (item.entryAt, item.priority) : Instant ×ₗ Nat)) request.proposals
  have hperm : items.Perm request.proposals := sortOn_perm _ _
  obtain ⟨ordered, hordered⟩ : ∃ ordered,
      items.mapM (SimulationRequest.resultAt state) = .ok ordered := by
    apply mapM_total
    intro item hitem
    obtain ⟨result, hresult, -⟩ := hdecided item (hperm.mem_iff.mp hitem)
    exact ⟨result, by simp [SimulationRequest.resultAt, hresult]⟩
  have hresults : List.Forall₂ (fun item result =>
      state.results item.cycleId = some result) items ordered := by
    refine (mapM_eq_ok.mp hordered).imp fun item result hresult => ?_
    cases hfound : state.results item.cycleId with
    | none => simp [SimulationRequest.resultAt, hfound] at hresult
    | some found => simpa [SimulationRequest.resultAt, hfound] using hresult
  have hknown : ∀ result ∈ ordered, ∃ key, state.results key = some result := by
    intro result hresult
    obtain ⟨item, -, hitem⟩ := exists_of_mem_forall₂ hresults hresult
    exact ⟨_, hitem⟩
  have hsums := sum_consistent (hresults.imp fun item result hfound =>
    ⟨hfound, (hprogress.recorded _ _ hfound).2.2⟩)
  have htotal : (items.map fun item => closedNet (state.results item.cycleId)).sum =
      request.closedTotal state.results := (hperm.map _).sum_eq
  rw [htotal] at hsums
  have hids : ordered.map (·.cycleId) = items.map (·.cycleId) := by
    apply map_eq_of_forall₂
    exact hresults.imp fun item result hfound => (hprogress.recorded _ _ hfound).1
  obtain ⟨pnl, hpnl⟩ := request.holdPnl_ok
  obtain ⟨positions, hpositions⟩ := h.endPositions
  obtain ⟨report, hreport, rfl, hcash, hsales, hprincipal, hinterest⟩ :
      ∃ report, request.simulateCycles = .ok report ∧ report.cycles = ordered ∧
        report.endingCashVnd = state.cash ∧
        report.pendingSaleProceedsVnd = state.pendingSales ∧
        report.advancePrincipalVnd = state.advancePrincipal ∧
        report.advanceInterestVnd = state.advanceInterest := by
    simp only [SimulationRequest.simulateCycles, hrun, ok_bind]
    rw [hordered, ok_bind, hpnl, ok_bind, hpositions]
    split
    · next hempty =>
        rw [h.reconciles (List.isEmpty_iff.mp hempty) hsums.1]
        exact ⟨_, rfl, rfl, rfl, rfl, rfl, rfl⟩
    · exact ⟨_, rfl, rfl, rfl, rfl, rfl, rfl⟩
  refine ⟨report, hreport, ?_, ?_, hsums.2, hcash, hsales, hprincipal, hinterest⟩
  · rw [hids]
    exact hperm.map _
  · intro result hresult
    obtain ⟨key, hfound⟩ := hknown result hresult
    exact (hprogress.recorded key result hfound).2.1

/-- **Simulation accounting is sound at every step.**  After every event of a
valid request's day: no symbol has two open cycles, nothing settled falls below
the core, limits on cycles, advances and cash hold, and inventory and money
reconcile with the open and the closed cycles.  An event that starts a cycle is
within the limits and leaves the reserve in cash.  The day ends in a report
with exactly one result for every proposal, none of them a settled shortfall. -/
theorem simulation_accounting (request : SimulationRequest D) :
    (∀ done rest, request.events = done ++ rest → ∃ state,
      request.run done = .ok state ∧
      (state.openBySymbol.map OpenCycle.symbol).Nodup ∧
      (∀ item ∈ request.account.positions, ∃ position,
        state.positions item.symbol = some position ∧
        item.coreMinQty ≤ position.settled ∧
        position.total = item.totalQty + openQuantity item.symbol state.openBySymbol) ∧
      state.started ≤ request.risk.maxCyclesPerDay ∧
      state.advancePrincipal + state.advanceInterest ≤ state.pendingSales ∧
      min request.account.cashVnd request.risk.cashReserveVnd ≤ state.cash ∧
      state.cash + state.pendingSales - state.advancePrincipal - state.advanceInterest -
          request.account.cashVnd =
        request.closedTotal state.results - state.advanceInterest -
          openCost state.openBySymbol ∧
      state.realizedNet = request.closedTotal state.results - state.advanceInterest) ∧
    (∀ done event rest, request.events = done ++ event :: rest → ∃ before after,
      request.run done = .ok before ∧ request.run (done ++ [event]) = .ok after ∧
      StartsSafely request before after) ∧
    ∃ state report, request.run request.events = .ok state ∧
      request.simulateCycles = .ok report ∧
      (report.cycles.map (·.cycleId)).Perm (request.proposals.map (·.cycleId)) ∧
      (∀ result ∈ report.cycles, result.reason ≠ some "EXIT_SETTLED_SHORTFALL") ∧
      report.endingCashVnd + report.pendingSaleProceedsVnd - report.advancePrincipalVnd -
          report.advanceInterestVnd - request.account.cashVnd =
        (report.cycles.filterMap (·.netPnlVnd)).sum - report.advanceInterestVnd -
          openCost state.openBySymbol := by
  refine ⟨?_, ?_, ?_⟩
  · intro done rest hevents
    obtain ⟨state, hrun, haccounted, -⟩ := Accounted.run hevents
    refine ⟨state, hrun, haccounted.unique, ?_, haccounted.started, haccounted.advanced,
      haccounted.reserve, ?_, haccounted.realized⟩
    · intro item hitem
      obtain ⟨position, hposition, hholds⟩ :=
        haccounted.holding _ _ (SimulationRequest.initial_eq hitem)
      exact ⟨position, hposition, hholds.core, hholds.total⟩
    · have hmoney := haccounted.money
      linarith
  · intro done event rest hevents
    obtain ⟨before, hrun, haccounted, hprogress⟩ := Accounted.run hevents
    obtain ⟨after, hstep, -, -, hsafe⟩ := haccounted.step hprogress hevents
    refine ⟨before, after, hrun, ?_, hsafe⟩
    rw [SimulationRequest.run, foldlM_snoc, bind_eq_ok]
    exact ⟨before, hrun, hstep⟩
  · obtain ⟨state, hrun, haccounted, hprogress⟩ :=
      Accounted.run (List.append_nil request.events).symm
    obtain ⟨report, hreport, hperm, hreasons, hnet, hcash, hpending, hprincipal, hinterest⟩ :=
      haccounted.report hprogress hrun
    refine ⟨state, report, hrun, hreport, hperm, hreasons, ?_⟩
    have hmoney := haccounted.money
    rw [hnet, hcash, hpending, hprincipal, hinterest]
    linarith

end MiniLakehouse
