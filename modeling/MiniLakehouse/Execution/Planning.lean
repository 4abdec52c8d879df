import MiniLakehouse.Execution.Engine

/-!
# Planned orders

What a READY plan of `plan_paper_order` or `plan_paper_exit` says about its
intent, and which of the planner's conditions it has passed.
-/

namespace MiniLakehouse

variable {D : Type} [Hashing D]

theorem blockReasons_eq_nil {conditions : List (PaperBlockReason × Bool)} :
    blockReasons conditions = [] ↔ ∀ condition ∈ conditions, condition.2 = false := by
  simp [blockReasons, List.filter_eq_nil_iff]

omit [Hashing D] in
theorem PaperOrderIntent.modelValidate_ok {fields : PaperOrderIntentFields D}
    {intent : PaperOrderIntent D} (h : modelValidate fields = .ok intent) :
    intent.toPaperOrderIntentFields = fields := by
  obtain ⟨_, rfl⟩ := validated_eq_ok.mp h
  rfl

/-- An entry the planner let through. -/
structure PlannedEntry (request : PaperExecutionRequest D) (policy : PaperExecutionVersion)
    (intent : PaperOrderIntent D) : Prop where
  leg : intent.leg = .entry
  action : intent.action = .buy
  symbol : intent.symbol = request.candidate.symbol
  tradeDate : intent.tradeDate = request.candidate.tradeDate
  createdAt : intent.createdAt = request.market.observedAt
  configuration : intent.executionConfigurationSha256 = policy.sha256
  arbitration : intent.arbitrationSha256 = request.arbitration.sha256
  resources : intent.resourceLedgerSha256 = request.resources.sha256
  reservedCash : intent.reservedCashVnd =
    intent.limitPrice * intent.quantity * (1 + request.costs.buyFeeBps / bps)
  affordable : intent.reservedCashVnd ≤ request.resources.availableCashVnd
  covered : ∃ item ∈ request.resources.positions, item.symbol = intent.symbol ∧
    intent.quantity ≤ item.availableExitQuantity

/-- The risk limits that a planned entry respects on the ledger of its request. -/
structure WithinRisk (request : PaperExecutionRequest D) (intent : PaperOrderIntent D) :
    Prop where
  quantity : intent.quantity ≤ request.risk.maxCycleQuantity
  notional : intent.limitPrice * intent.quantity ≤ request.risk.maxOrderNotionalVnd
  cycles : request.resources.startedCycles < request.risk.maxCyclesPerDay
  loss : -request.risk.maxDailyLossVnd < request.resources.realizedNetPnlVnd
  cash : request.risk.cashReserveVnd ≤
    request.resources.availableCashVnd - intent.reservedCashVnd

/-- **A READY entry plan** reserves what its own limit can cost and what the
account holds, within the request's risk limits. -/
theorem planPaperOrder_ready {request : PaperExecutionRequest D}
    {policy : PaperExecutionVersion} {arbitrationPolicy : CandidateArbitrationVersion}
    {contextPolicy : ContextVersion} {promotionPolicy : PromotionGateVersion}
    {plan : PaperOrderPlan D} {intent : PaperOrderIntent D}
    (h : planPaperOrder request policy arbitrationPolicy contextPolicy promotionPolicy =
      .ok plan) (hintent : plan.intent = some intent) :
    PlannedEntry request policy intent ∧ WithinRisk request intent := by
  simp only [planPaperOrder, bind_eq_ok, require_eq_ok] at h
  obtain ⟨-, -, h⟩ := h
  split at h
  · cases h
    simp [PaperOrderPlan.blocked] at hintent
  · next hreasons =>
      split at h
      · simp at h
      · simp only [bind_eq_ok, pure_eq_ok] at h
        obtain ⟨planned, hplanned, rfl⟩ := h
        obtain rfl : planned = intent := by simpa [PaperOrderPlan.ready] using hintent
        have hfields := PaperOrderIntent.modelValidate_ok hplanned
        have hconditions := blockReasons_eq_nil.mp (not_not.mp hreasons)
        simp only [entryConditions, List.mem_cons, List.not_mem_nil, or_false,
          forall_eq_or_imp, forall_eq, decide_eq_false_iff_not, not_lt] at hconditions
        obtain ⟨-, -, -, -, hposition, hcovered, hquantity, hnotional, hcycles, hloss, hcash⟩ :=
          hconditions
        constructor
        · constructor
          case affordable =>
            have hreserve := request.risk.cashReserve_nonneg
            rw [hfields]
            exact sub_nonneg.mp (hreserve.trans hcash)
          case covered =>
            cases hfind : request.resources.positions.find?
                (·.symbol == request.candidate.symbol) with
            | none => simp [hfind] at hposition
            | some item =>
                refine ⟨item, List.mem_of_find?_eq_some hfind, ?_, ?_⟩
                · rw [hfields]
                  simpa using List.find?_some hfind
                · rw [hfields]
                  simpa [hfind] using hcovered
          all_goals rw [hfields]
        · constructor
          case cycles => exact not_le.mp hcycles
          case loss => exact not_le.mp hloss
          all_goals rw [hfields]
          · exact hquantity
          · exact hnotional
          · exact hcash

/-- An exit the planner let through: the whole of one open cycle. -/
structure PlannedExit (request : PaperExitRequest D) (policy : PaperExecutionVersion)
    (intent : PaperOrderIntent D) : Prop where
  leg : intent.leg = .exit
  action : intent.action = .sell
  symbol : intent.symbol = request.entryIntent.symbol
  tradeDate : intent.tradeDate = request.entryIntent.tradeDate
  createdAt : intent.createdAt = request.market.observedAt
  parent : intent.parentIntentSha256 = some request.entryIntent.sha256
  configuration : intent.executionConfigurationSha256 =
    request.entryIntent.executionConfigurationSha256
  policy_kept : request.entryIntent.executionConfigurationSha256 = policy.sha256
  resources : intent.resourceLedgerSha256 = request.resources.sha256
  cycle : ∃ item ∈ request.resources.reservations,
    item.entryIntentSha256 = request.entryIntent.sha256 ∧ item.status = .open ∧
      item.reservedExitQuantity = intent.quantity

/-- **A READY exit plan** sells exactly one open cycle of its entry. -/
theorem planPaperExit_ready {request : PaperExitRequest D} {policy : PaperExecutionVersion}
    {contextPolicy : ContextVersion} {plan : PaperOrderPlan D} {intent : PaperOrderIntent D}
    (h : planPaperExit request policy contextPolicy = .ok plan)
    (hintent : plan.intent = some intent) : PlannedExit request policy intent := by
  simp only [planPaperExit] at h
  split at h
  · simp at h
  · next item hfind =>
      simp only [bind_eq_ok, require_eq_ok] at h
      obtain ⟨-, ⟨-, -, -, hpolicy⟩, h⟩ := h
      split at h
      · cases h
        simp [PaperOrderPlan.blocked] at hintent
      · simp only [bind_eq_ok, pure_eq_ok] at h
        obtain ⟨planned, hplanned, rfl⟩ := h
        obtain rfl : planned = intent := by simpa [PaperOrderPlan.ready] using hintent
        have hfields := PaperOrderIntent.modelValidate_ok hplanned
        constructor
        case policy_kept => exact hpolicy
        case cycle =>
          have hmatch := List.find?_some hfind
          rw [Bool.and_eq_true, beq_iff_eq, beq_iff_eq] at hmatch
          exact ⟨item, List.mem_of_find?_eq_some hfind, hmatch.1, hmatch.2, by rw [hfields]⟩
        all_goals rw [hfields]

end MiniLakehouse
