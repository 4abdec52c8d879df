import MiniLakehouse.Execution.Redelivery
import MiniLakehouse.Execution.Conservation

/-!
# Risk limits of a paper day

The planner checks its limits against the ledger of one moment; over a whole
session they hold because every transition of the ledger moves cycles, cash and
the realised result in a known way.  `Booked` is the invariant of the reconciled
log, `PaperSession.WithinLimits` the one of the commands.
-/

namespace MiniLakehouse

variable {D : Type} [Hashing D]

/-! ## Cycles and results of the transitions -/

/-- What a transition does to the day's counters. -/
structure Counts (before after : PaperResourceLedger D) (cycles : Nat) (realized : Rat) :
    Prop where
  startedCycles : after.startedCycles = before.startedCycles + cycles
  realizedNetPnl : after.realizedNetPnlVnd = before.realizedNetPnlVnd + realized

variable {ledger after : PaperResourceLedger D} {intent : PaperOrderIntent D}
  {state : PaperOrderState D} {costs : CostPolicy}

theorem reservePaperEntry_counts (h : reservePaperEntry ledger intent = .ok after) :
    Counts ledger after 1 0 := by
  simp only [reservePaperEntry, bind_eq_ok, require_eq_ok] at h
  obtain ⟨-, -, item, -, positions, -, hafter⟩ := h
  have hfields := PaperResourceLedger.modelValidate_ok hafter
  exact ⟨by rw [hfields], by rw [hfields]; exact (add_zero _).symm⟩

theorem settlePaperEntry_counts (h : settlePaperEntry ledger intent state costs = .ok after) :
    Counts ledger after 0 0 := by
  simp only [settlePaperEntry, bind_eq_ok, require_eq_ok] at h
  obtain ⟨-, -, h⟩ := h
  split at h
  · simp only [bind_eq_ok, require_eq_ok] at h
    obtain ⟨-, -, reservations, -, positions, -, hafter⟩ := h
    have hfields := PaperResourceLedger.modelValidate_ok hafter
    exact ⟨by rw [hfields]; rfl, by rw [hfields]; exact (add_zero _).symm⟩
  · simp at h

theorem reservePaperExit_counts (h : reservePaperExit ledger intent = .ok after) :
    Counts ledger after 0 0 := by
  simp only [reservePaperExit, bind_eq_ok, require_eq_ok] at h
  obtain ⟨-, -, h⟩ := h
  split at h
  · simp only [bind_eq_ok, require_eq_ok] at h
    obtain ⟨-, -, bound, -, hafter⟩ := h
    have hfields := PaperResourceLedger.modelValidate_ok hafter
    exact ⟨by rw [hfields]; rfl, by rw [hfields]; exact (add_zero _).symm⟩
  · simp at h

/-- Settling an exit realises the result of the cycle that it was bound to. -/
theorem settlePaperExit_counts (h : settlePaperExit ledger intent state costs = .ok after) :
    ∃ item ∈ ledger.reservations, item.exitIntentSha256 = some intent.sha256 ∧
      item.status = .exitPending ∧ ∃ realized, realizedPnl costs state item = .ok realized ∧
        Counts ledger after 0 realized := by
  simp only [settlePaperExit, bind_eq_ok, require_eq_ok] at h
  obtain ⟨-, -, h⟩ := h
  split at h
  · next item hmatches =>
      have hmem : item ∈ [item] := List.mem_singleton_self item
      rw [← hmatches, List.mem_filter, Bool.and_eq_true, beq_iff_eq, beq_iff_eq] at hmem
      simp only [bind_eq_ok, require_eq_ok] at h
      obtain ⟨-, -, realized, hrealized, reservations, -, hafter⟩ := h
      have hfields := PaperResourceLedger.modelValidate_ok hafter
      exact ⟨item, hmem.1, hmem.2.1, hmem.2.2, realized, hrealized,
        by rw [hfields]; rfl, by rw [hfields]⟩
  · simp at h

/-! ## What settled exits have realised -/

/-- The average fill price of an order of the log, zero while it has none. -/
def averagePrice (operations : List (Operation D)) (intent : PaperOrderIntent D) : Rat :=
  match orderState operations intent with
  | .ok state => state.averageFillPrice.getD 0
  | .error _ => 0

/-- The average fill price of an exit's entry. -/
def parentPrice (operations : List (Operation D)) (exit : PaperOrderIntent D) : Rat :=
  match (intentsOf operations).find? (fun entry => exit.parentIntentSha256 == some entry.sha256) with
  | some entry => averagePrice operations entry
  | none => 0

/-- What a settled exit has realised: its proceeds after fee and tax, less what its entry
paid for the sold quantity, fee included. -/
def exitResult (costs : CostPolicy) (operations : List (Operation D))
    (intent : PaperOrderIntent D) : Except Raised (PaperOrderState D) → Rat
  | .ok state =>
      if intent.leg = .exit ∧ state.status.isTerminal then
        state.averageFillPrice.getD 0 * state.cumulativeFilledQuantity *
            (1 - (costs.sellFeeBps + costs.sellTaxBps) / bps) -
          parentPrice operations intent * state.cumulativeFilledQuantity *
            (1 + costs.buyFeeBps / bps)
      else 0
  | .error _ => 0

/-- The entry that an exit of the log sells is a closed order of the log. -/
def ClosedParent (operations : List (Operation D)) (key : D) (price : Rat) : Prop :=
  ∃ entry ∈ intentsOf operations, entry.sha256 = key ∧ ∃ state,
    orderState operations entry = .ok state ∧ state.status.isTerminal ∧
      state.averageFillPrice.getD 0 = price

/-- The ledger after a prefix of the log, and what its counters stand for. -/
structure Booked (costs : CostPolicy) (operations : List (Operation D))
    (ledger : PaperResourceLedger D) : Prop where
  cycles : ((intentsOf operations).filter (·.leg = .entry)).length = ledger.startedCycles
  realized : ledger.realizedNetPnlVnd = orderTotal (exitResult costs operations) operations
  priced : ∀ item ∈ ledger.reservations, item.status ≠ .entryPending →
    ClosedParent operations item.entryIntentSha256 (item.entryAverageFillPrice.getD 0)
  bound : ∀ item ∈ ledger.reservations, item.status = .exitPending →
    ∃ exit ∈ intentsOf operations, item.exitIntentSha256 = some exit.sha256 ∧
      exit.parentIntentSha256 = some item.entryIntentSha256
  parents : ∀ exit ∈ intentsOf operations, exit.leg = .exit → ∃ key price,
    exit.parentIntentSha256 = some key ∧ ClosedParent operations key price

/-! ## Closed orders stay closed -/

section

variable {r r' : Reconciliation D} {operations : List (Operation D)} {operation : Operation D}

/-- **A closed order** keeps its state: no event that reconciles is addressed to it. -/
theorem orderState_closed (htracks : r.Tracks operations)
    (hstep : Reconciliation.step costs r operation = .ok r')
    (hintent : intent ∈ intentsOf operations) (hstate : orderState operations intent = .ok state)
    (hclosed : state.status.isTerminal) :
    orderState (operations ++ [operation]) intent = .ok state := by
  cases operation with
  | intent other => simpa [orderState] using hstate
  | event event =>
      obtain ⟨addressed, hmem, haddressed, before, _, hbefore, hopen, -, -⟩ :=
        htracks.event_step hstep
      by_cases hsame : event.intentSha256 = intent.sha256
      · have hequal : addressed = intent :=
          eq_of_key_eq (fun item : PaperOrderIntent D => item.sha256) htracks.unique hmem hintent
            (haddressed.symm.trans hsame)
        rw [hequal, hstate] at hbefore
        obtain rfl := Except.ok.inj hbefore
        rw [hclosed] at hopen
        cases hopen
      · simpa [orderState, eventsOf_event, hsame] using hstate

theorem ClosedParent.step (htracks : r.Tracks operations)
    (hstep : Reconciliation.step costs r operation = .ok r') {key : D} {price : Rat}
    (h : ClosedParent operations key price) :
    ClosedParent (operations ++ [operation]) key price := by
  obtain ⟨entry, hentry, hkey, state, hstate, hclosed, hprice⟩ := h
  refine ⟨entry, by simp [hentry], hkey, state, ?_, hclosed, hprice⟩
  exact orderState_closed htracks hstep hentry hstate hclosed

/-- The price of an exit's closed parent. -/
theorem ClosedParent.parentPrice {exit : PaperOrderIntent D} {key : D} {price : Rat}
    (h : ClosedParent operations key price)
    (hunique : ((intentsOf operations).map (·.sha256)).Nodup)
    (hparent : exit.parentIntentSha256 = some key) : parentPrice operations exit = price := by
  obtain ⟨entry, hentry, rfl, state, hstate, -, hprice⟩ := h
  have hfind : (intentsOf operations).find?
      (fun item => exit.parentIntentSha256 == some item.sha256) = some entry := by
    have hkeys := (find?_key_eq_some (fun item : PaperOrderIntent D => item.sha256) hunique).mpr
      ⟨hentry, rfl⟩
    rw [hparent, ← hkeys]
    congr 1
    funext item
    exact BEq.comm
  rw [MiniLakehouse.parentPrice, hfind]
  simp only [averagePrice, hstate, hprice]

/-- What the old orders have realised does not change. -/
theorem Booked.realized_kept (h : Booked costs operations ledger)
    (htracks : r.Tracks operations) (hstep : Reconciliation.step costs r operation = .ok r') :
    orderTotal (exitResult costs (operations ++ [operation])) operations =
      orderTotal (exitResult costs operations) operations := by
  apply congrArg List.sum
  apply List.map_congr_left
  intro exit hexit
  cases hstate : orderState operations exit with
  | error raised => rfl
  | ok state =>
      by_cases hleg : exit.leg = .exit
      · obtain ⟨key, price, hparent, hclosed⟩ := h.parents exit hexit hleg
        have hunique := (htracks.step hstep).unique
        rw [exitResult, exitResult, hclosed.parentPrice htracks.unique hparent,
          (hclosed.step htracks hstep).parentPrice hunique hparent]
      · simp [exitResult, hleg]

end

omit [Hashing D] in
/-- The realised result of a settlement in terms of average prices. -/
theorem realizedPnl_ok {item : PaperReservation D} {realized : Rat}
    (h : realizedPnl costs state item = .ok realized) :
    realized = state.averageFillPrice.getD 0 * state.cumulativeFilledQuantity *
        (1 - (costs.sellFeeBps + costs.sellTaxBps) / bps) -
      item.entryAverageFillPrice.getD 0 * state.cumulativeFilledQuantity *
        (1 + costs.buyFeeBps / bps) := by
  unfold realizedPnl at h
  by_cases hsold : state.cumulativeFilledQuantity = 0
  · rw [if_pos hsold] at h
    obtain rfl := Except.ok.inj h
    simp [hsold]
  · rw [if_neg hsold] at h
    split at h
    · next exitPrice entryPrice hexit hentry =>
        obtain rfl := Except.ok.inj h
        simp [hexit, hentry]
    · cases h

/-! ## One operation -/

namespace Booked

variable {r r' : Reconciliation D} {operations : List (Operation D)}

/-- The reservations and exits that a step keeps are explained by the larger log. -/
theorem explained {operation : Operation D} (h : Booked costs operations r.ledger)
    (htracks : r.Tracks operations) (hstep : Reconciliation.step costs r operation = .ok r') :
    (∀ item ∈ r.ledger.reservations, item.status ≠ .entryPending →
      ClosedParent (operations ++ [operation]) item.entryIntentSha256
        (item.entryAverageFillPrice.getD 0)) ∧
    (∀ item ∈ r.ledger.reservations, item.status = .exitPending →
      ∃ exit ∈ intentsOf (operations ++ [operation]),
        item.exitIntentSha256 = some exit.sha256 ∧
        exit.parentIntentSha256 = some item.entryIntentSha256) ∧
    ∀ exit ∈ intentsOf operations, exit.leg = .exit → ∃ key price,
      exit.parentIntentSha256 = some key ∧ ClosedParent (operations ++ [operation]) key price := by
  refine ⟨?_, ?_, ?_⟩
  · intro item hitem hstatus
    exact (h.priced item hitem hstatus).step htracks hstep
  · intro item hitem hstatus
    obtain ⟨exit, hexit, hbound⟩ := h.bound item hitem hstatus
    exact ⟨exit, by simp [hexit], hbound⟩
  · intro exit hexit hleg
    obtain ⟨key, price, hparent, hclosed⟩ := h.parents exit hexit hleg
    exact ⟨key, price, hparent, hclosed.step htracks hstep⟩

/-- A fresh order has realised nothing. -/
theorem realized_intent (h : Booked costs operations r.ledger) (htracks : r.Tracks operations)
    (hstep : Reconciliation.step costs r (.intent intent) = .ok r') :
    orderTotal (exitResult costs (operations ++ [Operation.intent intent]))
        (operations ++ [Operation.intent intent]) =
      orderTotal (exitResult costs operations) operations := by
  obtain ⟨-, hfresh, -⟩ := Reconciliation.step_intent_eq_ok.mp hstep
  have hnone := htracks.known intent.sha256 (htracks.fresh.mp hfresh)
  obtain ⟨fresh, hfresh, hreport⟩ := reducePaperOrder_nil intent
  have hopen : fresh.status.isTerminal = false := by
    simp [hreport, Reduction.report, Reduction.start, PaperOrderStatus.isTerminal]
  rw [orderTotal_intent, h.realized_kept htracks hstep, orderState, hnone, hfresh]
  simp [exitResult, hopen]

/-- An event adds what its own order has realised. -/
theorem realized_event {event : PaperOrderEvent D} {before : PaperOrderState D}
    (h : Booked costs operations r.ledger) (htracks : r.Tracks operations)
    (hstep : Reconciliation.step costs r (.event event) = .ok r')
    (hintent : intent ∈ intentsOf operations)
    (haddressed : event.intentSha256 = intent.sha256)
    (hbefore : orderState operations intent = .ok before)
    (hopen : before.status.isTerminal = false)
    (hafter : orderState (operations ++ [Operation.event event]) intent = .ok state) :
    orderTotal (exitResult costs (operations ++ [Operation.event event]))
        (operations ++ [Operation.event event]) =
      orderTotal (exitResult costs operations) operations +
        exitResult costs (operations ++ [Operation.event event]) intent (.ok state) := by
  have htotal := orderTotal_event
    (f := exitResult costs (operations ++ [Operation.event event])) htracks.unique hintent
    haddressed
  rw [h.realized_kept htracks hstep, hbefore, hafter] at htotal
  simpa [exitResult, hopen] using htotal

/-- **Entry reserved.**  One more cycle has started. -/
theorem reserveEntry (h : Booked costs operations r.ledger) (htracks : r.Tracks operations)
    (hstep : Reconciliation.step costs r (.intent intent) = .ok r')
    (hreserve : reservePaperEntry r.ledger intent = .ok after) :
    Booked costs (operations ++ [Operation.intent intent]) after := by
  obtain ⟨hleg, -, -, -, item, hitem, hexchange⟩ := reservePaperEntry_ok hreserve
  have hcounts := reservePaperEntry_counts hreserve
  obtain ⟨hpriced, hbound, hparents⟩ := h.explained htracks hstep
  constructor
  case cycles =>
    rw [hcounts.startedCycles, ← h.cycles]
    simp [hleg]
  case realized =>
    rw [h.realized_intent htracks hstep, hcounts.realizedNetPnl, add_zero, h.realized]
  case priced =>
    intro other hother hstatus
    rcases hexchange.mem_after hother with hadded | hold
    · obtain rfl := List.mem_singleton.mp hadded
      exact absurd (by rw [hitem]) hstatus
    · exact hpriced other hold hstatus
  case bound =>
    intro other hother hstatus
    rcases hexchange.mem_after hother with hadded | hold
    · obtain rfl := List.mem_singleton.mp hadded
      rw [hitem] at hstatus
      cases hstatus
    · exact hbound other hold hstatus
  case parents =>
    intro exit hexit hexitleg
    rw [intentsOf_append, intentsOf_intent, List.mem_append, List.mem_singleton] at hexit
    rcases hexit with hold | rfl
    · exact hparents exit hold hexitleg
    · rw [hleg] at hexitleg
      cases hexitleg

/-- **Exit reserved.**  It sells a cycle whose entry is closed. -/
theorem reserveExit (h : Booked costs operations r.ledger) (htracks : r.Tracks operations)
    (hstep : Reconciliation.step costs r (.intent intent) = .ok r')
    (hreserve : reservePaperExit r.ledger intent = .ok after) :
    Booked costs (operations ++ [Operation.intent intent]) after := by
  obtain ⟨hleg, -, item, hitem, hparent, hstatus, -, bound, hbounded, hexchange⟩ :=
    reservePaperExit_ok hreserve
  have hcounts := reservePaperExit_counts hreserve
  obtain ⟨hpriced, hbound, hparents⟩ := h.explained htracks hstep
  have hclosed := hpriced item hitem (by rw [hstatus]; decide)
  constructor
  case cycles =>
    rw [hcounts.startedCycles, ← h.cycles]
    simp [hleg]
  case realized =>
    rw [h.realized_intent htracks hstep, hcounts.realizedNetPnl, add_zero, h.realized]
  case priced =>
    intro other hother hpending
    rcases hexchange.mem_after hother with hadded | hold
    · obtain rfl := List.mem_singleton.mp hadded
      rw [hbounded]
      exact hclosed
    · exact hpriced other hold hpending
  case bound =>
    intro other hother hpending
    rcases hexchange.mem_after hother with hadded | hold
    · obtain rfl := List.mem_singleton.mp hadded
      exact ⟨intent, by simp, by rw [hbounded], by rw [hbounded]; exact hparent⟩
    · exact hbound other hold hpending
  case parents =>
    intro exit hexit hexitleg
    rw [intentsOf_append, intentsOf_intent, List.mem_append, List.mem_singleton] at hexit
    rcases hexit with hold | rfl
    · exact hparents exit hold hexitleg
    · exact ⟨_, _, hparent, hclosed⟩

section

variable {event : PaperOrderEvent D} {before : PaperOrderState D}
  (h : Booked costs operations r.ledger) (htracks : r.Tracks operations)
  (hstep : Reconciliation.step costs r (.event event) = .ok r')
  (hintent : intent ∈ intentsOf operations) (haddressed : event.intentSha256 = intent.sha256)
  (hbefore : orderState operations intent = .ok before)
  (hopen : before.status.isTerminal = false)
  (hafter : orderState (operations ++ [Operation.event event]) intent = .ok state)

include h htracks hstep hintent haddressed hbefore hopen hafter

/-- An event that leaves its order open books nothing. -/
theorem unsettled (hstill : state.status.isTerminal = false) :
    Booked costs (operations ++ [Operation.event event]) r.ledger := by
  obtain ⟨hpriced, hbound, hparents⟩ := h.explained htracks hstep
  refine ⟨by simpa using h.cycles, ?_, hpriced, hbound, by simpa using hparents⟩
  rw [h.realized_event htracks hstep hintent haddressed hbefore hopen hafter, h.realized]
  simp [exitResult, hstill]

/-- **Entry settled.**  What it filled is priced by the closed order. -/
theorem settleEntry (hsettle : settlePaperEntry r.ledger intent state costs = .ok after) :
    Booked costs (operations ++ [Operation.event event]) after := by
  obtain ⟨hleg, hterminal, item, hitem, hkey, hstatus, -, added, hadded, hexchange⟩ :=
    settlePaperEntry_ok hsettle
  have hcounts := settlePaperEntry_counts hsettle
  obtain ⟨hpriced, hbound, hparents⟩ := h.explained htracks hstep
  constructor
  case cycles => simpa [hcounts.startedCycles] using h.cycles
  case realized =>
    rw [h.realized_event htracks hstep hintent haddressed hbefore hopen hafter,
      hcounts.realizedNetPnl, h.realized]
    simp [exitResult, hleg]
  case priced =>
    intro other hother hpending
    rcases hexchange.mem_after hother with hnew | hold
    · rcases hadded with ⟨-, rfl⟩ | ⟨-, kept, rfl, hkept⟩
      · cases hnew
      · obtain rfl := List.mem_singleton.mp hnew
        rw [hkept]
        exact ⟨intent, by simp [hintent], rfl, state, hafter, hterminal, rfl⟩
    · exact hpriced other hold hpending
  case bound =>
    intro other hother hpending
    rcases hexchange.mem_after hother with hnew | hold
    · rcases hadded with ⟨-, rfl⟩ | ⟨-, kept, rfl, hkept⟩
      · cases hnew
      · obtain rfl := List.mem_singleton.mp hnew
        rw [hkept] at hpending
        cases hpending
    · exact hbound other hold hpending
  case parents => simpa using hparents

/-- **Exit settled.**  The result that it adds is priced by its entry. -/
theorem settleExit (hsettle : settlePaperExit r.ledger intent state costs = .ok after) :
    Booked costs (operations ++ [Operation.event event]) after := by
  obtain ⟨hleg, hterminal, item, hitem, hexit, hstatus, -, added, hadded, hexchange⟩ :=
    settlePaperExit_ok hsettle
  obtain ⟨sold, hsold, hsoldexit, hsoldstatus, realized, hrealized, hcounts⟩ :=
    settlePaperExit_counts hsettle
  obtain ⟨hpriced, hbound, hparents⟩ := h.explained htracks hstep
  have hprice : parentPrice (operations ++ [Operation.event event]) intent =
      sold.entryAverageFillPrice.getD 0 := by
    obtain ⟨exit, hmem, hexitkey, hparent⟩ := h.bound sold hsold hsoldstatus
    have hsame : exit = intent :=
      eq_of_key_eq (fun item : PaperOrderIntent D => item.sha256) htracks.unique hmem hintent
        (Option.some.inj (hexitkey.symm.trans hsoldexit))
    rw [hsame] at hparent
    exact (hpriced sold hsold (by rw [hsoldstatus]; decide)).parentPrice
      (htracks.step hstep).unique hparent
  constructor
  case cycles => simpa [hcounts.startedCycles] using h.cycles
  case realized =>
    rw [h.realized_event htracks hstep hintent haddressed hbefore hopen hafter,
      hcounts.realizedNetPnl, h.realized, realizedPnl_ok hrealized, exitResult,
      if_pos ⟨hleg, hterminal⟩, hprice]
  case priced =>
    intro other hother hpending
    rcases hexchange.mem_after hother with hnew | hold
    · rcases hadded with ⟨-, rfl⟩ | ⟨-, kept, rfl, hkept⟩
      · cases hnew
      · obtain rfl := List.mem_singleton.mp hnew
        rw [hkept]
        exact hpriced item hitem (by rw [hstatus]; decide)
    · exact hpriced other hold hpending
  case bound =>
    intro other hother hpending
    rcases hexchange.mem_after hother with hnew | hold
    · rcases hadded with ⟨-, rfl⟩ | ⟨-, kept, rfl, hkept⟩
      · cases hnew
      · obtain rfl := List.mem_singleton.mp hnew
        rw [hkept] at hpending
        cases hpending
    · exact hbound other hold hpending
  case parents => simpa using hparents

end

/-- **One operation** keeps the books. -/
theorem step {operation : Operation D} (h : Booked costs operations r.ledger)
    (htracks : r.Tracks operations) (hstep : Reconciliation.step costs r operation = .ok r') :
    Booked costs (operations ++ [operation]) r'.ledger := by
  cases operation with
  | intent intent =>
      obtain ⟨-, -, -, after, hreserve, rfl⟩ := Reconciliation.step_intent_eq_ok.mp hstep
      cases hleg : intent.leg with
      | entry =>
          exact h.reserveEntry htracks hstep (by simpa [Reconciliation.reserve, hleg] using hreserve)
      | exit =>
          exact h.reserveExit htracks hstep (by simpa [Reconciliation.reserve, hleg] using hreserve)
  | event event =>
      obtain ⟨intent, hintent, haddressed, before, state, hbefore, hopen, hafter, hsettle⟩ :=
        htracks.event_step hstep
      unfold Reconciliation.settle at hsettle
      split at hsettle
      · cases hleg : intent.leg with
        | entry =>
            exact h.settleEntry htracks hstep hintent haddressed hbefore hopen hafter
              (by simpa [hleg] using hsettle)
        | exit =>
            exact h.settleExit htracks hstep hintent haddressed hbefore hopen hafter
              (by simpa [hleg] using hsettle)
      · next hstill =>
          have hledger : r.ledger = r'.ledger := Except.ok.inj hsettle
          rw [← hledger]
          exact h.unsettled htracks hstep hintent haddressed hbefore hopen hafter
            (by simpa using hstill)

end Booked

theorem initializePaperLedger_counts {account : AccountSnapshot} {tradeDate : Day}
    (h : initializePaperLedger account tradeDate = .ok ledger) :
    ledger.startedCycles = 0 ∧ ledger.realizedNetPnlVnd = 0 := by
  simp only [initializePaperLedger, bind_eq_ok, require_eq_ok] at h
  obtain ⟨-, -, positions, -, hledger⟩ := h
  have hfields := PaperResourceLedger.modelValidate_ok hledger
  exact ⟨by rw [hfields], by rw [hfields]⟩

theorem Booked.initial {account : AccountSnapshot} {tradeDate : Day}
    (h : initializePaperLedger account tradeDate = .ok ledger) : Booked costs [] ledger := by
  obtain ⟨hcycles, hrealized⟩ := initializePaperLedger_counts h
  obtain ⟨-, hreservations, -⟩ := initializePaperLedger_ok h
  refine ⟨by simp [hcycles], by simp [hrealized, orderTotal], ?_, ?_, by simp⟩
  · simp [hreservations]
  · simp [hreservations]

/-- **A reachable session's books** stand for its log. -/
theorem Reachable.booked {session : PaperSession D} (h : Reachable session) :
    Booked session.costs session.operations session.ledger := by
  obtain ⟨-, ⟨initial, hinitial, r, hrun, hledger⟩, -⟩ :=
    PaperSession.reconcile_eq_ok.mp h.reconciled
  have hboth : r.Tracks session.operations ∧ Booked session.costs session.operations r.ledger :=
    foldlM_prefix_invariant (I := fun done (r : Reconciliation D) =>
        r.Tracks done ∧ Booked session.costs done r.ledger)
      ⟨Reconciliation.Tracks.start session.account initial, Booked.initial hinitial⟩
      (fun _ _ _ _ hdone hstep => ⟨hdone.1.step hstep, hdone.2.step hdone.1 hstep⟩) hrun
  rw [← hledger]
  exact hboth.2

/-! ## Commands under one set of limits -/

/-- The entries that a command submits carry these limits. -/
def PaperCommand.Carries (risk : RiskLimits) (command : PaperCommand D) : Prop :=
  ∀ request readiness, command = .submitEntry request readiness → request.risk = risk

/-- Sessions that successful commands reach while every entry carries the same limits. -/
inductive ReachableUnder (risk : RiskLimits) : PaperSession D → Prop
  | empty {account : AccountSnapshot} {costs : CostPolicy} {tradeDate : Day}
      {session : PaperSession D}
      (h : PaperSession.empty account costs tradeDate = .ok session) : ReachableUnder risk session
  | command {session result : PaperSession D} {configuration : TradingConfiguration}
      (command : PaperCommand D) (hsession : ReachableUnder risk session)
      (hcarries : command.Carries risk) (h : command.run configuration session = .ok result) :
      ReachableUnder risk result

theorem ReachableUnder.reachable {risk : RiskLimits} {session : PaperSession D}
    (h : ReachableUnder risk session) : Reachable session := by
  induction h with
  | empty hempty => exact .empty hempty
  | command command _ _ hrun ih => exact .command command ih hrun

/-- An entry is written by the command that submits it, and by no other. -/
theorem PaperCommand.Writes.entry {configuration : TradingConfiguration}
    {session : PaperSession D} {command : PaperCommand D} {operations : List (Operation D)}
    (h : command.Writes configuration session operations) (hmem : intent ∈ intentsOf operations)
    (hleg : intent.leg = .entry) :
    ∃ request readiness accepted, command = .submitEntry request readiness ∧
      session.admitEntry request readiness configuration = .ok (some intent) ∧
      operations = [.intent intent, .event accepted] := by
  cases command with
  | submitEntry request readiness =>
      obtain ⟨planned, accepted, hadmitted, -, rfl⟩ := h
      obtain rfl : intent = planned := by simpa [intentsOf, Operation.asIntent] using hmem
      exact ⟨request, readiness, accepted, rfl, hadmitted, rfl⟩
  | submitExit entry market =>
      obtain ⟨planned, accepted, hadmitted, -, rfl⟩ := h
      obtain rfl : intent = planned := by simpa [intentsOf, Operation.asIntent] using hmem
      obtain ⟨-, _, _, -, -, -, -, hplanned⟩ := PaperSession.admitExit_some hadmitted
      rw [hplanned.leg] at hleg
      cases hleg
  | processQuote market =>
      obtain ⟨_, _, events, -, -, -, rfl⟩ := h
      simp at hmem
  | advanceClock at' =>
      obtain ⟨events, -, rfl⟩ := h
      simp at hmem
  | cancelOrder other at' reason =>
      obtain ⟨events, -, rfl⟩ := h
      simp at hmem

/-- A committed command replays from the ledger of its session to that of its result. -/
theorem Reachable.replays {configuration : TradingConfiguration} {session result : PaperSession D}
    {command : PaperCommand D} (h : Reachable session)
    (hrun : command.run configuration session = .ok result) {operations : List (Operation D)}
    {markets : List (PaperMarketSnapshot D)}
    (hcommitted : PaperSession.Committed session result operations markets) :
    ∃ r r' : Reconciliation D, r.ledger = session.ledger ∧
      operations.foldlM (Reconciliation.step session.costs) r = .ok r' ∧
      r'.ledger = result.ledger := by
  obtain ⟨-, ⟨initial, hinitial, r, hr, hledger⟩, -⟩ :=
    PaperSession.reconcile_eq_ok.mp h.reconciled
  obtain ⟨-, ⟨initial', hinitial', r', hr', hledger'⟩, -⟩ :=
    PaperSession.reconcile_eq_ok.mp hcommitted.reconciled
  have hdate := PaperCommand.run_tradeDate hrun
  rw [hcommitted.account, hdate, hinitial] at hinitial'
  obtain rfl := Except.ok.inj hinitial'
  rw [Reconciliation.run, hcommitted.account, hcommitted.costs, hcommitted.operations] at hr'
  obtain ⟨middle, hmiddle, hrest⟩ := foldlM_append_ok hr'
  rw [Reconciliation.run, hmiddle] at hr
  obtain rfl := Except.ok.inj hr
  exact ⟨middle, r', hledger, hrest, hledger'⟩

namespace Reconciliation

variable {r r' : Reconciliation D}

/-- **No other operation** than a new entry takes available cash or starts a cycle. -/
theorem step_spares {operation : Operation D} (h : step costs r operation = .ok r')
    (hother : ∀ intent, operation = .intent intent → intent.leg ≠ .entry) :
    r.ledger.availableCashVnd ≤ r'.ledger.availableCashVnd ∧
      r'.ledger.startedCycles = r.ledger.startedCycles := by
  cases operation with
  | intent intent =>
      obtain ⟨-, -, -, after, hreserve, rfl⟩ := step_intent_eq_ok.mp h
      have hleg : intent.leg = .exit := by
        cases hleg : intent.leg with
        | entry => exact absurd hleg (hother intent rfl)
        | exit => rfl
      simp only [reserve, hleg] at hreserve
      obtain ⟨-, -, _, -, -, -, -, _, -, hexchange⟩ := reservePaperExit_ok hreserve
      exact ⟨by rw [hexchange.cash, add_zero], (reservePaperExit_counts hreserve).startedCycles⟩
  | event event =>
      obtain ⟨-, intent, -, state, -, liquidity, -, after, hsettle, rfl⟩ :=
        step_event_eq_ok.mp h
      unfold settle at hsettle
      split at hsettle
      · split at hsettle
        · obtain ⟨-, -, item, -, -, -, hspent, _, -, hexchange⟩ := settlePaperEntry_ok hsettle
          refine ⟨?_, (settlePaperEntry_counts hsettle).startedCycles⟩
          rw [hexchange.cash]
          exact le_add_of_nonneg_right (sub_nonneg.mpr hspent)
        · obtain ⟨-, -, _, -, -, -, -, _, -, hexchange⟩ := settlePaperExit_ok hsettle
          obtain ⟨_, -, -, -, _, -, hcounts⟩ := settlePaperExit_counts hsettle
          exact ⟨by rw [hexchange.cash, add_zero], hcounts.startedCycles⟩
      · obtain rfl := Except.ok.inj hsettle
        exact ⟨le_refl _, rfl⟩

/-- A new entry takes what it reserves and starts one cycle. -/
theorem step_entry (h : step costs r (.intent intent) = .ok r') (hleg : intent.leg = .entry) :
    r'.ledger.availableCashVnd = r.ledger.availableCashVnd - intent.reservedCashVnd ∧
      r'.ledger.startedCycles = r.ledger.startedCycles + 1 := by
  obtain ⟨-, -, -, after, hreserve, rfl⟩ := step_intent_eq_ok.mp h
  simp only [reserve, hleg] at hreserve
  obtain ⟨-, -, -, -, _, -, hexchange⟩ := reservePaperEntry_ok hreserve
  refine ⟨?_, (reservePaperEntry_counts hreserve).startedCycles⟩
  rw [hexchange.cash, sub_eq_add_neg]

/-- Operations without a new entry spare the available cash and the cycles. -/
theorem steps_spare {operations : List (Operation D)}
    (h : operations.foldlM (step costs) r = .ok r')
    (hother : ∀ intent ∈ intentsOf operations, intent.leg ≠ .entry) :
    r.ledger.availableCashVnd ≤ r'.ledger.availableCashVnd ∧
      r'.ledger.startedCycles = r.ledger.startedCycles := by
  induction operations generalizing r with
  | nil =>
      obtain rfl := Except.ok.inj h
      exact ⟨le_refl _, rfl⟩
  | cons operation rest ih =>
      rw [List.foldlM_cons, bind_eq_ok] at h
      obtain ⟨middle, hstep, hrest⟩ := h
      have hsplit : intentsOf (operation :: rest) = intentsOf [operation] ++ intentsOf rest := by
        rw [← intentsOf_append, List.singleton_append]
      rw [hsplit] at hother
      obtain ⟨hcash, hcycles⟩ := step_spares hstep fun intent hintent =>
        hother intent (by simp [hintent])
      obtain ⟨hcash', hcycles'⟩ := ih hrest fun intent hintent => hother intent (by simp [hintent])
      exact ⟨hcash.trans hcash', hcycles'.trans hcycles⟩

end Reconciliation

/-! ## The limits of a session -/

/-- What a command does to the entries, the available cash and the cycles: nothing that
takes from them, or one entry within the limits of its request. -/
inductive Admits (session result : PaperSession D) : PaperCommand D → Prop
  | nothing {command : PaperCommand D}
      (cash : session.ledger.availableCashVnd ≤ result.ledger.availableCashVnd)
      (cycles : result.ledger.startedCycles = session.ledger.startedCycles)
      (entries : ∀ intent ∈ result.intents, intent.leg = .entry → intent ∈ session.intents) :
      Admits session result command
  | entry {request : PaperExecutionRequest D} {readiness : PaperReadiness D}
      (intent : PaperOrderIntent D) (leg : intent.leg = .entry)
      (resources : request.resources = session.ledger) (within : WithinRisk request intent)
      (cash : session.ledger.availableCashVnd - intent.reservedCashVnd ≤
        result.ledger.availableCashVnd)
      (cycles : result.ledger.startedCycles = session.ledger.startedCycles + 1)
      (entries : result.intents = session.intents ++ [intent]) :
      Admits session result (.submitEntry request readiness)

/-- **Every command** admits nothing or one entry within the limits of its request. -/
theorem Reachable.admits {configuration : TradingConfiguration} {session result : PaperSession D}
    {command : PaperCommand D} (h : Reachable session)
    (hrun : command.run configuration session = .ok result) : Admits session result command := by
  obtain rfl | ⟨operations, hwrites, hcommitted⟩ := PaperCommand.run_ok hrun
  · exact .nothing (le_refl _) rfl fun _ hintent _ => hintent
  · obtain ⟨r, r', hbefore, hsteps, hafter⟩ := h.replays hrun hcommitted
    have hintents : result.intents = session.intents ++ intentsOf operations := by
      rw [PaperSession.intents, hcommitted.operations, intentsOf_append]
      rfl
    by_cases hentry : ∃ intent ∈ intentsOf operations, intent.leg = .entry
    · obtain ⟨intent, hintent, hleg⟩ := hentry
      obtain ⟨request, readiness, accepted, rfl, hadmitted, hops⟩ := hwrites.entry hintent hleg
      obtain ⟨-, -, hresources, -, _, _, -, -, -, hwithin⟩ :=
        PaperSession.admitEntry_some hadmitted
      rw [hops, List.foldlM_cons, bind_eq_ok] at hsteps
      obtain ⟨middle, hfirst, hrest⟩ := hsteps
      obtain ⟨hcash, hcycles⟩ := Reconciliation.step_entry hfirst hleg
      obtain ⟨hkept, hstarted⟩ := Reconciliation.steps_spare hrest (by simp)
      refine .entry intent hleg hresources hwithin ?_ ?_ ?_
      · rwa [hcash, hbefore, hafter] at hkept
      · rw [← hafter, hstarted, hcycles, hbefore]
      · rw [hintents, hops]
        simp [intentsOf, Operation.asIntent]
    · obtain ⟨hcash, hcycles⟩ := Reconciliation.steps_spare hsteps fun intent hintent hleg =>
        hentry ⟨intent, hintent, hleg⟩
      refine .nothing (by rwa [hbefore, hafter] at hcash) (by rwa [hbefore, hafter] at hcycles) ?_
      intro intent hintent hleg
      rw [hintents, List.mem_append] at hintent
      exact hintent.resolve_right fun hnew => hentry ⟨intent, hnew, hleg⟩

/-- What one set of limits means for a session. -/
structure PaperSession.WithinLimits (session : PaperSession D) (risk : RiskLimits) : Prop where
  cycles : session.ledger.startedCycles ≤ risk.maxCyclesPerDay
  entries : ∀ intent ∈ session.intents, intent.leg = .entry →
    intent.quantity ≤ risk.maxCycleQuantity ∧
      intent.limitPrice * intent.quantity ≤ risk.maxOrderNotionalVnd
  cash : (∃ intent ∈ session.intents, intent.leg = .entry) →
    risk.cashReserveVnd ≤ session.ledger.availableCashVnd

/-- One command under the limits keeps a session within them. -/
theorem PaperSession.WithinLimits.step {risk : RiskLimits} {session result : PaperSession D}
    {command : PaperCommand D} (h : session.WithinLimits risk) (hcarries : command.Carries risk)
    (hadmits : Admits session result command) : result.WithinLimits risk := by
  cases hadmits with
  | nothing cash cycles entries =>
      constructor
      case cycles =>
        rw [cycles]
        exact h.cycles
      case entries =>
        intro intent hintent hleg
        exact h.entries intent (entries intent hintent hleg) hleg
      case cash =>
        rintro ⟨intent, hintent, hleg⟩
        exact (h.cash ⟨intent, entries intent hintent hleg, hleg⟩).trans cash
  | @entry request readiness intent leg resources within cash cycles entries =>
      have hrisk : request.risk = risk := hcarries request readiness rfl
      obtain ⟨hquantity, hnotional, hcycles, -, hcash⟩ := within
      rw [hrisk] at hquantity hnotional hcycles hcash
      rw [resources] at hcycles hcash
      constructor
      case cycles =>
        rw [cycles]
        exact hcycles
      case entries =>
        intro other hother hleg
        rw [entries, List.mem_append, List.mem_singleton] at hother
        rcases hother with hold | rfl
        · exact h.entries other hold hleg
        · exact ⟨hquantity, hnotional⟩
      case cash =>
        intro _
        exact hcash.trans cash

theorem ReachableUnder.withinLimits {risk : RiskLimits} {session : PaperSession D}
    (h : ReachableUnder risk session) : session.WithinLimits risk := by
  induction h with
  | empty hempty =>
      obtain ⟨ledger, hledger, rfl, -⟩ := empty_ok hempty
      obtain ⟨hcycles, -⟩ := initializePaperLedger_counts hledger
      exact ⟨by simp [hcycles], by simp [PaperSession.intents], by simp [PaperSession.intents]⟩
  | command command hsession hcarries hrun ih =>
      exact ih.step hcarries (hsession.reachable.admits hrun)

/-- **The risk limits hold over whole paper sessions.**  Every entry ever created is one
started cycle and within the limits of an order, no more cycles start than the limits
allow, the cash reserve stays untouched from the first entry on, none is created once the
day's loss has reached its limit, and the realised result is that of the settled exits. -/
theorem risk_limits_hold {risk : RiskLimits} {session : PaperSession D}
    (h : ReachableUnder risk session) :
    (session.intents.filter (·.leg = .entry)).length = session.ledger.startedCycles ∧
      session.ledger.startedCycles ≤ risk.maxCyclesPerDay ∧
      (∀ intent ∈ session.intents, intent.leg = .entry →
        intent.quantity ≤ risk.maxCycleQuantity ∧
          intent.limitPrice * intent.quantity ≤ risk.maxOrderNotionalVnd) ∧
      ((∃ intent ∈ session.intents, intent.leg = .entry) →
        risk.cashReserveVnd ≤ session.ledger.availableCashVnd) ∧
      (∀ (configuration : TradingConfiguration) (command : PaperCommand D)
          (result : PaperSession D), command.Carries risk →
        command.run configuration session = .ok result →
        session.ledger.realizedNetPnlVnd ≤ -risk.maxDailyLossVnd →
          ∀ intent ∈ result.intents, intent.leg = .entry → intent ∈ session.intents) ∧
      session.ledger.realizedNetPnlVnd =
        orderTotal (exitResult session.costs session.operations) session.operations := by
  have hbooked := h.reachable.booked
  have hlimits := h.withinLimits
  refine ⟨hbooked.cycles, hlimits.cycles, hlimits.entries, hlimits.cash, ?_, hbooked.realized⟩
  intro configuration command result hcarries hrun hlost
  cases h.reachable.admits hrun with
  | nothing cash cycles entries => exact entries
  | @entry request readiness intent leg resources within cash cycles entries =>
      have hloss := within.loss
      rw [hcarries request readiness rfl, resources] at hloss
      exact absurd hlost (not_le.mpr hloss)

theorem Rehearsal.run_reachableUnder {session : PaperSession Spelled}
    (h : Rehearsal.run = .ok session) : ReachableUnder Rehearsal.request.risk session := by
  simp only [run, bind_eq_ok] at h
  obtain ⟨submitted, hsubmitted, filled, hfilled, h⟩ := h
  have hopening : ReachableUnder request.risk opening := .empty opening_empty
  have hsubmit : ReachableUnder request.risk submitted := by
    refine .command (.submitEntry request readiness) hopening ?_ hsubmitted
    intro other _ hsame
    obtain ⟨rfl, -⟩ := PaperCommand.submitEntry.inj hsame
    rfl
  have hfill : ReachableUnder request.risk filled :=
    .command (.processQuote _) hsubmit (fun _ _ hother => nomatch hother) hfilled
  split at h
  · simp at h
  · next entry _ _ =>
      simp only [bind_eq_ok] at h
      obtain ⟨exiting, hexiting, hsession⟩ := h
      have hexit : ReachableUnder request.risk exiting :=
        .command (.submitExit entry _) hfill (fun _ _ hother => nomatch hother) hexiting
      exact .command (.processQuote _) hexit (fun _ _ hother => nomatch hother) hsession

/-- The rehearsed day starts one of five cycles, and its result is that of one exit. -/
theorem risk_limits_hold_rehearsal : ∃ session, Rehearsal.run = .ok session ∧
    session.ledger.startedCycles = 1 ∧
    (session.intents.filter (·.leg = .entry)).length = 1 ∧
    session.ledger.realizedNetPnlVnd ≠ 0 ∧
    session.ledger.realizedNetPnlVnd =
      orderTotal (exitResult session.costs session.operations) session.operations := by
  have hday : Rehearsal.run.toOption.any (fun session =>
      session.ledger.startedCycles = 1 ∧ session.ledger.realizedNetPnlVnd ≠ 0) = true := by
    decide +kernel
  cases hrun : Rehearsal.run with
  | error raised => simp [hrun, Except.toOption] at hday
  | ok session =>
      simp only [hrun, Except.toOption, Option.any_some, decide_eq_true_eq] at hday
      obtain ⟨hstarted, hearned⟩ := hday
      obtain ⟨hcycles, -, -, -, -, hrealized⟩ :=
        risk_limits_hold (Rehearsal.run_reachableUnder hrun)
      exact ⟨session, rfl, hstarted, hcycles.trans hstarted, hearned, hrealized⟩

end MiniLakehouse
