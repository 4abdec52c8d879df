import MiniLakehouse.Execution.Commands

/-!
# Conservation of paper resources

Every share of a symbol that may be sold is available, reserved or sold by a
settled exit, and every VND of the account is available, reserved or spent by a
settled entry.  `Balanced` is the invariant of the reconciled log, one lemma per
ledger transition keeps it, and `resources_conserved` states it of every
reachable session.
-/

namespace MiniLakehouse

variable {D : Type} [Hashing D]

/-- Shares of a symbol that were settled at the snapshot and are not core. -/
def AccountSnapshot.exitCapacity (account : AccountSnapshot) (symbol : String) : Nat :=
  ((account.positions.find? (·.symbol == symbol)).map
    fun item => item.settledQty - item.coreMinQty).getD 0

/-! ## What an order contributes -/

/-- Quantity sold by a settled exit of the symbol. -/
def settledExitFill (symbol : String) (intent : PaperOrderIntent D) :
    Except Raised (PaperOrderState D) → Nat
  | .ok state =>
      if intent.leg = .exit ∧ intent.symbol = symbol ∧ state.status.isTerminal then
        state.cumulativeFilledQuantity
      else 0
  | .error _ => 0

/-- Quantity sold by an exit of the symbol so far, settled or not. -/
def exitFill (symbol : String) (intent : PaperOrderIntent D) :
    Except Raised (PaperOrderState D) → Nat
  | .ok state =>
      if intent.leg = .exit ∧ intent.symbol = symbol then state.cumulativeFilledQuantity else 0
  | .error _ => 0

/-- Quantity an exit of the symbol may still sell. -/
def pendingExit (symbol : String) (intent : PaperOrderIntent D) :
    Except Raised (PaperOrderState D) → Nat
  | .ok state =>
      if intent.leg = .exit ∧ intent.symbol = symbol ∧ !state.status.isTerminal then
        intent.quantity
      else 0
  | .error _ => 0

/-- Cash spent by a settled entry: average price times quantity, fee included. -/
def settledEntryCost (costs : CostPolicy) (intent : PaperOrderIntent D) :
    Except Raised (PaperOrderState D) → Rat
  | .ok state =>
      if intent.leg = .entry ∧ state.status.isTerminal then spentCash costs state else 0
  | .error _ => 0

namespace PaperSession

variable (session : PaperSession D)

/-- Total quantity filled by the symbol's settled EXIT orders. -/
def settledExitQuantity (symbol : String) : Nat :=
  orderTotal (settledExitFill symbol) session.operations

/-- Total quantity filled by the symbol's EXIT orders, open ones included. -/
def exitFilledQuantity (symbol : String) : Nat :=
  orderTotal (exitFill symbol) session.operations

/-- Sum over settled ENTRY orders of average price, quantity and fee factor. -/
def settledEntryCash : Rat :=
  orderTotal (settledEntryCost session.costs) session.operations

end PaperSession

/-! ## Sums over exchanged reservations -/

/-- Exit quantity held by the reservations that satisfy a predicate. -/
def heldIn (p : PaperReservation D → Bool) (items : List (PaperReservation D)) : Nat :=
  ((items.filter p).map (·.reservedExitQuantity)).sum

omit [Hashing D] in
@[simp] theorem heldIn_nil {p : PaperReservation D → Bool} : heldIn p [] = 0 := rfl

omit [Hashing D] in
@[simp] theorem heldIn_singleton {p : PaperReservation D → Bool} {item : PaperReservation D} :
    heldIn p [item] = if p item then item.reservedExitQuantity else 0 := by
  cases h : p item <;> simp [heldIn, h]

/-- The symbol's reservations. -/
def ofSymbol (symbol : String) (item : PaperReservation D) : Bool := item.symbol == symbol

/-- The symbol's reservations that a pending exit has bound. -/
def pendingOf (symbol : String) (item : PaperReservation D) : Bool :=
  item.symbol == symbol && item.status == .exitPending

theorem Exchange.held {before after : PaperResourceLedger D}
    {removed added : List (PaperReservation D)} {symbol : String} {released : Int} {cash : Rat}
    (h : Exchange before after removed added symbol released cash)
    (p : PaperReservation D → Bool) :
    heldIn p after.reservations + heldIn p removed =
      heldIn p before.reservations + heldIn p added := by
  simpa only [heldIn, sum_filter_map] using
    h.weight fun item => if p item then item.reservedExitQuantity else 0

omit [Hashing D] in
/-- A pending exit holds no more than its symbol's reservations. -/
theorem heldIn_pending_le (symbol : String) (items : List (PaperReservation D)) :
    heldIn (pendingOf symbol) items ≤ heldIn (ofSymbol symbol) items := by
  simp only [heldIn, sum_filter_map]
  refine List.sum_le_sum fun item _ => ?_
  cases hs : item.symbol == symbol <;> simp [pendingOf, ofSymbol, hs]
  split <;> omega

/-! ## The invariant -/

/-- The exits of a log sell the symbol that their entries bought. -/
def ExitLineage (operations : List (Operation D)) : Prop :=
  ∀ exit ∈ intentsOf operations, exit.leg = .exit →
    ∀ entry ∈ intentsOf operations, exit.parentIntentSha256 = some entry.sha256 →
      entry.symbol = exit.symbol

theorem ExitLineage.of_append {first second : List (Operation D)}
    (h : ExitLineage (first ++ second)) : ExitLineage first := by
  intro exit hexit hleg entry hentry hparent
  exact h exit (by simp [hexit]) hleg entry (by simp [hentry]) hparent

/-- Resources after a prefix of the log, and what its reservations stand for. -/
structure Balanced (account : AccountSnapshot) (costs : CostPolicy)
    (operations : List (Operation D)) (ledger : PaperResourceLedger D) : Prop where
  inventory : ∀ symbol, ledger.availableQuantity symbol +
    heldIn (ofSymbol symbol) ledger.reservations +
    orderTotal (settledExitFill symbol) operations = account.exitCapacity symbol
  cash : ledger.availableCashVnd + ledger.reservedCash +
    orderTotal (settledEntryCost costs) operations = account.cashVnd
  pending : ∀ symbol, heldIn (pendingOf symbol) ledger.reservations =
    orderTotal (pendingExit symbol) operations
  entries : ∀ item ∈ ledger.reservations, ∃ intent ∈ intentsOf operations,
    intent.sha256 = item.entryIntentSha256 ∧ intent.symbol = item.symbol
  exits : ∀ item ∈ ledger.reservations, item.status = .exitPending →
    ∃ intent ∈ intentsOf operations, item.exitIntentSha256 = some intent.sha256 ∧
      intent.quantity = item.reservedExitQuantity ∧ intent.symbol = item.symbol

namespace Balanced

variable {account : AccountSnapshot} {costs : CostPolicy}
  {operations : List (Operation D)} {ledger after : PaperResourceLedger D}
  {intent : PaperOrderIntent D}

omit [Hashing D] in
/-- A reservation that a larger log still explains. -/
private theorem grow {more : List (Operation D)} {p : PaperOrderIntent D → Prop}
    (h : ∃ intent ∈ intentsOf operations, p intent) :
    ∃ intent ∈ intentsOf (operations ++ more), p intent := by
  obtain ⟨intent, hintent, hp⟩ := h
  exact ⟨intent, by simp [hintent], hp⟩

/-- A fresh order has sold nothing, and only an exit has something pending. -/
private theorem fresh_state (hfresh : eventsOf operations intent.sha256 = []) :
    ∃ state, orderState operations intent = .ok state ∧
      state.status.isTerminal = false := by
  obtain ⟨state, hstate, hreport⟩ := reducePaperOrder_nil intent
  refine ⟨state, by rw [orderState, hfresh, hstate], ?_⟩
  simp [hreport, Reduction.report, Reduction.start, PaperOrderStatus.isTerminal]

/-- **Entry reserved.**  Available shares and cash become reserved ones. -/
theorem reserveEntry (h : Balanced account costs operations ledger)
    (hfresh : eventsOf operations intent.sha256 = [])
    (hreserve : reservePaperEntry ledger intent = .ok after) :
    Balanced account costs (operations ++ [Operation.intent intent]) after := by
  obtain ⟨hleg, -, -, -, item, hitem, hexchange⟩ := reservePaperEntry_ok hreserve
  obtain ⟨state, hstate, hopen⟩ := fresh_state hfresh
  constructor
  case inventory =>
    intro symbol
    have havailable := hexchange.available symbol
    have hheld := hexchange.held (ofSymbol symbol)
    have hold := h.inventory symbol
    simp only [orderTotal_intent, hstate, settledExitFill, hleg, reduceCtorEq, false_and,
      if_false, add_zero]
    simp only [heldIn_nil, heldIn_singleton, ofSymbol, hitem, beq_iff_eq] at hheld
    by_cases hs : symbol = intent.symbol
    · simp only [hs, if_true] at havailable hheld hold ⊢
      omega
    · have hs' : ¬intent.symbol = symbol := fun heq => hs heq.symm
      simp only [hs, hs', if_false] at havailable hheld
      omega
  case cash =>
    have hcash := hexchange.cash
    have hreserved := hexchange.weight (·.reservedCashVnd)
    have hold := h.cash
    simp only [List.map_nil, List.sum_nil, List.map_cons, List.sum_cons, hitem] at hreserved
    simp only [orderTotal_intent, hstate, settledEntryCost, hopen, Bool.false_eq_true, and_false,
      if_false, add_zero]
    simp only [PaperResourceLedger.reservedCash] at hold ⊢
    linarith
  case pending =>
    intro symbol
    have hheld := hexchange.held (pendingOf symbol)
    simp only [heldIn_nil, heldIn_singleton, pendingOf, hitem, reduceCtorEq, beq_iff_eq,
      Bool.and_eq_true, and_false, if_false, add_zero] at hheld
    simp only [orderTotal_intent, hstate, pendingExit, hleg, reduceCtorEq, false_and, if_false,
      add_zero]
    rw [hheld, h.pending]
  case entries =>
    intro other hother
    rcases hexchange.mem_after hother with hadded | hold
    · obtain rfl := List.mem_singleton.mp hadded
      exact ⟨intent, by simp, by rw [hitem], by rw [hitem]⟩
    · exact grow (h.entries other hold)
  case exits =>
    intro other hother hstatus
    rcases hexchange.mem_after hother with hadded | hold
    · obtain rfl := List.mem_singleton.mp hadded
      rw [hitem] at hstatus
      cases hstatus
    · exact grow (h.exits other hold hstatus)

/-- **Exit reserved.**  The open cycle's shares stay reserved, now pending. -/
theorem reserveExit (h : Balanced account costs operations ledger)
    (hlineage : ExitLineage (operations ++ [Operation.intent intent]))
    (hfresh : eventsOf operations intent.sha256 = [])
    (hreserve : reservePaperExit ledger intent = .ok after) :
    Balanced account costs (operations ++ [Operation.intent intent]) after := by
  obtain ⟨hleg, -, item, hitem, hparent, hstatus, hquantity, bound, hbound, hexchange⟩ :=
    reservePaperExit_ok hreserve
  obtain ⟨state, hstate, hopen⟩ := fresh_state hfresh
  obtain ⟨entry, hentry, hkey, hsymbol⟩ := h.entries item hitem
  have hsame : item.symbol = intent.symbol := by
    rw [← hsymbol]
    exact hlineage intent (by simp) hleg entry (by simp [hentry]) (by rw [hparent, hkey])
  constructor
  case inventory =>
    intro symbol
    have havailable := hexchange.available symbol
    have hheld : heldIn (ofSymbol symbol) after.reservations =
        heldIn (ofSymbol symbol) ledger.reservations := by
      simpa [ofSymbol, hbound] using hexchange.held (ofSymbol symbol)
    have hold := h.inventory symbol
    simp only [ite_self, add_zero] at havailable
    simp only [orderTotal_intent, hstate, settledExitFill, hopen, Bool.false_eq_true, and_false,
      if_false, add_zero]
    omega
  case cash =>
    have hcash := hexchange.cash
    have hreserved := hexchange.weight (·.reservedCashVnd)
    have hold := h.cash
    simp only [List.map_cons, List.sum_cons, List.map_nil, List.sum_nil, hbound] at hreserved
    simp only [orderTotal_intent, hstate, settledEntryCost, hopen, Bool.false_eq_true, and_false,
      if_false, add_zero]
    simp only [PaperResourceLedger.reservedCash] at hold ⊢
    linarith
  case pending =>
    intro symbol
    have hheld := hexchange.held (pendingOf symbol)
    have hold := h.pending symbol
    simp only [heldIn_singleton, pendingOf, hbound, hstatus, reduceCtorEq, hsame, hquantity,
      beq_iff_eq, Bool.and_eq_true, and_false, if_false, add_zero, and_true] at hheld
    simp only [orderTotal_intent, hstate, pendingExit, hleg, hopen, Bool.not_false, true_and,
      and_true]
    omega
  case entries =>
    intro other hother
    rcases hexchange.mem_after hother with hadded | hold
    · obtain rfl := List.mem_singleton.mp hadded
      refine grow ⟨entry, hentry, ?_, ?_⟩
      · rw [hbound]; exact hkey
      · rw [hbound]; exact hsymbol
    · exact grow (h.entries other hold)
  case exits =>
    intro other hother hpending
    rcases hexchange.mem_after hother with hadded | hold
    · obtain rfl := List.mem_singleton.mp hadded
      exact ⟨intent, by simp, by rw [hbound], by rw [hbound]; exact hquantity.symm,
        by rw [hbound]; exact hsame.symm⟩
    · exact grow (h.exits other hold hpending)

/-- An event that leaves its order open changes no resource. -/
theorem unsettled {event : PaperOrderEvent D} {before state : PaperOrderState D}
    (h : Balanced account costs operations ledger)
    (hunique : ((intentsOf operations).map (·.sha256)).Nodup)
    (hintent : intent ∈ intentsOf operations)
    (haddressed : event.intentSha256 = intent.sha256)
    (hbefore : orderState operations intent = .ok before)
    (hopen : before.status.isTerminal = false)
    (hafter : orderState (operations ++ [Operation.event event]) intent = .ok state)
    (hstill : state.status.isTerminal = false) :
    Balanced account costs (operations ++ [Operation.event event]) ledger where
  inventory symbol := by
    have htotal := orderTotal_event (f := settledExitFill symbol) hunique hintent haddressed
    simp only [hbefore, hafter, settledExitFill, hopen, hstill, Bool.false_eq_true, and_false,
      if_false, add_zero] at htotal
    rw [htotal]
    exact h.inventory symbol
  cash := by
    have htotal := orderTotal_event (f := settledEntryCost costs) hunique hintent haddressed
    simp only [hbefore, hafter, settledEntryCost, hopen, hstill, Bool.false_eq_true, and_false,
      if_false, add_zero] at htotal
    rw [htotal]
    exact h.cash
  pending symbol := by
    have htotal := orderTotal_event (f := pendingExit symbol) hunique hintent haddressed
    simp only [hbefore, hafter, pendingExit, hopen, hstill, Bool.not_false, and_true]
      at htotal
    rw [h.pending symbol, Nat.add_right_cancel htotal]
  entries item hitem := grow (h.entries item hitem)
  exits item hitem hstatus := grow (h.exits item hitem hstatus)

/-- **Entry settled.**  Spent cash leaves, filled shares stay reserved, and the
rest is available again. -/
theorem settleEntry {event : PaperOrderEvent D} {before state : PaperOrderState D}
    (h : Balanced account costs operations ledger)
    (hunique : ((intentsOf operations).map (·.sha256)).Nodup)
    (hintent : intent ∈ intentsOf operations)
    (haddressed : event.intentSha256 = intent.sha256)
    (hbefore : orderState operations intent = .ok before)
    (hopen : before.status.isTerminal = false)
    (hafter : orderState (operations ++ [Operation.event event]) intent = .ok state)
    (hsettle : settlePaperEntry ledger intent state costs = .ok after) :
    Balanced account costs (operations ++ [Operation.event event]) after := by
  obtain ⟨hleg, hterminal, item, hitem, hkey, hstatus, -, added, hadded, hexchange⟩ :=
    settlePaperEntry_ok hsettle
  have hsame : item.symbol = intent.symbol := by
    obtain ⟨entry, hentry, hentrykey, hsymbol⟩ := h.entries item hitem
    have heq : entry = intent :=
      eq_of_key_eq (fun item : PaperOrderIntent D => item.sha256) hunique hentry
        hintent (hentrykey.trans hkey)
    rw [← hsymbol, heq]
  constructor
  case inventory =>
    intro symbol
    have havailable := hexchange.available symbol
    have hheld := hexchange.held (ofSymbol symbol)
    have hold := h.inventory symbol
    have htotal := orderTotal_event (f := settledExitFill symbol) hunique hintent haddressed
    simp only [hbefore, hafter, settledExitFill, hleg, reduceCtorEq, false_and, if_false,
      add_zero] at htotal
    have hkept : heldIn (ofSymbol symbol) added =
        if intent.symbol = symbol then state.cumulativeFilledQuantity else 0 := by
      rcases hadded with ⟨hzero, rfl⟩ | ⟨-, kept, rfl, hkept⟩
      · simp [hzero]
      · simp [ofSymbol, hkept]
    simp only [heldIn_singleton, ofSymbol, hsame, beq_iff_eq, hkept] at hheld
    rw [htotal]
    by_cases hs : symbol = intent.symbol
    · simp only [hs, if_true] at havailable hheld hold ⊢
      omega
    · have hs' : ¬intent.symbol = symbol := fun heq => hs heq.symm
      simp only [hs, hs', if_false] at havailable hheld
      omega
  case cash =>
    have hcash := hexchange.cash
    have hreserved := hexchange.weight (·.reservedCashVnd)
    have hold := h.cash
    have htotal := orderTotal_event (f := settledEntryCost costs) hunique hintent haddressed
    have hkept : (added.map (·.reservedCashVnd)).sum = 0 := by
      rcases hadded with ⟨-, rfl⟩ | ⟨-, kept, rfl, hkept⟩
      · rfl
      · simp [hkept]
    simp only [hbefore, hafter, settledEntryCost, hopen, hleg, hterminal, Bool.false_eq_true,
      and_false, and_true, if_false, if_true, add_zero] at htotal
    simp only [hkept, List.map_cons, List.map_nil, List.sum_cons, List.sum_nil] at hreserved
    simp only [PaperResourceLedger.reservedCash] at hold ⊢
    linarith
  case pending =>
    intro symbol
    have hheld := hexchange.held (pendingOf symbol)
    have hold := h.pending symbol
    have htotal := orderTotal_event (f := pendingExit symbol) hunique hintent haddressed
    have hkept : heldIn (pendingOf symbol) added = 0 := by
      rcases hadded with ⟨-, rfl⟩ | ⟨-, kept, rfl, hkept⟩
      · rfl
      · simp [pendingOf, hkept]
    simp only [hbefore, hafter, pendingExit, hleg, reduceCtorEq, false_and, if_false,
      add_zero] at htotal
    simp only [heldIn_singleton, pendingOf, hstatus, reduceCtorEq, hkept, beq_iff_eq,
      Bool.and_eq_true, and_false, if_false, add_zero] at hheld
    rw [htotal, hheld, hold]
  case entries =>
    intro other hother
    rcases hexchange.mem_after hother with hnew | hold
    · rcases hadded with ⟨-, rfl⟩ | ⟨-, kept, rfl, hkept⟩
      · cases hnew
      · obtain rfl := List.mem_singleton.mp hnew
        exact ⟨intent, by simp [hintent], by rw [hkept], by rw [hkept]⟩
    · exact grow (h.entries other hold)
  case exits =>
    intro other hother hpending
    rcases hexchange.mem_after hother with hnew | hold
    · rcases hadded with ⟨-, rfl⟩ | ⟨-, kept, rfl, hkept⟩
      · cases hnew
      · obtain rfl := List.mem_singleton.mp hnew
        rw [hkept] at hpending
        cases hpending
    · exact grow (h.exits other hold hpending)

/-- **Exit settled.**  Sold shares leave, what is outstanding stays reserved. -/
theorem settleExit {event : PaperOrderEvent D} {before state : PaperOrderState D}
    (h : Balanced account costs operations ledger)
    (hunique : ((intentsOf operations).map (·.sha256)).Nodup)
    (hintent : intent ∈ intentsOf operations)
    (haddressed : event.intentSha256 = intent.sha256)
    (hbefore : orderState operations intent = .ok before)
    (hopen : before.status.isTerminal = false)
    (hafter : orderState (operations ++ [Operation.event event]) intent = .ok state)
    (hsettle : settlePaperExit ledger intent state costs = .ok after) :
    Balanced account costs (operations ++ [Operation.event event]) after := by
  obtain ⟨hleg, hterminal, item, hitem, hexit, hstatus, hsold, added, hadded, hexchange⟩ :=
    settlePaperExit_ok hsettle
  obtain ⟨hquantity, hsame⟩ :
      intent.quantity = item.reservedExitQuantity ∧ intent.symbol = item.symbol := by
    obtain ⟨bound, hbound, hkey, hquantity, hsymbol⟩ := h.exits item hitem hstatus
    have heq : bound = intent :=
      eq_of_key_eq (fun item : PaperOrderIntent D => item.sha256) hunique hbound
        hintent (Option.some.inj (hkey.symm.trans hexit))
    rw [← heq]
    exact ⟨hquantity, hsymbol⟩
  constructor
  case inventory =>
    intro symbol
    have havailable := hexchange.available symbol
    have hheld := hexchange.held (ofSymbol symbol)
    have hold := h.inventory symbol
    have htotal := orderTotal_event (f := settledExitFill symbol) hunique hintent haddressed
    have hkept : heldIn (ofSymbol symbol) added = if intent.symbol = symbol then
        item.reservedExitQuantity - state.cumulativeFilledQuantity else 0 := by
      rcases hadded with ⟨hzero, rfl⟩ | ⟨-, kept, rfl, hkept⟩
      · simp [hzero]
      · simp [ofSymbol, hkept, hsame]
    simp only [hbefore, hafter, settledExitFill, hleg, hopen, hterminal, Bool.false_eq_true,
      and_false, and_true, true_and, if_false, add_zero] at htotal
    simp only [heldIn_singleton, ofSymbol, ← hsame, beq_iff_eq, hkept] at hheld
    simp only [ite_self, add_zero] at havailable
    by_cases hs : intent.symbol = symbol
    · simp only [hs, if_true] at hheld htotal
      omega
    · simp only [hs, if_false] at hheld htotal
      omega
  case cash =>
    have hcash := hexchange.cash
    have hreserved := hexchange.weight (·.reservedCashVnd)
    have hold := h.cash
    have htotal := orderTotal_event (f := settledEntryCost costs) hunique hintent haddressed
    have hkept : (added.map (·.reservedCashVnd)).sum = 0 := by
      rcases hadded with ⟨-, rfl⟩ | ⟨-, kept, rfl, hkept⟩
      · rfl
      · simp [hkept]
    simp only [hbefore, hafter, settledEntryCost, hleg, reduceCtorEq, false_and, if_false,
      add_zero] at htotal
    simp only [hkept, (item.exitPending_iff hstatus).2.1, List.map_cons, List.map_nil,
      List.sum_cons, List.sum_nil] at hreserved
    simp only [PaperResourceLedger.reservedCash] at hold ⊢
    rw [htotal]
    linarith
  case pending =>
    intro symbol
    have hheld := hexchange.held (pendingOf symbol)
    have hold := h.pending symbol
    have htotal := orderTotal_event (f := pendingExit symbol) hunique hintent haddressed
    have hkept : heldIn (pendingOf symbol) added = 0 := by
      rcases hadded with ⟨-, rfl⟩ | ⟨-, kept, rfl, hkept⟩
      · rfl
      · simp [pendingOf, hkept]
    simp only [hbefore, hafter, pendingExit, hleg, hopen, hterminal, Bool.not_false,
      Bool.not_true, Bool.false_eq_true, and_false, and_true, true_and, if_false,
      add_zero] at htotal
    simp only [heldIn_singleton, pendingOf, hstatus, ← hsame, ← hquantity, hkept, beq_iff_eq,
      Bool.and_eq_true, and_true, add_zero] at hheld
    omega
  case entries =>
    intro other hother
    rcases hexchange.mem_after hother with hnew | hold
    · rcases hadded with ⟨-, rfl⟩ | ⟨-, kept, rfl, hkept⟩
      · cases hnew
      · obtain rfl := List.mem_singleton.mp hnew
        obtain ⟨entry, hentry, hkey, hsymbol⟩ := h.entries item hitem
        refine grow ⟨entry, hentry, ?_, ?_⟩
        · rw [hkept]; exact hkey
        · rw [hkept]; exact hsymbol
    · exact grow (h.entries other hold)
  case exits =>
    intro other hother hpending
    rcases hexchange.mem_after hother with hnew | hold
    · rcases hadded with ⟨-, rfl⟩ | ⟨-, kept, rfl, hkept⟩
      · cases hnew
      · obtain rfl := List.mem_singleton.mp hnew
        rw [hkept] at hpending
        cases hpending
    · exact grow (h.exits other hold hpending)

/-- **One operation** keeps the resources balanced. -/
theorem step {r r' : Reconciliation D} {operation : Operation D}
    (h : Balanced account costs operations r.ledger) (htracks : r.Tracks operations)
    (hlineage : ExitLineage (operations ++ [operation]))
    (hstep : Reconciliation.step costs r operation = .ok r') :
    Balanced account costs (operations ++ [operation]) r'.ledger := by
  cases operation with
  | intent intent =>
      obtain ⟨-, hfresh, -, after, hreserve, rfl⟩ := Reconciliation.step_intent_eq_ok.mp hstep
      have hnone := htracks.known intent.sha256 (htracks.fresh.mp hfresh)
      cases hleg : intent.leg with
      | entry => exact h.reserveEntry hnone (by simpa [Reconciliation.reserve, hleg] using hreserve)
      | exit =>
          exact h.reserveExit hlineage hnone
            (by simpa [Reconciliation.reserve, hleg] using hreserve)
  | event event =>
      obtain ⟨intent, hintent, haddressed, before, state, hbefore, hopen, hafter, hsettle⟩ :=
        htracks.event_step hstep
      unfold Reconciliation.settle at hsettle
      split at hsettle
      · next hterminal =>
          cases hleg : intent.leg with
          | entry =>
              exact h.settleEntry htracks.unique hintent haddressed hbefore hopen hafter
                (by simpa [hleg] using hsettle)
          | exit =>
              exact h.settleExit htracks.unique hintent haddressed hbefore hopen hafter
                (by simpa [hleg] using hsettle)
      · next hstill =>
          have hledger : r.ledger = r'.ledger := Except.ok.inj hsettle
          rw [← hledger]
          exact h.unsettled htracks.unique hintent haddressed hbefore hopen hafter
            (by simpa using hstill)

end Balanced

/-- The empty ledger makes exactly the settled shares above the core available. -/
theorem initializePaperLedger_ok {account : AccountSnapshot} {tradeDate : Day}
    {ledger : PaperResourceLedger D}
    (h : initializePaperLedger account tradeDate = .ok ledger) :
    ledger.availableCashVnd = account.cashVnd ∧ ledger.reservations = [] ∧
      ledger.tradeDate = tradeDate ∧
      ∀ symbol, ledger.availableQuantity symbol = account.exitCapacity symbol := by
  simp only [initializePaperLedger, bind_eq_ok, require_eq_ok, mapM_eq_ok] at h
  obtain ⟨-, -, positions, hpositions, hledger⟩ := h
  have hfields := PaperResourceLedger.modelValidate_ok hledger
  refine ⟨by rw [hfields], by rw [hfields], by rw [hfields], fun symbol => ?_⟩
  have hlookup : ((sortOn (·.symbol) account.positions).find? (·.symbol == symbol)).map
        (fun item => item.settledQty - item.coreMinQty) =
      (positions.find? (·.symbol == symbol)).map (·.availableExitQuantity) := by
    clear hfields hledger
    generalize sortOn (·.symbol) account.positions = ordered at hpositions
    induction hpositions with
    | nil => rfl
    | cons hhead _ ih =>
        obtain ⟨_, rfl⟩ := validated_eq_ok.mp hhead
        simp only [List.find?_cons]
        split
        · rfl
        · exact ih
  have hsorted := find?_key_perm (fun item : AccountPosition => item.symbol)
    (k := symbol) (sortOn_perm (fun item : AccountPosition => item.symbol) account.positions)
    (((sortOn_perm (fun item : AccountPosition => item.symbol)
      account.positions).map _).nodup_iff.mpr account.symbols_nodup)
  rw [PaperResourceLedger.availableQuantity, AccountSnapshot.exitCapacity, hfields, ← hlookup,
    hsorted]

theorem Balanced.initial {account : AccountSnapshot} {costs : CostPolicy} {tradeDate : Day}
    {ledger : PaperResourceLedger D}
    (h : initializePaperLedger account tradeDate = .ok ledger) :
    Balanced account costs [] ledger := by
  obtain ⟨hcash, hreservations, -, havailable⟩ := initializePaperLedger_ok h
  constructor
  case inventory => simp [havailable, hreservations, orderTotal]
  case cash => simp [hcash, PaperResourceLedger.reservedCash, hreservations, orderTotal]
  case pending => simp [hreservations, orderTotal]
  case entries => simp [hreservations]
  case exits => simp [hreservations]

/-- **A reconciled log** is balanced, whatever its length. -/
theorem Balanced.run {account : AccountSnapshot} {costs : CostPolicy} {tradeDate : Day}
    {ledger : PaperResourceLedger D} {operations : List (Operation D)} {r : Reconciliation D}
    (hinitial : initializePaperLedger account tradeDate = .ok ledger)
    (hrun : Reconciliation.run account costs ledger operations = .ok r)
    (hlineage : ExitLineage operations) : Balanced account costs operations r.ledger := by
  refine (foldlM_prefix_invariant (I := fun done (r : Reconciliation D) => r.Tracks done ∧
    (ExitLineage done → Balanced account costs done r.ledger)) ?_ ?_ hrun).2 hlineage
  · exact ⟨Reconciliation.Tracks.start account ledger, fun _ => Balanced.initial hinitial⟩
  · rintro done operation t t' ⟨htracks, hbalanced⟩ hstep
    refine ⟨htracks.step hstep, fun hall => ?_⟩
    exact (hbalanced hall.of_append).step htracks hall hstep

/-! ## Reachable sessions -/

/-- Every exit of a log names an entry of the log that bought its symbol. -/
def ParentLineage (operations : List (Operation D)) : Prop :=
  ∀ exit ∈ intentsOf operations, exit.leg = .exit →
    ∃ entry ∈ intentsOf operations, exit.parentIntentSha256 = some entry.sha256 ∧
      entry.symbol = exit.symbol

theorem ParentLineage.exitLineage {operations : List (Operation D)}
    (h : ParentLineage operations)
    (hunique : ((intentsOf operations).map (·.sha256)).Nodup) : ExitLineage operations := by
  intro exit hexit hleg entry hentry hparent
  obtain ⟨parent, hmem, hkey, hsymbol⟩ := h exit hexit hleg
  have heq : entry = parent :=
    eq_of_key_eq (fun item : PaperOrderIntent D => item.sha256) hunique hentry hmem
      (Option.some.inj (hparent.symm.trans hkey))
  rw [heq, hsymbol]

theorem ParentLineage.append {operations more : List (Operation D)}
    (h : ParentLineage operations)
    (hmore : ∀ exit ∈ intentsOf more, exit.leg = .exit →
      ∃ entry ∈ intentsOf operations, exit.parentIntentSha256 = some entry.sha256 ∧
        entry.symbol = exit.symbol) : ParentLineage (operations ++ more) := by
  intro exit hexit hleg
  rw [intentsOf_append, List.mem_append] at hexit
  have hparent := hexit.elim (fun hold => h exit hold hleg) (fun hnew => hmore exit hnew hleg)
  obtain ⟨entry, hentry, hrest⟩ := hparent
  exact ⟨entry, by simp [hentry], hrest⟩

/-- What a command writes keeps the lineage of exits. -/
theorem PaperCommand.Writes.lineage {configuration : TradingConfiguration}
    {session : PaperSession D} {command : PaperCommand D} {operations : List (Operation D)}
    (h : command.Writes configuration session operations) :
    ∀ exit ∈ intentsOf operations, exit.leg = .exit →
      ∃ entry ∈ session.intents, exit.parentIntentSha256 = some entry.sha256 ∧
        entry.symbol = exit.symbol := by
  intro exit hexit hleg
  cases command with
  | submitEntry request readiness =>
      obtain ⟨intent, accepted, hadmitted, -, rfl⟩ := h
      obtain rfl : exit = intent := by simpa [intentsOf, Operation.asIntent] using hexit
      obtain ⟨-, -, -, -, _, _, -, -, hplanned, -⟩ := PaperSession.admitEntry_some hadmitted
      rw [hplanned.leg] at hleg
      cases hleg
  | submitExit entry market =>
      obtain ⟨intent, accepted, hadmitted, -, rfl⟩ := h
      obtain rfl : exit = intent := by simpa [intentsOf, Operation.asIntent] using hexit
      obtain ⟨hentry, request, _, rfl, -, -, -, hplanned⟩ :=
        PaperSession.admitExit_some hadmitted
      exact ⟨_, hentry, hplanned.parent, hplanned.symbol.symm⟩
  | processQuote market =>
      obtain ⟨_, _, events, -, -, -, rfl⟩ := h
      simp at hexit
  | advanceClock at' =>
      obtain ⟨events, -, rfl⟩ := h
      simp at hexit
  | cancelOrder intent at' reason =>
      obtain ⟨events, -, rfl⟩ := h
      simp at hexit

theorem Reachable.parentLineage {session : PaperSession D} (h : Reachable session) :
    ParentLineage session.operations := by
  induction h with
  | empty hempty =>
      obtain ⟨_, -, rfl, -⟩ := empty_ok hempty
      intro exit hexit
      simp at hexit
  | command _ _ hrun ih =>
      obtain rfl | ⟨operations, hwrites, hcommitted⟩ := PaperCommand.run_ok hrun
      · exact ih
      · rw [hcommitted.operations]
        exact ih.append hwrites.lineage

/-- A reachable session's log replays from its account, to its own ledger. -/
theorem Reachable.balanced {session : PaperSession D} (h : Reachable session) :
    Balanced session.account session.costs session.operations session.ledger := by
  obtain ⟨-, ⟨initial, hinitial, r, hrun, hledger⟩, -⟩ :=
    PaperSession.reconcile_eq_ok.mp h.reconciled
  have hunique := (Reconciliation.run_tracks hrun).unique
  rw [← hledger]
  exact Balanced.run hinitial hrun (h.parentLineage.exitLineage hunique)

omit [Hashing D] in
/-- No entry costs less than nothing. -/
theorem spentCash_nonneg (costs : CostPolicy) (state : PaperOrderState D) :
    0 ≤ spentCash costs state := by
  have hfee : 0 ≤ 1 + costs.buyFeeBps / bps := by
    have hrate : 0 ≤ costs.buyFeeBps / bps := div_nonneg costs.buyFee_bounds.1 (by decide)
    linarith
  cases haverage : state.averageFillPrice with
  | none => simp [spentCash, haverage]
  | some average =>
      have hprice := state.average_pos average haverage
      simp only [spentCash, haverage]
      positivity

/-- What exits have sold so far is settled or still pending. -/
theorem exitFill_le (symbol : String) (operations : List (Operation D)) :
    orderTotal (exitFill symbol) operations ≤
      orderTotal (settledExitFill symbol) operations +
        orderTotal (pendingExit symbol) operations := by
  simp only [orderTotal, ← List.sum_map_add]
  refine List.sum_le_sum fun intent _ => ?_
  cases hstate : orderState operations intent with
  | error _ => simp [exitFill]
  | ok state =>
      have hbound := reducePaperOrder_bounded hstate
      simp only [exitFill, settledExitFill, pendingExit]
      cases state.status.isTerminal <;> split_ifs <;> simp_all

/-- **Resources are conserved.**  In every reachable session, and for every
symbol, available, reserved and settled-exit shares add up to the settled shares
above the core, and available, reserved and spent cash to the account's cash.
Exits never sell more than those shares, bought or core shares included, and
available cash never exceeds the account's: no sale returns to it. -/
theorem resources_conserved {session : PaperSession D} (h : Reachable session) :
    (∀ symbol, session.ledger.availableQuantity symbol +
        session.ledger.reservedQuantity symbol + session.settledExitQuantity symbol =
          session.account.exitCapacity symbol) ∧
      session.ledger.availableCashVnd + session.ledger.reservedCash +
        session.settledEntryCash = session.account.cashVnd ∧
      (0 ≤ session.ledger.availableCashVnd ∧
        ∀ item ∈ session.ledger.reservations, 0 ≤ item.reservedCashVnd) ∧
      (∀ symbol, session.exitFilledQuantity symbol ≤ session.account.exitCapacity symbol) ∧
      session.ledger.availableCashVnd ≤ session.account.cashVnd := by
  have hbalanced := h.balanced
  have hnonneg : ∀ item ∈ session.ledger.reservations, 0 ≤ item.reservedCashVnd :=
    fun item _ => item.reservedCash_nonneg
  refine ⟨hbalanced.inventory, hbalanced.cash, ⟨session.ledger.cash_nonneg, hnonneg⟩, ?_, ?_⟩
  · intro symbol
    have hinventory := hbalanced.inventory symbol
    have hpending := hbalanced.pending symbol
    have hheld := heldIn_pending_le symbol session.ledger.reservations
    have hsold := exitFill_le symbol session.operations
    simp only [PaperSession.exitFilledQuantity]
    omega
  · have hcash := hbalanced.cash
    have hreserved : 0 ≤ session.ledger.reservedCash :=
      List.sum_nonneg (by simpa using hnonneg)
    have hspent : 0 ≤ orderTotal (settledEntryCost session.costs) session.operations := by
      refine List.sum_nonneg ?_
      simp only [List.mem_map, forall_exists_index, and_imp, forall_apply_eq_imp_iff₂]
      intro intent _
      cases orderState session.operations intent with
      | error _ => simp [settledEntryCost]
      | ok state =>
          simp only [settledEntryCost]
          split
          · exact spentCash_nonneg session.costs state
          · exact le_rfl
    linarith

/-- The rehearsed day sells what it bought, and its resources add up. -/
theorem resources_conserved_rehearsal : ∃ session, Rehearsal.run = .ok session ∧
    session.settledExitQuantity "VIC" = 100 ∧ session.exitFilledQuantity "VIC" ≤ 800 ∧
    session.ledger.availableQuantity "VIC" + session.ledger.reservedQuantity "VIC" + 100 =
      session.account.exitCapacity "VIC" ∧
    session.ledger.availableCashVnd + session.ledger.reservedCash +
      session.settledEntryCash = session.account.cashVnd := by
  have hsold : Rehearsal.run.toOption.any (fun session =>
      session.settledExitQuantity "VIC" = 100 ∧
        session.account.exitCapacity "VIC" = 800) = true := by
    decide +kernel
  cases hrun : Rehearsal.run with
  | error raised => simp [hrun, Except.toOption] at hsold
  | ok session =>
      simp only [hrun, Except.toOption, Option.any_some, decide_eq_true_eq] at hsold
      obtain ⟨hquantity, hcapacity⟩ := hsold
      obtain ⟨hshares, hcash, -, hexits, -⟩ :=
        resources_conserved (Rehearsal.run_reachable hrun)
      exact ⟨session, rfl, hquantity, hcapacity ▸ hexits "VIC", hquantity ▸ hshares "VIC",
        hcash⟩

end MiniLakehouse
