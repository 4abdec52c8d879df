import MiniLakehouse.Execution.Runtime
import MiniLakehouse.Execution.Exchange

/-!
# The reconciled operation log

What the loop of `PaperSession.reconcile` knows after a prefix of the log:
its dictionaries are the log's own intents and events (`Tracks`), and every
order's history reduces.  Sums over the orders of a log change by one order's
contribution per operation (`orderTotal_intent`, `orderTotal_event`).
-/

namespace MiniLakehouse

variable {D : Type} [Hashing D]

section

variable {operations : List (Operation D)} {intent : PaperOrderIntent D}
  {event : PaperOrderEvent D}

omit [Hashing D] in
@[simp] theorem intentsOf_nil : intentsOf ([] : List (Operation D)) = [] := rfl

omit [Hashing D] in
@[simp] theorem intentsOf_append {first second : List (Operation D)} :
    intentsOf (first ++ second) = intentsOf first ++ intentsOf second := by
  simp [intentsOf]

omit [Hashing D] in
@[simp] theorem intentsOf_intent : intentsOf [Operation.intent intent] = [intent] := rfl

omit [Hashing D] in
@[simp] theorem intentsOf_event : intentsOf [Operation.event event] = [] := rfl

omit [Hashing D] in
@[simp] theorem intentsOf_map_event {events : List (PaperOrderEvent D)} :
    intentsOf (events.map .event) = [] := by
  simp [intentsOf, Operation.asIntent]

@[simp] theorem eventsOf_nil {key : D} : eventsOf ([] : List (Operation D)) key = [] := rfl

@[simp] theorem eventsOf_append {first second : List (Operation D)} {key : D} :
    eventsOf (first ++ second) key = eventsOf first key ++ eventsOf second key := by
  simp [eventsOf]

@[simp] theorem eventsOf_intent {key : D} : eventsOf [Operation.intent intent] key = [] := rfl

theorem eventsOf_event {key : D} :
    eventsOf [Operation.event event] key =
      if event.intentSha256 = key then [event] else [] := by
  by_cases h : event.intentSha256 = key <;> simp [eventsOf, Operation.asEvent, h]

end

/-! ## One reconciled operation -/

namespace Reconciliation

variable {costs : CostPolicy} {r r' : Reconciliation D}

theorem step_intent_eq_ok {intent : PaperOrderIntent D} :
    step costs r (.intent intent) = .ok r' ↔
      r.lastOperationAt ≤ intent.createdAt ∧ r.intents intent.sha256 = none ∧
      (intent.leg = .entry → intent.arbitrationSha256 ∉ r.entries) ∧
      ∃ ledger, reserve r.ledger intent = .ok ledger ∧ r' = { r with
        ledger := ledger
        intents := Function.update r.intents intent.sha256 (some intent)
        events := Function.update r.events intent.sha256 []
        entries :=
          if intent.leg = .entry then intent.arbitrationSha256 :: r.entries else r.entries
        lastOperationAt := intent.createdAt } := by
  simp only [step, bind_eq_ok, require_eq_ok, pure_eq_ok, exists_const, eq_comm (b := r')]
  rfl

theorem step_event_eq_ok {event : PaperOrderEvent D} :
    step costs r (.event event) = .ok r' ↔
      r.lastOperationAt ≤ event.occurredAt ∧
      ∃ intent, r.intents event.intentSha256 = some intent ∧
      ∃ state, reducePaperOrder intent (r.events intent.sha256 ++ [event]) = .ok state ∧
      ∃ liquidity, useLiquidity r.liquidity event = .ok liquidity ∧
      ∃ ledger, settle r.ledger intent state costs = .ok ledger ∧ r' = { r with
        ledger := ledger
        events := Function.update r.events intent.sha256
          (r.events intent.sha256 ++ [event])
        liquidity := liquidity
        lastOperationAt := event.occurredAt } := by
  cases hintent : r.intents event.intentSha256 with
  | none => simp [step, hintent]
  | some intent =>
      simp only [step, hintent, bind_eq_ok, require_eq_ok, pure_eq_ok, exists_const,
        Option.some.injEq, exists_eq_left', eq_comm (b := r')]
      rfl

/-- Known to the loop after a prefix of the log: exactly what the prefix holds. -/
structure Tracks (operations : List (Operation D)) (r : Reconciliation D) : Prop where
  intents : ∀ key, r.intents key = (intentsOf operations).find? (·.sha256 == key)
  events : ∀ intent ∈ intentsOf operations,
    r.events intent.sha256 = eventsOf operations intent.sha256
  unique : ((intentsOf operations).map (·.sha256)).Nodup
  known : ∀ key, (∀ intent ∈ intentsOf operations, intent.sha256 ≠ key) →
    eventsOf operations key = []
  reduced : ∀ intent ∈ intentsOf operations,
    ∃ state, reducePaperOrder intent (eventsOf operations intent.sha256) = .ok state
  entries : ∀ key, key ∈ r.entries ↔
    ∃ intent ∈ intentsOf operations, intent.leg = .entry ∧ intent.arbitrationSha256 = key

theorem Tracks.start (account : AccountSnapshot) (ledger : PaperResourceLedger D) :
    (Reconciliation.start account ledger).Tracks [] where
  intents := by simp [Reconciliation.start]
  events := by simp
  unique := by simp
  known := by simp
  reduced := by simp
  entries := by simp [Reconciliation.start]

/-- An intent found under its own hash is a member of the log. -/
theorem Tracks.find {operations : List (Operation D)} (h : r.Tracks operations) {key : D}
    {intent : PaperOrderIntent D} :
    r.intents key = some intent ↔ intent ∈ intentsOf operations ∧ intent.sha256 = key := by
  rw [h.intents]
  exact find?_key_eq_some (fun intent : PaperOrderIntent D => intent.sha256) h.unique

theorem Tracks.fresh {operations : List (Operation D)} (h : r.Tracks operations) {key : D} :
    r.intents key = none ↔ ∀ intent ∈ intentsOf operations, intent.sha256 ≠ key := by
  rw [h.intents, List.find?_eq_none]
  simp

theorem Tracks.intent {operations : List (Operation D)} {intent : PaperOrderIntent D}
    (h : r.Tracks operations) (hstep : step costs r (.intent intent) = .ok r') :
    r'.Tracks (operations ++ [Operation.intent intent]) := by
  obtain ⟨-, hfresh, -, ledger, -, rfl⟩ := step_intent_eq_ok.mp hstep
  have hnew := h.fresh.mp hfresh
  have hnone := h.known intent.sha256 hnew
  constructor
  case intents =>
    intro key
    simp only [intentsOf_append, intentsOf_intent, List.find?_append]
    by_cases hkey : key = intent.sha256
    · subst hkey
      rw [← h.intents, hfresh]
      simp
    · have hne : (intent.sha256 == key) = false := by simpa using fun heq => hkey heq.symm
      simp [Function.update_of_ne hkey, h.intents, hne]
  case events =>
    intro other hother
    simp only [intentsOf_append, intentsOf_intent, List.mem_append, List.mem_singleton]
      at hother
    rcases hother with hother | rfl
    · simp [Function.update_of_ne (hnew other hother), h.events other hother]
    · simp [hnone]
  case unique =>
    simp only [intentsOf_append, intentsOf_intent, List.map_append, List.map_cons,
      List.map_nil]
    refine List.Nodup.append h.unique (List.nodup_singleton _) ?_
    simpa [List.disjoint_singleton] using hnew
  case known =>
    intro key hkey
    simp only [intentsOf_append, List.mem_append] at hkey
    simpa using h.known key fun other hother => hkey other (.inl hother)
  case reduced =>
    intro other hother
    simp only [intentsOf_append, intentsOf_intent, List.mem_append, List.mem_singleton]
      at hother
    rcases hother with hother | rfl
    · simpa using h.reduced other hother
    · obtain ⟨state, hstate, -⟩ := reducePaperOrder_nil other
      exact ⟨state, by simpa [hnone] using hstate⟩
  case entries =>
    intro key
    simp only [intentsOf_append, intentsOf_intent, List.mem_append, List.mem_singleton]
    have hold := h.entries key
    by_cases hleg : intent.leg = .entry
    · simp only [hleg, if_true, List.mem_cons, hold]
      constructor
      · rintro (rfl | ⟨other, hother, hentry⟩)
        · exact ⟨intent, .inr rfl, hleg, rfl⟩
        · exact ⟨other, .inl hother, hentry⟩
      · rintro ⟨other, hother | rfl, hentry⟩
        · exact .inr ⟨other, hother, hentry⟩
        · exact .inl hentry.2.symm
    · simp only [hleg, if_false, hold]
      constructor
      · rintro ⟨other, hother, hentry⟩
        exact ⟨other, .inl hother, hentry⟩
      · rintro ⟨other, hother | rfl, hentry⟩
        · exact ⟨other, hother, hentry⟩
        · exact absurd hentry.1 hleg

theorem Tracks.event {operations : List (Operation D)} {event : PaperOrderEvent D}
    (h : r.Tracks operations) (hstep : step costs r (.event event) = .ok r') :
    r'.Tracks (operations ++ [Operation.event event]) := by
  obtain ⟨-, intent, hfind, state, hstate, _, -, _, -, rfl⟩ := step_event_eq_ok.mp hstep
  obtain ⟨hintent, hkey⟩ := h.find.mp hfind
  constructor
  case intents => simpa using h.intents
  case events =>
    intro other hother
    simp only [intentsOf_append, intentsOf_event, List.append_nil] at hother
    rw [eventsOf_append, eventsOf_event]
    by_cases hsame : other.sha256 = intent.sha256
    · simp [hsame, ← hkey, h.events intent hintent]
    · have hne : ¬event.intentSha256 = other.sha256 := by
        intro heq
        exact hsame (heq.symm.trans hkey.symm)
      simp [Function.update_of_ne hsame, hne, h.events other hother]
  case unique => simpa using h.unique
  case known =>
    intro key hother
    simp only [intentsOf_append, intentsOf_event, List.append_nil] at hother
    have hne : ¬event.intentSha256 = key := by
      intro heq
      exact hother intent hintent (hkey.trans heq)
    simp [eventsOf_event, hne, h.known key hother]
  case reduced =>
    intro other hother
    simp only [intentsOf_append, intentsOf_event, List.append_nil] at hother
    rw [eventsOf_append, eventsOf_event]
    by_cases hsame : other.sha256 = intent.sha256
    · have heq : other = intent :=
        eq_of_key_eq (fun item : PaperOrderIntent D => item.sha256) h.unique hother
          hintent hsame
      subst heq
      exact ⟨state, by simpa [← hkey, h.events other hother] using hstate⟩
    · have hne : ¬event.intentSha256 = other.sha256 := by
        intro heq
        exact hsame (heq.symm.trans hkey.symm)
      simpa [hne] using h.reduced other hother
  case entries => simpa using h.entries

theorem Tracks.step {operations : List (Operation D)} {operation : Operation D}
    (h : r.Tracks operations) (hstep : Reconciliation.step costs r operation = .ok r') :
    r'.Tracks (operations ++ [operation]) := by
  cases operation with
  | intent value => exact h.intent hstep
  | event value => exact h.event hstep

/-- **The loop knows its log.** -/
theorem run_tracks {account : AccountSnapshot} {ledger : PaperResourceLedger D}
    {operations : List (Operation D)} (h : run account costs ledger operations = .ok r) :
    r.Tracks operations :=
  foldlM_prefix_invariant (I := fun done r => Reconciliation.Tracks done r)
    (Tracks.start account ledger) (fun _ _ _ _ ht hstep => ht.step hstep) h

end Reconciliation

/-- A reconciled session: its log replays to its own ledger. -/
theorem PaperSession.reconcile_eq_ok {session : PaperSession D} :
    session.reconcile = .ok () ↔
      session.costs.contains session.ledger.tradeDate = true ∧
      (∃ initial, initializePaperLedger session.account session.ledger.tradeDate = .ok initial ∧
        ∃ r, Reconciliation.run session.account session.costs initial session.operations =
          .ok r ∧ r.ledger = session.ledger) ∧
      (session.markets.map (·.symbol)).Pairwise (· < ·) := by
  simp only [PaperSession.reconcile, bind_eq_ok, require_eq_ok]
  constructor
  · rintro ⟨-, hcosts, initial, hinitial, r, hr, -, hledger, hmarkets⟩
    exact ⟨hcosts, ⟨initial, hinitial, r, hr, hledger⟩, hmarkets⟩
  · rintro ⟨hcosts, ⟨initial, hinitial, r, hr, hledger⟩, hmarkets⟩
    exact ⟨(), hcosts, initial, hinitial, r, hr, (), hledger, hmarkets⟩

/-! ## Sums over the orders of a log -/

/-- The state an order has reached in a log. -/
def orderState (operations : List (Operation D)) (intent : PaperOrderIntent D) :
    Except Raised (PaperOrderState D) :=
  reducePaperOrder intent (eventsOf operations intent.sha256)

/-- A reconciled event moves one open order of the log to its next state, and
the ledger by that order's settlement. -/
theorem Reconciliation.Tracks.event_step {costs : CostPolicy} {r r' : Reconciliation D}
    {operations : List (Operation D)} {event : PaperOrderEvent D}
    (h : r.Tracks operations)
    (hstep : Reconciliation.step costs r (.event event) = .ok r') :
    ∃ intent ∈ intentsOf operations, event.intentSha256 = intent.sha256 ∧
      ∃ before state, orderState operations intent = .ok before ∧
        before.status.isTerminal = false ∧
        orderState (operations ++ [Operation.event event]) intent = .ok state ∧
        Reconciliation.settle r.ledger intent state costs = .ok r'.ledger := by
  obtain ⟨-, intent, hfind, state, hstate, _, -, _, hsettle, rfl⟩ := step_event_eq_ok.mp hstep
  obtain ⟨hintent, hkey⟩ := h.find.mp hfind
  rw [h.events intent hintent] at hstate
  obtain ⟨before, hbefore, hopen⟩ := reducePaperOrder_before hstate
  have hafter : orderState (operations ++ [Operation.event event]) intent = .ok state := by
    simpa [orderState, eventsOf_event, hkey] using hstate
  exact ⟨intent, hintent, hkey.symm, before, state, hbefore, hopen, hafter, hsettle⟩

section

variable {M : Type} [AddCommMonoid M]

/-- A sum over the orders of a log of what each contributes in its state. -/
def orderTotal (f : PaperOrderIntent D → Except Raised (PaperOrderState D) → M)
    (operations : List (Operation D)) : M :=
  ((intentsOf operations).map fun intent => f intent (orderState operations intent)).sum

variable {f : PaperOrderIntent D → Except Raised (PaperOrderState D) → M}
  {operations : List (Operation D)}

theorem orderTotal_intent {intent : PaperOrderIntent D} :
    orderTotal f (operations ++ [Operation.intent intent]) =
      orderTotal f operations + f intent (orderState operations intent) := by
  simp [orderTotal, orderState]

theorem orderTotal_event {intent : PaperOrderIntent D} {event : PaperOrderEvent D}
    (hunique : ((intentsOf operations).map (·.sha256)).Nodup)
    (hintent : intent ∈ intentsOf operations)
    (haddressed : event.intentSha256 = intent.sha256) :
    orderTotal f (operations ++ [Operation.event event]) + f intent (orderState operations intent) =
      orderTotal f operations +
        f intent (orderState (operations ++ [Operation.event event]) intent) := by
  have hintents : intentsOf (operations ++ [Operation.event event]) = intentsOf operations := by
    simp
  rw [orderTotal, hintents]
  refine sum_map_exchange (fun item : PaperOrderIntent D => item.sha256)
    (g := fun intent => f intent (orderState operations intent)) hunique hintent ?_
  intro other _ hne
  have hother : ¬event.intentSha256 = other.sha256 := by
    intro heq
    exact hne (heq.symm.trans haddressed)
  simp [orderState, eventsOf_event, hother]

end

end MiniLakehouse
