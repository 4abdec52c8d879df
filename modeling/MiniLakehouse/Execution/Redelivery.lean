import MiniLakehouse.Execution.Liquidity

/-!
# Redelivered commands

Every command recognises its own repetition by what its first delivery has left: the
arbitration of an entry, the reservation that an exit binds, the cursor of a quote, the
terminal status of an order.  The trade date and the log only ever grow from the
session, so that an entry is recognised after any later commands as well.
-/

namespace MiniLakehouse

variable {D : Type} [Hashing D]

open PaperSession

namespace PaperSession

variable {session result : PaperSession D} {configuration : TradingConfiguration}

/-! ## What a command keeps -/

/-- No operation moves the ledger to another date. -/
theorem append_tradeDate {operation : Operation D} (h : session.append operation = .ok result) :
    result.ledger.tradeDate = session.ledger.tradeDate := by
  obtain ⟨ledger, hledger, rfl⟩ := append_eq_ok.mp h
  change ledger.tradeDate = session.ledger.tradeDate
  cases operation with
  | intent intent =>
      simp only [nextLedger, Reconciliation.reserve] at hledger
      split at hledger
      · obtain ⟨-, -, -, -, _, -, hexchange⟩ := reservePaperEntry_ok hledger
        exact hexchange.tradeDate
      · obtain ⟨-, -, _, -, -, -, -, _, -, hexchange⟩ := reservePaperExit_ok hledger
        exact hexchange.tradeDate
  | event event =>
      simp only [nextLedger] at hledger
      split at hledger
      · cases hledger
      · simp only [bind_eq_ok, Reconciliation.settle] at hledger
        obtain ⟨state, -, hsettle⟩ := hledger
        split at hsettle
        · split at hsettle
          · obtain ⟨-, -, _, -, -, -, -, _, -, hexchange⟩ := settlePaperEntry_ok hsettle
            exact hexchange.tradeDate
          · obtain ⟨-, -, _, -, -, -, -, _, -, hexchange⟩ := settlePaperExit_ok hsettle
            exact hexchange.tradeDate
        · obtain rfl := Except.ok.inj hsettle
          rfl

theorem finish_tradeDate {current : PaperSession D} (h : finish session current = .ok result)
    (hcurrent : current.ledger.tradeDate = session.ledger.tradeDate) :
    result.ledger.tradeDate = session.ledger.tradeDate := by
  obtain ⟨-, rfl⟩ | ⟨-, rfl, -⟩ := finish_ok h
  · rfl
  · exact hcurrent

theorem place_tradeDate {intent : PaperOrderIntent D} (h : session.place intent = .ok result) :
    result.ledger.tradeDate = session.ledger.tradeDate := by
  simp only [place, bind_eq_ok] at h
  obtain ⟨planned, hplanned, accepted, -, current, hcurrent, hfinish⟩ := h
  exact finish_tradeDate hfinish ((append_tradeDate hcurrent).trans (append_tradeDate hplanned))

theorem expireOrder_tradeDate {at' : Instant} {intent : PaperOrderIntent D}
    (h : expireOrder at' session intent = .ok result) :
    result.ledger.tradeDate = session.ledger.tradeDate := by
  simp only [expireOrder, bind_eq_ok] at h
  obtain ⟨state, -, h⟩ := h
  split at h
  · simp only [bind_eq_ok] at h
    obtain ⟨event, -, happend⟩ := h
    exact append_tradeDate happend
  · obtain rfl := Except.ok.inj h
    rfl

end PaperSession

/-- A command leaves the trade date of its session. -/
theorem PaperCommand.run_tradeDate {configuration : TradingConfiguration}
    {session result : PaperSession D} {command : PaperCommand D}
    (h : command.run configuration session = .ok result) :
    result.ledger.tradeDate = session.ledger.tradeDate := by
  cases command with
  | submitEntry request readiness =>
      simp only [run, PaperSession.submitEntry, bind_eq_ok] at h
      obtain ⟨admitted, -, h⟩ := h
      cases admitted with
      | none =>
          obtain rfl := Except.ok.inj h
          rfl
      | some intent => exact place_tradeDate h
  | submitExit entry market =>
      simp only [run, PaperSession.submitExit, bind_eq_ok] at h
      obtain ⟨admitted, -, h⟩ := h
      cases admitted with
      | none =>
          obtain rfl := Except.ok.inj h
          rfl
      | some intent => exact place_tradeDate h
  | processQuote market =>
      obtain rfl | ⟨previous, policy, context, current, budgets, -, -, -, hrun, hfinish⟩ :=
        processQuote_ok h
      · rfl
      · have hcurrent : current.ledger.tradeDate = session.ledger.tradeDate := by
          apply foldlM_prefix_invariant (I := fun _ state =>
            state.1.ledger.tradeDate = session.ledger.tradeDate) rfl _ hrun
          intro _ _ state state' hstate hstep
          obtain rfl | ⟨-, -, event, -, happend, -⟩ := matchOrder_ok hstep
          · exact hstate
          · exact (append_tradeDate happend).trans hstate
        exact finish_tradeDate hfinish hcurrent
  | advanceClock at' =>
      simp only [run, PaperSession.advanceClock, bind_eq_ok] at h
      obtain ⟨current, hrun, hfinish⟩ := h
      have hcurrent : current.ledger.tradeDate = session.ledger.tradeDate := by
        apply foldlM_prefix_invariant (I := fun _ middle =>
          middle.ledger.tradeDate = session.ledger.tradeDate) rfl _ hrun
        intro _ _ middle middle' hmiddle hstep
        exact (expireOrder_tradeDate hstep).trans hmiddle
      exact finish_tradeDate hfinish hcurrent
  | cancelOrder intent at' reason =>
      simp only [run, PaperSession.cancelOrder, bind_eq_ok] at h
      obtain ⟨-, -, state, -, h⟩ := h
      split at h
      · obtain rfl := Except.ok.inj h
        rfl
      · simp only [bind_eq_ok] at h
        obtain ⟨event, -, current, happend, hfinish⟩ := h
        exact finish_tradeDate hfinish (append_tradeDate happend)

/-- What a session keeps of an earlier one: the account, the date and the log so far. -/
structure Continues (session later : PaperSession D) : Prop where
  account : later.account = session.account
  costs : later.costs = session.costs
  tradeDate : later.ledger.tradeDate = session.ledger.tradeDate
  operations : session.operations <+: later.operations

theorem Continues.refl (session : PaperSession D) : Continues session session :=
  ⟨rfl, rfl, rfl, List.prefix_rfl⟩

theorem Continues.trans {first second third : PaperSession D} (h : Continues first second)
    (h' : Continues second third) : Continues first third where
  account := h'.account.trans h.account
  costs := h'.costs.trans h.costs
  tradeDate := h'.tradeDate.trans h.tradeDate
  operations := h.operations.trans h'.operations

theorem PaperCommand.run_continues (configuration : TradingConfiguration)
    (command : PaperCommand D) {session result : PaperSession D}
    (h : command.run configuration session = .ok result) : Continues session result := by
  have hdate := run_tradeDate h
  obtain rfl | ⟨operations, -, hcommitted⟩ := run_ok h
  · exact .refl _
  · exact ⟨hcommitted.account, hcommitted.costs, hdate, operations, hcommitted.operations.symm⟩

/-- The intents of a log stay in the log. -/
theorem Continues.intents {session later : PaperSession D} (h : Continues session later)
    {intent : PaperOrderIntent D} (hintent : intent ∈ session.intents) :
    intent ∈ later.intents := by
  obtain ⟨more, hmore⟩ := h.operations
  rw [PaperSession.intents, ← hmore, intentsOf_append]
  exact List.mem_append_left _ hintent

namespace PaperSession

variable {session result : PaperSession D} {configuration : TradingConfiguration}

/-! ## Entries -/

/-- **An entry is recognised** by its arbitration, from any continuation of the session
that it was delivered to. -/
theorem admitEntry_again {request : PaperExecutionRequest D} {readiness : PaperReadiness D}
    {admitted : Option (PaperOrderIntent D)} {later : PaperSession D}
    (h : session.admitEntry request readiness configuration = .ok admitted)
    (hcontinues : Continues session later)
    (hplanned : admitted.isSome = true → ∃ item ∈ later.intents, item.leg = .entry ∧
      item.arbitrationSha256 = request.arbitration.sha256) :
    later.admitEntry request readiness configuration = .ok none := by
  unfold admitEntry at h ⊢
  split at h
  · next hmode => rw [if_pos hmode]; rfl
  · next hmode =>
      rw [if_neg hmode]
      split at h
      · cases h
      · next lineage hlineage =>
          simp only [bind_eq_ok, require_eq_ok] at h
          obtain ⟨_, hmatch, resolved, hresolved, _, hresearch, h⟩ := h
          rw [← hcontinues.account, ← hcontinues.costs, ← hcontinues.tradeDate] at hmatch
          rw [← hcontinues.costs, ← hcontinues.tradeDate] at hresolved
          have hknown : (later.intents.any fun item => item.leg == .entry &&
              item.arbitrationSha256 == request.arbitration.sha256) = true := by
            apply List.any_eq_true.mpr
            split at h
            · next hany =>
                obtain ⟨item, hitem, hsame⟩ := List.any_eq_true.mp hany
                exact ⟨item, hcontinues.intents hitem, hsame⟩
            · have hsome : admitted.isSome = true := by
                simp only [bind_eq_ok, require_eq_ok] at h
                obtain ⟨_, -, policy, -, gate, -, arbitration, -, h⟩ := h
                split at h
                · simp only [bind_eq_ok] at h
                  obtain ⟨_, -, plan, -, h⟩ := h
                  split at h
                  · cases h
                  · obtain rfl := Except.ok.inj h
                    rfl
                · cases h
              obtain ⟨item, hitem, hleg, hsame⟩ := hplanned hsome
              exact ⟨item, hitem, by simp [hleg, hsame]⟩
          simp only [require_of hmatch, hresolved, ok_bind, require_of hresearch, hknown,
            if_true]
          rfl

/-- A finished session with a longer log has been committed. -/
theorem finish_longer {current : PaperSession D} (h : finish session current = .ok result)
    (hlonger : session.operations.length < current.operations.length) :
    result = { current with revision := session.revision + 1 } ∧ result.reconcile = .ok () := by
  obtain ⟨rfl, -⟩ | ⟨-, hresult, hreconcile⟩ := finish_ok h
  · exact absurd hlonger (lt_irrefl _)
  · exact ⟨hresult, hreconcile⟩

/-- An event that is accepted leaves its order in the event's status. -/
theorem status_of_event {intent : PaperOrderIntent D} {events : List (PaperOrderEvent D)}
    {event : PaperOrderEvent D} {state : PaperOrderState D}
    (h : reducePaperOrder intent (events ++ [event]) = .ok state) :
    state.status = event.eventType.status := by
  obtain ⟨r, -, -, hstate⟩ := reducePaperOrder_snoc.mp h
  rw [hstate]
  rfl

/-- **A placed order** has taken its reservation, and is in the log. -/
theorem place_reserved {intent : PaperOrderIntent D} (h : session.place intent = .ok result) :
    Reconciliation.reserve session.ledger intent = .ok result.ledger ∧
      intent ∈ result.intents := by
  simp only [place, bind_eq_ok] at h
  obtain ⟨planned, hplanned, accepted, haccepted, current, hcurrent, hfinish⟩ := h
  obtain ⟨ledger, hreserve, rfl⟩ := append_eq_ok.mp hplanned
  obtain ⟨ledger', hnext, rfl⟩ := append_eq_ok.mp hcurrent
  obtain ⟨rfl, -⟩ := finish_longer hfinish (by simp)
  constructor
  · -- The acceptance settles nothing.
    have hsame : ledger' = ledger := by
      simp only [nextLedger] at hnext
      split at hnext
      · cases hnext
      · simp only [bind_eq_ok] at hnext
        obtain ⟨state, hstate, hsettle⟩ := hnext
        obtain ⟨_, -, hfields, -⟩ := lifecycleEvent_eq_ok.mp haccepted
        have hstatus := status_of_event hstate
        have htype : accepted.eventType = .accepted := by
          rw [hfields]
          rfl
        rw [htype] at hstatus
        rw [Reconciliation.settle, hstatus] at hsettle
        exact (Except.ok.inj hsettle).symm
    rw [hsame]
    exact hreserve
  · simp [PaperSession.intents, intentsOf, Operation.asIntent]

/-- **A delivered entry** is recognised in every later session. -/
theorem submitEntry_again {request : PaperExecutionRequest D} {readiness : PaperReadiness D}
    (h : session.submitEntry request readiness configuration = .ok result)
    {later : PaperSession D} (hcontinues : Continues result later) :
    later.submitEntry request readiness configuration = .ok later := by
  have hfirst : Continues session result :=
    PaperCommand.run_continues configuration (.submitEntry request readiness) h
  simp only [submitEntry, bind_eq_ok] at h
  obtain ⟨admitted, hadmitted, hplace⟩ := h
  have hnone : later.admitEntry request readiness configuration = .ok none := by
    apply admitEntry_again hadmitted (hfirst.trans hcontinues)
    intro hsome
    obtain ⟨intent, rfl⟩ := Option.isSome_iff_exists.mp hsome
    obtain ⟨-, -, -, -, policy, context, -, -, hplanned, -⟩ := admitEntry_some hadmitted
    exact ⟨intent, hcontinues.intents (place_reserved hplace).2, hplanned.leg,
      hplanned.arbitration⟩
  simp only [submitEntry, hnone, ok_bind]
  rfl

/-! ## Exits -/

/-- **A delivered exit** has bound the reservation of its entry. -/
theorem submitExit_again {entry : PaperOrderIntent D} {market : PaperMarketSnapshot D}
    (h : session.submitExit entry market configuration = .ok result) :
    result.submitExit entry market configuration = .ok result := by
  have hcontinues : Continues session result :=
    PaperCommand.run_continues configuration (.submitExit entry market) h
  simp only [submitExit, bind_eq_ok] at h
  obtain ⟨admitted, hadmitted, hplace⟩ := h
  cases admitted with
  | none =>
      obtain rfl := Except.ok.inj hplace
      simp only [submitExit, hadmitted, ok_bind]
      rfl
  | some intent =>
      obtain ⟨hentry, request, policy, rfl, -, -, -, hplanned⟩ := admitExit_some hadmitted
      have hreserve := (place_reserved hplace).1
      rw [Reconciliation.reserve, hplanned.leg] at hreserve
      obtain ⟨-, -, item, hitem, hparent, -, -, bound, hbound, hexchange⟩ :=
        reservePaperExit_ok hreserve
      have hkey : item.entryIntentSha256 = request.entryIntent.sha256 :=
        Option.some_inj.mp (hparent.symm.trans hplanned.parent)
      -- The bound cycle is the only one of its entry.
      have hclosed : (result.ledger.reservations.any fun found =>
          found.entryIntentSha256 == request.entryIntent.sha256 && found.status == .open) =
            false := by
        apply List.any_eq_false.mpr
        intro found hfound hopen
        rw [Bool.and_eq_true, beq_iff_eq, beq_iff_eq] at hopen
        obtain ⟨kept, hbefore, hafter⟩ := hexchange.reservations
        have hunique : ((bound :: kept).map (·.entryIntentSha256)).Nodup :=
          (hafter.map _).nodup_iff.mp result.ledger.reservations_nodup
        have hboundKey : bound.entryIntentSha256 = item.entryIntentSha256 := by rw [hbound]
        have hsame : found = bound := by
          apply eq_of_key_eq (fun item : PaperReservation D => item.entryIntentSha256) hunique
          · exact hafter.mem_iff.mp hfound
          · exact List.mem_cons_self ..
          · rw [hopen.1, hboundKey, hkey]
        rw [hsame, hbound] at hopen
        cases hopen.2
      have hnone : result.admitExit request.entryIntent market configuration = .ok none := by
        simp only [admitExit, require_of (hcontinues.intents hentry), ok_bind, hclosed]
        rfl
      simp only [submitExit, hnone, ok_bind]
      rfl

/-! ## Quotes -/

/-- **A delivered quote** is its symbol's cursor. -/
theorem processQuote_again {market : PaperMarketSnapshot D}
    (hunique : (session.markets.map (·.symbol)).Nodup)
    (h : session.processQuote market configuration = .ok result) :
    result.processQuote market configuration = .ok result := by
  have hcontinues : Continues session result :=
    PaperCommand.run_continues configuration (.processQuote market) h
  obtain rfl | ⟨previous, policy, context, current, budgets, hcursor, -, -, hrun, hfinish⟩ :=
    processQuote_ok h
  · exact h
  · have hmarkets : result.markets = session.advanceCursor market := by
      obtain ⟨hsame, rfl⟩ | ⟨-, rfl, -⟩ := finish_ok hfinish
      · exact (congrArg PaperSession.markets hsame :).symm
      · rfl
    have hadvanced : result.cursor market.symbol = some market := by
      rw [cursor, hmarkets, cursor_advanced hunique, if_pos rfl]
    simp only [acceptCursor, bind_eq_ok, require_eq_ok] at hcursor
    obtain ⟨trading, htrading, _, hdate, -⟩ := hcursor
    rw [← hcontinues.tradeDate] at htrading hdate
    have hrepeated : result.acceptCursor market configuration = .ok .repeated := by
      simp only [acceptCursor, htrading, ok_bind, require_of hdate, hadvanced, if_true]
      rfl
    simp only [processQuote, hrepeated, ok_bind]
    rfl

/-! ## Deadlines and cancellations -/

/-- An order that a clock does not expire: it has ended, or its deadline is later. -/
def Spared (at' : Instant) (session : PaperSession D) (intent : PaperOrderIntent D) : Prop :=
  ∃ state, reducePaperOrder intent (session.events intent) = .ok state ∧
    (state.status.isTerminal = true ∨ at' < intent.expiresAt)

theorem Spared.expireOrder {at' : Instant} {intent : PaperOrderIntent D}
    (h : Spared at' session intent) :
    PaperSession.expireOrder at' session intent = .ok session := by
  obtain ⟨state, hstate, hspared⟩ := h
  have hkept : (!state.status.isTerminal && intent.expiresAt ≤ at') = false := by
    rcases hspared with hterminal | hlater
    · rw [hterminal]
      rfl
    · simp [hlater]
  simp only [PaperSession.expireOrder, hstate, ok_bind, hkept]
  rfl

/-- One order of the loop is spared afterwards, and so are those that were. -/
theorem expireOrder_spares {at' : Instant} {intent : PaperOrderIntent D}
    (h : expireOrder at' session intent = .ok result) :
    result.intents = session.intents ∧ Spared at' result intent ∧
      ∀ other, other.sha256 ≠ intent.sha256 → Spared at' session other →
        Spared at' result other := by
  simp only [expireOrder, bind_eq_ok] at h
  obtain ⟨state, hstate, h⟩ := h
  split at h
  · simp only [bind_eq_ok] at h
    obtain ⟨event, hevent, happend⟩ := h
    obtain ⟨_, -, hfields, after, hafter⟩ := lifecycleEvent_eq_ok.mp hevent
    have hoperations := (append_grown happend).operations
    have haddressed : event.intentSha256 = intent.sha256 := by
      rw [hfields]
      rfl
    refine ⟨?_, ⟨after, ?_, .inl ?_⟩, ?_⟩
    · simp [PaperSession.intents, hoperations]
    · rw [PaperSession.events, hoperations, eventsOf_append, eventsOf_event, if_pos haddressed]
      exact hafter
    · have htype : event.eventType = .expired := by
        rw [hfields]
        rfl
      rw [status_of_event hafter, htype]
      rfl
    · intro other hne hspared
      rw [Spared, PaperSession.events, hoperations, eventsOf_append, eventsOf_event,
        if_neg fun hsame => hne (hsame.symm.trans haddressed), List.append_nil]
      exact hspared
  · next hkept =>
      obtain rfl := Except.ok.inj h
      refine ⟨rfl, ⟨state, hstate, ?_⟩, fun _ _ hspared => hspared⟩
      cases hterminal : state.status.isTerminal with
      | true => exact .inl rfl
      | false => exact .inr (by simpa [hterminal] using hkept)

/-- The loop spares its orders, and keeps sparing others. -/
theorem expireOrders_spare {at' : Instant} {intents : List (PaperOrderIntent D)}
    (hunique : (intents.map (·.sha256)).Nodup)
    (h : intents.foldlM (expireOrder at') session = .ok result) :
    result.intents = session.intents ∧ (∀ intent ∈ intents, Spared at' result intent) ∧
      ∀ other, (∀ intent ∈ intents, other.sha256 ≠ intent.sha256) → Spared at' session other →
        Spared at' result other := by
  induction intents generalizing session with
  | nil =>
      obtain rfl := Except.ok.inj h
      exact ⟨rfl, by simp, fun _ _ hspared => hspared⟩
  | cons intent rest ih =>
      obtain ⟨next, hstep, hrest⟩ := bind_eq_ok.mp h
      rw [List.map_cons, List.nodup_cons] at hunique
      obtain ⟨hintents, hspared, hkept⟩ := expireOrder_spares hstep
      obtain ⟨hintents', hspared', hkept'⟩ := ih hunique.2 hrest
      refine ⟨hintents'.trans hintents, ?_, ?_⟩
      · intro found hfound
        rcases List.mem_cons.mp hfound with rfl | hlater
        · apply hkept' found _ hspared
          intro later hlater hsame
          exact hunique.1 (List.mem_map.mpr ⟨later, hlater, hsame.symm⟩)
        · exact hspared' found hlater
      · intro other hne hother
        apply hkept' other (fun later hlater => hne later (List.mem_cons_of_mem _ hlater))
        exact hkept other (hne intent (List.mem_cons_self ..)) hother

/-- **A delivered clock** spares every order. -/
theorem advanceClock_again {at' : Instant}
    (hunique : (session.intents.map (·.sha256)).Nodup)
    (h : session.advanceClock at' = .ok result) : result.advanceClock at' = .ok result := by
  simp only [advanceClock, bind_eq_ok] at h
  obtain ⟨current, hrun, hfinish⟩ := h
  obtain ⟨hintents, hspared, -⟩ := expireOrders_spare hunique hrun
  have hoperations : result.operations = current.operations := by
    obtain ⟨hsame, rfl⟩ | ⟨-, rfl, -⟩ := finish_ok hfinish
    · exact (congrArg PaperSession.operations hsame :).symm
    · rfl
  have hresult : result.intents = session.intents := by
    rw [PaperSession.intents, hoperations]
    exact hintents
  have hagain : ∀ intents : List (PaperOrderIntent D), (∀ intent ∈ intents, intent ∈ session.intents) →
      intents.foldlM (expireOrder at') result = .ok result := by
    intro intents hknown
    induction intents with
    | nil => rfl
    | cons intent rest ih =>
        have hintent : Spared at' result intent := by
          rw [Spared, PaperSession.events, hoperations]
          exact hspared intent (hknown intent (List.mem_cons_self ..))
        rw [List.foldlM_cons, hintent.expireOrder, ok_bind]
        exact ih fun later hlater => hknown later (List.mem_cons_of_mem _ hlater)
  simp only [advanceClock, hresult, hagain session.intents (fun _ h => h), ok_bind, finish, if_true]

/-- **A delivered cancellation** has ended its order. -/
theorem cancelOrder_again {intent : PaperOrderIntent D} {at' : Instant} {reason : String}
    (h : session.cancelOrder intent at' reason = .ok result) :
    result.cancelOrder intent at' reason = .ok result := by
  have hcontinues : Continues session result :=
    PaperCommand.run_continues Trading.configuration (.cancelOrder intent at' reason) h
  simp only [cancelOrder, bind_eq_ok, require_eq_ok] at h
  obtain ⟨_, hintent, state, hstate, h⟩ := h
  have hended : ∃ ended, reducePaperOrder intent (result.events intent) = .ok ended ∧
      ended.status.isTerminal = true := by
    split at h
    · next hterminal =>
        obtain rfl := Except.ok.inj h
        exact ⟨state, hstate, hterminal⟩
    · simp only [bind_eq_ok] at h
      obtain ⟨event, hevent, current, happend, hfinish⟩ := h
      obtain ⟨_, -, hfields, after, hafter⟩ := lifecycleEvent_eq_ok.mp hevent
      have hgrown := (append_grown happend).operations
      obtain ⟨rfl, -⟩ := finish_longer hfinish (by simp [hgrown])
      have haddressed : event.intentSha256 = intent.sha256 := by
        rw [hfields]
        rfl
      have htype : event.eventType = .cancelled := by
        rw [hfields]
        rfl
      refine ⟨after, ?_, ?_⟩
      · change reducePaperOrder intent (eventsOf current.operations intent.sha256) = .ok after
        rw [hgrown, eventsOf_append, eventsOf_event, if_pos haddressed]
        exact hafter
      · rw [status_of_event hafter, htype]
        rfl
  obtain ⟨ended, hreduced, hterminal⟩ := hended
  simp only [cancelOrder, require_of (hcontinues.intents hintent), ok_bind, hreduced, hterminal,
    if_true]
  rfl

end PaperSession

/-- Intents of a reachable session have their own digests. -/
theorem Reachable.intents_unique {session : PaperSession D} (h : Reachable session) :
    (session.intents.map (·.sha256)).Nodup := by
  obtain ⟨-, ⟨initial, -, r, hrun, -⟩, -⟩ := PaperSession.reconcile_eq_ok.mp h.reconciled
  exact (Reconciliation.run_tracks hrun).unique

/-- **Every command recognises its repetition.** -/
theorem PaperCommand.run_again {configuration : TradingConfiguration}
    {session result : PaperSession D} (hsession : Reachable session) {command : PaperCommand D}
    (h : command.run configuration session = .ok result) :
    command.run configuration result = .ok result := by
  cases command with
  | submitEntry request readiness => exact submitEntry_again h (.refl _)
  | submitExit entry market => exact submitExit_again h
  | processQuote market => exact processQuote_again hsession.markets_unique h
  | advanceClock at' => exact advanceClock_again hsession.intents_unique h
  | cancelOrder intent at' reason => exact cancelOrder_again h

/-! ## Runs -/

/-- Commands one after the other, each under its configuration. -/
def PaperSession.runAll (session : PaperSession D)
    (commands : List (TradingConfiguration × PaperCommand D)) : Except Raised (PaperSession D) :=
  commands.foldlM (fun session delivered => delivered.2.run delivered.1 session) session

/-- The same commands, each immediately redelivered any number of times. -/
inductive Redelivers : List (TradingConfiguration × PaperCommand D) →
    List (TradingConfiguration × PaperCommand D) → Prop
  | nil : Redelivers [] []
  | cons {commands delivered : List (TradingConfiguration × PaperCommand D)}
      (command : TradingConfiguration × PaperCommand D) (times : Nat)
      (h : Redelivers commands delivered) :
      Redelivers (command :: commands) (List.replicate (times + 1) command ++ delivered)

theorem PaperSession.runAll_cons {session : PaperSession D}
    {command : TradingConfiguration × PaperCommand D}
    {rest : List (TradingConfiguration × PaperCommand D)} :
    session.runAll (command :: rest) =
      command.2.run command.1 session >>= fun next => next.runAll rest :=
  List.foldlM_cons

/-- Repetitions change nothing. -/
theorem PaperSession.runAll_replicate {session result : PaperSession D}
    (hsession : Reachable session) {command : TradingConfiguration × PaperCommand D}
    (h : command.2.run command.1 session = .ok result) (times : Nat)
    (rest : List (TradingConfiguration × PaperCommand D)) :
    result.runAll (List.replicate times command ++ rest) = result.runAll rest := by
  induction times with
  | zero => rfl
  | succ times ih =>
      rw [List.replicate_succ, List.cons_append, runAll_cons,
        PaperCommand.run_again hsession h, ok_bind]
      exact ih

theorem PaperSession.runAll_continues {session result : PaperSession D}
    {commands : List (TradingConfiguration × PaperCommand D)}
    (h : session.runAll commands = .ok result) : Continues session result := by
  induction commands generalizing session with
  | nil =>
      obtain rfl := Except.ok.inj h
      exact .refl _
  | cons command rest ih =>
      rw [runAll_cons] at h
      obtain ⟨next, hcommand, hrest⟩ := bind_eq_ok.mp h
      exact (PaperCommand.run_continues _ _ hcommand).trans (ih hrest)

/-- **Redelivery changes no run**, whether it succeeds or raises. -/
theorem Redelivers.runAll {commands delivered : List (TradingConfiguration × PaperCommand D)}
    (h : Redelivers commands delivered) {session : PaperSession D} (hsession : Reachable session) :
    session.runAll delivered = session.runAll commands := by
  induction h generalizing session with
  | nil => rfl
  | cons command times _ ih =>
      rw [List.replicate_succ, List.cons_append, PaperSession.runAll_cons,
        PaperSession.runAll_cons]
      cases hrun : command.2.run command.1 session with
      | error raised => rfl
      | ok next =>
          rw [ok_bind, ok_bind, PaperSession.runAll_replicate hsession hrun]
          exact ih (.command command.2 hsession hrun)

/-! ## Idempotence -/

/-- The entries of a log have arbitrations of their own. -/
def EntriesUnique (operations : List (Operation D)) : Prop :=
  (((intentsOf operations).filter (·.leg = .entry)).map (·.arbitrationSha256)).Nodup

theorem Reconciliation.Tracks.entriesUnique {costs : CostPolicy} {r r' : Reconciliation D}
    {operations : List (Operation D)} {operation : Operation D} (h : r.Tracks operations)
    (hunique : EntriesUnique operations) (hstep : Reconciliation.step costs r operation = .ok r') :
    EntriesUnique (operations ++ [operation]) := by
  cases operation with
  | event event => simpa [EntriesUnique] using hunique
  | intent intent =>
      obtain ⟨-, -, hfresh, -⟩ := step_intent_eq_ok.mp hstep
      by_cases hleg : intent.leg = .entry
      · have hnew : ∀ item ∈ intentsOf operations, item.leg = .entry →
            item.arbitrationSha256 ≠ intent.arbitrationSha256 := by
          intro item hitem hentry hsame
          exact hfresh hleg ((h.entries _).mpr ⟨item, hitem, hentry, hsame⟩)
        rw [EntriesUnique, intentsOf_append, intentsOf_intent, List.filter_append,
          List.map_append]
        refine List.Nodup.append hunique ?_ ?_
        · simp [hleg]
        · simpa [hleg, List.disjoint_singleton] using hnew
      · simpa [EntriesUnique, hleg] using hunique

theorem Reachable.entriesUnique {session : PaperSession D} (h : Reachable session) :
    EntriesUnique session.operations := by
  obtain ⟨-, ⟨initial, -, r, hrun, -⟩, -⟩ := PaperSession.reconcile_eq_ok.mp h.reconciled
  have hboth : r.Tracks session.operations ∧ EntriesUnique session.operations :=
    foldlM_prefix_invariant (I := fun done r => Reconciliation.Tracks done r ∧ EntriesUnique done)
      ⟨Reconciliation.Tracks.start session.account initial, by simp [EntriesUnique]⟩
      (fun _ _ _ _ hdone hstep => ⟨hdone.1.step hstep, hdone.1.entriesUnique hdone.2 hstep⟩) hrun
  exact hboth.2

/-- **Paper commands are idempotent under redelivery**: a command that has succeeded
leaves its result, read back from its serialisation or not, as it is; a run ends the same
however often its commands are redelivered at once; a delivered entry is recognised after
any later commands; and one arbitration has one entry. -/
theorem paper_commands_idempotent {session : PaperSession D} (h : Reachable session) :
    (∀ configuration command result,
      PaperCommand.run configuration session command = .ok result →
      command.run configuration result = .ok result ∧ ∃ parsed,
        result.modelValidate = .ok parsed ∧ command.run configuration parsed = .ok result) ∧
    (∀ commands delivered, Redelivers commands delivered →
      session.runAll delivered = session.runAll commands) ∧
    (∀ configuration request readiness result,
      session.submitEntry request readiness configuration = .ok result →
      ∀ commands later, result.runAll commands = .ok later →
        later.submitEntry request readiness configuration = .ok later) ∧
    EntriesUnique session.operations := by
  refine ⟨?_, ?_, ?_, h.entriesUnique⟩
  · intro configuration command result hrun
    have hagain := PaperCommand.run_again h hrun
    have hreconciled := (Reachable.command command h hrun).reconciled
    exact ⟨hagain, result, modelValidate_eq_ok.mpr ⟨hreconciled, rfl⟩, hagain⟩
  · intro commands delivered hredelivers
    exact hredelivers.runAll h
  · intro configuration request readiness result hentry commands later hlater
    exact submitEntry_again hentry (PaperSession.runAll_continues hlater)

/-- The rehearsed entry is redelivered after its order has been filled. -/
theorem paper_commands_idempotent_rehearsal : ∃ submitted filled,
    Rehearsal.opening.submitEntry Rehearsal.request Rehearsal.readiness Trading.configuration =
      .ok submitted ∧
    submitted.processQuote (Rehearsal.quote 2 2 100) Trading.configuration = .ok filled ∧
    filled.revision = 2 ∧
    filled.submitEntry Rehearsal.request Rehearsal.readiness Trading.configuration =
      .ok filled := by
  have hrevision : (Rehearsal.opening.runAll
      [(Trading.configuration, .submitEntry Rehearsal.request Rehearsal.readiness),
        (Trading.configuration, .processQuote (Rehearsal.quote 2 2 100))]).toOption.any
          (·.revision = 2) = true := by
    decide +kernel
  obtain ⟨filled, hfilled, hrevision⟩ := (Option.any_eq_true _ _).mp hrevision
  have hrun := toOption_eq_some.mp hfilled
  rw [PaperSession.runAll_cons] at hrun
  obtain ⟨submitted, hsubmitted, hrest⟩ := bind_eq_ok.mp hrun
  obtain ⟨-, -, hentry, -⟩ := paper_commands_idempotent (.empty Rehearsal.opening_empty)
  have hquote := hrest
  rw [PaperSession.runAll_cons] at hquote
  obtain ⟨quoted, hquoted, hdone⟩ := bind_eq_ok.mp hquote
  obtain rfl := Except.ok.inj hdone
  exact ⟨submitted, quoted, hsubmitted, hquoted, of_decide_eq_true hrevision,
    hentry _ _ _ _ hsubmitted _ _ hrest⟩

end MiniLakehouse
