import MiniLakehouse.Execution.Fills
import MiniLakehouse.Execution.Log
import MiniLakehouse.Execution.Planning
import MiniLakehouse.Configuration.Trading

/-!
# What a command writes

A successful command either leaves the session as it is or commits it with more
operations at the end of its log (`run_ok`): a planned order with its
acceptance, or lifecycle events of orders already known.  `Reachable` are the
sessions that successful commands reach from an account's empty session.
-/

namespace MiniLakehouse

variable {D : Type} [Hashing D]

namespace PaperSession

variable {session result : PaperSession D}

/-- Operations appended to a session, nothing else but its ledger changed. -/
structure Grown (session result : PaperSession D) (operations : List (Operation D)) : Prop where
  account : result.account = session.account
  costs : result.costs = session.costs
  revision : result.revision = session.revision
  markets : result.markets = session.markets
  operations : result.operations = session.operations ++ operations

theorem Grown.refl (session : PaperSession D) : Grown session session [] :=
  ⟨rfl, rfl, rfl, rfl, by simp⟩

theorem Grown.trans {middle : PaperSession D} {first second : List (Operation D)}
    (h : Grown session middle first) (h' : Grown middle result second) :
    Grown session result (first ++ second) where
  account := h'.account.trans h.account
  costs := h'.costs.trans h.costs
  revision := h'.revision.trans h.revision
  markets := h'.markets.trans h.markets
  operations := by rw [h'.operations, h.operations, List.append_assoc]

theorem append_eq_ok {operation : Operation D} :
    session.append operation = .ok result ↔
      ∃ ledger, session.nextLedger operation = .ok ledger ∧
        { session with
          ledger := ledger, operations := session.operations ++ [operation] } = result := by
  simp only [append, bind_eq_ok, pure_eq_ok]

theorem append_grown {operation : Operation D} (h : session.append operation = .ok result) :
    Grown session result [operation] := by
  obtain ⟨ledger, -, rfl⟩ := append_eq_ok.mp h
  exact ⟨rfl, rfl, rfl, rfl, rfl⟩

theorem modelValidate_eq_ok :
    session.modelValidate = .ok result ↔ session.reconcile = .ok () ∧ session = result := by
  simp only [modelValidate, bind_eq_ok, pure_eq_ok]
  constructor
  · rintro ⟨_, h, heq⟩
    exact ⟨h, heq⟩
  · rintro ⟨h, heq⟩
    exact ⟨(), h, heq⟩

/-- `_finish` keeps an unchanged session, or validates the changed one. -/
theorem finish_ok {previous current : PaperSession D} (h : finish previous current = .ok result) :
    (current = previous ∧ result = previous) ∨
      (current ≠ previous ∧ result = { current with revision := previous.revision + 1 } ∧
        result.reconcile = .ok ()) := by
  unfold finish at h
  split at h
  · next heq =>
      cases h
      exact .inl ⟨heq, rfl⟩
  · next hne =>
      obtain ⟨hreconcile, rfl⟩ := modelValidate_eq_ok.mp h
      exact .inr ⟨hne, rfl, hreconcile⟩

/-- A validated session with more operations at the end of its log. -/
structure Committed (session result : PaperSession D) (operations : List (Operation D))
    (markets : List (PaperMarketSnapshot D)) : Prop where
  account : result.account = session.account
  costs : result.costs = session.costs
  revision : result.revision = session.revision + 1
  operations : result.operations = session.operations ++ operations
  markets : result.markets = markets
  reconciled : result.reconcile = .ok ()

/-- Finishing a grown session, its cursors moved or not, commits it. -/
theorem finish_committed {current : PaperSession D} {operations : List (Operation D)}
    {markets : List (PaperMarketSnapshot D)} (hgrown : Grown session current operations)
    (h : finish session { current with markets := markets } = .ok result) :
    result = session ∨ Committed session result operations markets := by
  rcases finish_ok h with ⟨-, rfl⟩ | ⟨-, hresult, hreconcile⟩
  · exact .inl rfl
  · refine .inr ⟨?_, ?_, ?_, ?_, ?_, hreconcile⟩
    all_goals rw [hresult]
    · exact hgrown.account
    · exact hgrown.costs
    · exact hgrown.operations

/-- Finishing a grown session commits it with its cursors as they were. -/
theorem finish_grown {current : PaperSession D} {operations : List (Operation D)}
    (hgrown : Grown session current operations) (h : finish session current = .ok result) :
    result = session ∨ Committed session result operations session.markets := by
  have hsame : current = { current with markets := session.markets } := by
    rw [← hgrown.markets]
  rw [hsame] at h
  exact finish_committed hgrown h

/-- A placed order and its acceptance. -/
theorem place_ok {intent : PaperOrderIntent D} (h : session.place intent = .ok result) :
    ∃ accepted, lifecycleEvent intent [] .accepted intent.createdAt none none = .ok accepted ∧
      (result = session ∨
        Committed session result [.intent intent, .event accepted] session.markets) := by
  simp only [place, bind_eq_ok] at h
  obtain ⟨planned, hplanned, accepted, haccepted, current, hcurrent, hfinish⟩ := h
  exact ⟨accepted, haccepted,
    finish_grown ((append_grown hplanned).trans (append_grown hcurrent)) hfinish⟩

/-- Events without a fill, nothing else, have been appended. -/
def Idled (session result : PaperSession D) : Prop :=
  ∃ events : List (PaperOrderEvent D), (∀ event ∈ events, event.fillEvidence = none) ∧
    Grown session result (events.map .event)

theorem lifecycleEvent_idle {intent : PaperOrderIntent D} {events : List (PaperOrderEvent D)}
    {eventType : PaperEventType} {at' : Instant} {reason : Option String}
    {event : PaperOrderEvent D}
    (h : lifecycleEvent intent events eventType at' reason none = .ok event) :
    event.fillEvidence = none := by
  obtain ⟨_, -, hfields, -⟩ := lifecycleEvent_eq_ok.mp h
  rw [hfields]
  rfl

theorem Idled.refl (session : PaperSession D) : Idled session session :=
  ⟨[], by simp, Grown.refl session⟩

theorem Idled.snoc {middle : PaperSession D} {event : PaperOrderEvent D}
    (h : Idled session middle) (hidle : event.fillEvidence = none)
    (happend : middle.append (.event event) = .ok result) : Idled session result := by
  obtain ⟨events, hevents, hgrown⟩ := h
  refine ⟨events ++ [event], ?_, ?_⟩
  · intro other hother
    rcases List.mem_append.mp hother with hold | hnew
    · exact hevents other hold
    · rw [List.mem_singleton.mp hnew]
      exact hidle
  · rw [List.map_append]
    exact hgrown.trans (append_grown happend)

theorem expireOrder_idled {at' : Instant} {middle : PaperSession D}
    {intent : PaperOrderIntent D} (h : Idled session middle)
    (hstep : expireOrder at' middle intent = .ok result) : Idled session result := by
  simp only [expireOrder, bind_eq_ok] at hstep
  obtain ⟨state, -, hstep⟩ := hstep
  split at hstep
  · simp only [bind_eq_ok] at hstep
    obtain ⟨event, hevent, happend⟩ := hstep
    exact h.snoc (lifecycleEvent_idle hevent) happend
  · cases hstep
    exact h

/-- A matched order leaves its session and budgets, or appends one event. -/
theorem matchOrder_ok {market : PaperMarketSnapshot D} {policy : PaperExecutionVersion}
    {context : ContextVersion} {state state' : PaperSession D × (OrderAction → Int)}
    {intent : PaperOrderIntent D}
    (h : matchOrder market policy context state intent = .ok state') :
    (state' = state) ∨
      (intent.symbol = market.symbol ∧ intent.createdAt ≤ market.observedAt ∧
        ∃ event, matchQuote intent (state.1.events intent) market policy context
            (state.2 intent.action) = .ok (some event) ∧
          state.1.append (.event event) = .ok state'.1 ∧
          state'.2 = match event.fillEvidence with
            | none => state.2
            | some fill => Function.update state.2 intent.action
                (state.2 intent.action - fill.filledQuantity)) := by
  obtain ⟨current, budgets⟩ := state
  simp only [matchOrder] at h
  split at h
  · cases h
    exact .inl rfl
  · next hmatches =>
      rw [not_or, not_not, not_lt] at hmatches
      simp only [bind_eq_ok] at h
      obtain ⟨outcome, hmatch, h⟩ := h
      cases outcome with
      | none =>
          cases h
          exact .inl rfl
      | some event =>
          simp only [bind_eq_ok] at h
          obtain ⟨appended, happend, h⟩ := h
          refine .inr ⟨hmatches.1, hmatches.2, event, hmatch, ?_⟩
          cases hfill : event.fillEvidence with
          | none =>
              simp only [hfill] at h
              cases h
              exact ⟨happend, rfl⟩
          | some fill =>
              simp only [hfill] at h
              cases h
              exact ⟨happend, rfl⟩

/-- **Matched in turn.**  The orders matched against a quote have appended fills
of that quote, each side within its budget, and orders that ended. -/
structure Matched (market : PaperMarketSnapshot D) (policy : PaperExecutionVersion)
    (budgets : OrderAction → Int) (session : PaperSession D)
    (orders : List (PaperOrderIntent D)) (state : PaperSession D × (OrderAction → Int))
    (events : List (PaperOrderEvent D)) : Prop where
  grown : Grown session state.1 (events.map .event)
  filled : ∀ event ∈ events, ∀ fill ∈ event.fillEvidence, ∃ intent ∈ orders, ∃ available,
    FilledFrom market policy intent available event fill
  left : ∀ action, 0 ≤ budgets action → 0 ≤ state.2 action
  spent : ∀ action, ((((fillsOf events).filter (·.action == action)).map
    (·.filledQuantity)).sum : Nat) + state.2 action = budgets action

theorem Matched.start (market : PaperMarketSnapshot D) (policy : PaperExecutionVersion)
    (budgets : OrderAction → Int) (session : PaperSession D) :
    Matched market policy budgets session [] (session, budgets) [] where
  grown := Grown.refl session
  filled := by simp
  left := fun _ h => h
  spent := by simp

theorem Matched.step {market : PaperMarketSnapshot D} {policy : PaperExecutionVersion}
    {context : ContextVersion} {budgets : OrderAction → Int}
    {state state' : PaperSession D × (OrderAction → Int)} {intent : PaperOrderIntent D}
    {orders : List (PaperOrderIntent D)} {events : List (PaperOrderEvent D)}
    (h : Matched market policy budgets session orders state events)
    (hstep : matchOrder market policy context state intent = .ok state') :
    ∃ events', Matched market policy budgets session (orders ++ [intent]) state' events' := by
  have hfilled : ∀ event ∈ events, ∀ fill ∈ event.fillEvidence,
      ∃ order ∈ orders ++ [intent], ∃ available,
        FilledFrom market policy order available event fill := by
    intro event hevent fill hfill
    obtain ⟨order, horder, hfrom⟩ := h.filled event hevent fill hfill
    exact ⟨order, List.mem_append_left _ horder, hfrom⟩
  rcases matchOrder_ok hstep with rfl | ⟨-, -, event, hmatch, happend, hbudget⟩
  · exact ⟨events, h.grown, hfilled, h.left, h.spent⟩
  refine ⟨events ++ [event], ?_⟩
  have hgrown : Grown session state'.1 ((events ++ [event]).map .event) := by
    rw [List.map_append]
    exact h.grown.trans (append_grown happend)
  rcases matchQuote_some hmatch with hidle | ⟨fill, hfill, hfrom⟩
  · have hsame : state'.2 = state.2 := by rw [hbudget, hidle]
    constructor
    case grown => exact hgrown
    case filled =>
      intro other hother fill hfill
      rcases List.mem_append.mp hother with hold | hnew
      · exact hfilled other hold fill hfill
      · rw [List.mem_singleton.mp hnew, hidle] at hfill
        simp at hfill
    case left => rw [hsame]; exact h.left
    case spent => simpa [hidle, hsame] using h.spent
  · have htaken : state'.2 =
        Function.update state.2 intent.action (state.2 intent.action - fill.filledQuantity) := by
      rw [hbudget, hfill]
    constructor
    case grown => exact hgrown
    case filled =>
      intro other hother evidence hevidence
      rcases List.mem_append.mp hother with hold | hnew
      · exact hfilled other hold evidence hevidence
      · rw [List.mem_singleton.mp hnew, hfill, Option.mem_some_iff] at hevidence
        rw [List.mem_singleton.mp hnew, ← hevidence]
        exact ⟨intent, by simp, _, hfrom⟩
    case left =>
      intro action hbudget
      have htake := hfrom.taken
      by_cases hside : action = intent.action
      · rw [htaken, hside, Function.update_self]
        omega
      · rw [htaken, Function.update_of_ne hside]
        exact h.left action hbudget
    case spent =>
      intro action
      have hspent := h.spent action
      rw [fillsOf_snoc, hfill, htaken, List.filter_append, List.map_append, List.sum_append]
      by_cases hside : action = intent.action
      · subst hside
        simp only [Option.toList_some, List.filter_cons, hfrom.action, beq_self_eq_true,
          if_true, List.filter_nil, List.map_cons, List.map_nil, List.sum_cons, List.sum_nil,
          Function.update_self]
        omega
      · have hother : (fill.action == action) = false := by
          rw [hfrom.action]
          exact beq_false_of_ne fun heq => hside heq.symm
        simpa [hother, Function.update_of_ne hside] using hspent

theorem matching_ok {market : PaperMarketSnapshot D} {policy : PaperExecutionVersion}
    {context : ContextVersion} {orders : List (PaperOrderIntent D)}
    {budgets : OrderAction → Int} {state : PaperSession D × (OrderAction → Int)}
    (h : orders.foldlM (matchOrder market policy context) (session, budgets) = .ok state) :
    ∃ events, Matched market policy budgets session orders state events :=
  foldlM_prefix_invariant
    (I := fun orders state =>
      ∃ events, Matched market policy budgets session orders state events)
    ⟨[], Matched.start market policy budgets session⟩
    (fun _ _ _ _ hmatched hstep => hmatched.elim fun _ h => h.step hstep) h

end PaperSession

open PaperSession

/-- The quote cursors a command leaves. -/
def PaperCommand.cursors (session : PaperSession D) :
    PaperCommand D → List (PaperMarketSnapshot D)
  | processQuote market => session.advanceCursor market
  | submitEntry _ _ | submitExit _ _ | advanceClock _ | cancelOrder _ _ _ => session.markets

/-- What each command writes at the end of the log. -/
def PaperCommand.Writes (configuration : TradingConfiguration) (session : PaperSession D)
    (operations : List (Operation D)) : PaperCommand D → Prop
  | submitEntry request readiness => ∃ intent accepted,
      session.admitEntry request readiness configuration = .ok (some intent) ∧
      lifecycleEvent intent [] .accepted intent.createdAt none none = .ok accepted ∧
      operations = [.intent intent, .event accepted]
  | submitExit entry market => ∃ intent accepted,
      session.admitExit entry market configuration = .ok (some intent) ∧
      lifecycleEvent intent [] .accepted intent.createdAt none none = .ok accepted ∧
      operations = [.intent intent, .event accepted]
  | processQuote market => ∃ previous policy events,
      session.acceptCursor market configuration = .ok (.fresh previous) ∧
      configuration.resolvePaperExecution session.ledger.tradeDate = .ok (some policy) ∧
      (∃ state, Matched market policy (budget previous market) session session.matchingOrder
        state events) ∧
      operations = events.map .event
  | advanceClock _ | cancelOrder _ _ _ => ∃ events : List (PaperOrderEvent D),
      (∀ event ∈ events, event.fillEvidence = none) ∧ operations = events.map .event

namespace PaperSession

variable {configuration : TradingConfiguration} {session result : PaperSession D}

theorem submitEntry_ok {request : PaperExecutionRequest D} {readiness : PaperReadiness D}
    (h : session.submitEntry request readiness configuration = .ok result) :
    result = session ∨ ∃ operations,
      (PaperCommand.submitEntry request readiness).Writes configuration session operations ∧
        Committed session result operations session.markets := by
  simp only [submitEntry, bind_eq_ok] at h
  obtain ⟨admitted, hadmitted, h⟩ := h
  cases admitted with
  | none =>
      cases h
      exact .inl rfl
  | some intent =>
      obtain ⟨accepted, haccepted, hresult⟩ := place_ok h
      refine hresult.imp id fun hcommitted => ?_
      exact ⟨_, ⟨intent, accepted, hadmitted, haccepted, rfl⟩, hcommitted⟩

theorem submitExit_ok {entry : PaperOrderIntent D} {market : PaperMarketSnapshot D}
    (h : session.submitExit entry market configuration = .ok result) :
    result = session ∨ ∃ operations,
      (PaperCommand.submitExit entry market).Writes configuration session operations ∧
        Committed session result operations session.markets := by
  simp only [submitExit, bind_eq_ok] at h
  obtain ⟨admitted, hadmitted, h⟩ := h
  cases admitted with
  | none =>
      cases h
      exact .inl rfl
  | some intent =>
      obtain ⟨accepted, haccepted, hresult⟩ := place_ok h
      refine hresult.imp id fun hcommitted => ?_
      exact ⟨_, ⟨intent, accepted, hadmitted, haccepted, rfl⟩, hcommitted⟩

theorem advanceClock_ok {at' : Instant} (h : session.advanceClock at' = .ok result) :
    result = session ∨ ∃ operations,
      (PaperCommand.advanceClock at').Writes configuration session operations ∧
        Committed session result operations session.markets := by
  simp only [advanceClock, bind_eq_ok] at h
  obtain ⟨current, hrun, hfinish⟩ := h
  have hidled : Idled session current :=
    foldlM_prefix_invariant (I := fun _ middle => Idled session middle)
      (Idled.refl session) (fun _ _ _ _ hidled hstep => expireOrder_idled hidled hstep) hrun
  obtain ⟨events, hevents, hgrown⟩ := hidled
  exact (finish_grown hgrown hfinish).imp id fun hcommitted =>
    ⟨_, ⟨events, hevents, rfl⟩, hcommitted⟩

theorem cancelOrder_ok {intent : PaperOrderIntent D} {at' : Instant} {reason : String}
    (h : session.cancelOrder intent at' reason = .ok result) :
    result = session ∨ ∃ operations,
      (PaperCommand.cancelOrder intent at' reason).Writes configuration session operations ∧
        Committed session result operations session.markets := by
  simp only [cancelOrder, bind_eq_ok] at h
  obtain ⟨-, -, state, -, h⟩ := h
  split at h
  · cases h
    exact .inl rfl
  · simp only [bind_eq_ok] at h
    obtain ⟨event, hevent, current, happend, hfinish⟩ := h
    have hidled := (Idled.refl session).snoc (lifecycleEvent_idle hevent) happend
    obtain ⟨events, hevents, hgrown⟩ := hidled
    exact (finish_grown hgrown hfinish).imp id fun hcommitted =>
      ⟨_, ⟨events, hevents, rfl⟩, hcommitted⟩

/-- An admitted entry was planned on the session's own account and ledger. -/
theorem admitEntry_some {request : PaperExecutionRequest D} {readiness : PaperReadiness D}
    {intent : PaperOrderIntent D}
    (h : session.admitEntry request readiness configuration = .ok (some intent)) :
    request.account = session.account ∧ request.costs = session.costs ∧
      request.resources = session.ledger ∧
      (∀ item ∈ session.intents, item.leg = .entry →
        item.arbitrationSha256 ≠ request.arbitration.sha256) ∧
      ∃ policy context,
        configuration.resolvePaperExecution session.ledger.tradeDate = .ok (some policy) ∧
        configuration.resolveContext session.ledger.tradeDate = .ok context ∧
        PlannedEntry request policy intent ∧ WithinRisk request intent := by
  unfold admitEntry at h
  split at h
  · simp at h
  · split at h
    · simp at h
    · simp only [bind_eq_ok, require_eq_ok] at h
      obtain ⟨-, ⟨-, -, -, haccount, hcosts, -⟩, resolved, -, -, -, h⟩ := h
      split at h
      · simp at h
      · next hplanned =>
          simp only [bind_eq_ok, require_eq_ok] at h
          obtain ⟨-, hresources, policy, hpolicy, gate, -, arbitration, -, h⟩ := h
          split at h
          · simp only [bind_eq_ok] at h
            obtain ⟨context, hcontext, plan, hplan, h⟩ := h
            split at h
            · simp at h
            · next hintent =>
                cases h
                refine ⟨haccount, hcosts, hresources, ?_, _, context, hpolicy, hcontext,
                  planPaperOrder_ready hplan hintent⟩
                simpa using hplanned
          · simp at h

/-- An admitted exit sells one open cycle of an entry of the session. -/
theorem admitExit_some {entry intent : PaperOrderIntent D} {market : PaperMarketSnapshot D}
    (h : session.admitExit entry market configuration = .ok (some intent)) :
    entry ∈ session.intents ∧ ∃ request policy,
      request.entryIntent = entry ∧ request.market = market ∧
      request.resources = session.ledger ∧
      configuration.resolvePaperExecution entry.tradeDate = .ok (some policy) ∧
      PlannedExit request policy intent := by
  simp only [admitExit, bind_eq_ok, require_eq_ok] at h
  obtain ⟨-, hentry, h⟩ := h
  split at h
  · simp at h
  · simp only [bind_eq_ok] at h
    obtain ⟨policy, hpolicy, h⟩ := h
    split at h
    · simp at h
    · simp only [bind_eq_ok] at h
      obtain ⟨state, -, request, hrequest, context, -, plan, hplan, h⟩ := h
      obtain ⟨_, rfl⟩ := validated_eq_ok.mp hrequest
      split at h
      · simp at h
      · next hintent =>
          cases h
          exact ⟨hentry, _, _, rfl, rfl, rfl, hpolicy, planPaperExit_ready hplan hintent⟩

/-- A processed quote: the cursor accepts it, the orders are matched in turn,
and the cursor moves. -/
theorem processQuote_ok {market : PaperMarketSnapshot D}
    (h : session.processQuote market configuration = .ok result) :
    result = session ∨ ∃ previous policy context current budgets,
      session.acceptCursor market configuration = .ok (.fresh previous) ∧
      configuration.resolvePaperExecution session.ledger.tradeDate = .ok (some policy) ∧
      configuration.resolveContext session.ledger.tradeDate = .ok context ∧
      session.matchingOrder.foldlM (matchOrder market policy context)
        (session, budget previous market) = .ok (current, budgets) ∧
      finish session { current with markets := session.advanceCursor market } = .ok result := by
  simp only [processQuote, bind_eq_ok] at h
  obtain ⟨verdict, hverdict, h⟩ := h
  cases verdict with
  | repeated =>
      cases h
      exact .inl rfl
  | fresh previous =>
      simp only [bind_eq_ok] at h
      obtain ⟨policy, hpolicy, h⟩ := h
      cases policy with
      | none =>
          cases h
          exact .inl rfl
      | some policy =>
          simp only [bind_eq_ok] at h
          obtain ⟨context, hcontext, ⟨current, budgets⟩, hrun, hfinish⟩ := h
          exact .inr ⟨previous, policy, context, current, budgets, hverdict, hpolicy,
            hcontext, hrun, hfinish⟩

end PaperSession

/-- **One command.**  It leaves the session as it is, or commits it with the
operations it writes. -/
theorem PaperCommand.run_ok {configuration : TradingConfiguration}
    {session result : PaperSession D} {command : PaperCommand D}
    (h : command.run configuration session = .ok result) :
    result = session ∨ ∃ operations, command.Writes configuration session operations ∧
      Committed session result operations (command.cursors session) := by
  cases command with
  | submitEntry request readiness => exact submitEntry_ok h
  | submitExit entry market => exact submitExit_ok h
  | processQuote market =>
      obtain rfl | ⟨previous, policy, _, current, _, hcursor, hpolicy, -, hrun, hfinish⟩ :=
        processQuote_ok h
      · exact .inl rfl
      · obtain ⟨events, hmatched⟩ := matching_ok hrun
        exact (finish_committed hmatched.grown hfinish).imp id fun hcommitted =>
          ⟨_, ⟨previous, policy, events, hcursor, hpolicy, ⟨_, hmatched⟩, rfl⟩, hcommitted⟩
  | advanceClock at' => exact advanceClock_ok h
  | cancelOrder intent at' reason => exact cancelOrder_ok h

/-- Sessions that successful commands, each under a configuration of its own,
reach from the empty session of an account. -/
inductive Reachable : PaperSession D → Prop
  | empty {account : AccountSnapshot} {costs : CostPolicy} {tradeDate : Day}
      {session : PaperSession D}
      (h : PaperSession.empty account costs tradeDate = .ok session) : Reachable session
  | command {session result : PaperSession D} {configuration : TradingConfiguration}
      (command : PaperCommand D) (hsession : Reachable session)
      (h : command.run configuration session = .ok result) : Reachable result

theorem empty_ok {account : AccountSnapshot} {costs : CostPolicy} {tradeDate : Day}
    {session : PaperSession D} (h : PaperSession.empty account costs tradeDate = .ok session) :
    ∃ ledger, initializePaperLedger account tradeDate = .ok ledger ∧
      session = ⟨account, costs, ledger, 0, [], []⟩ ∧ session.reconcile = .ok () := by
  simp only [PaperSession.empty, bind_eq_ok] at h
  obtain ⟨ledger, hledger, h⟩ := h
  obtain ⟨hreconcile, rfl⟩ := modelValidate_eq_ok.mp h
  exact ⟨ledger, hledger, rfl, hreconcile⟩

/-- Every reachable session has passed its own validator. -/
theorem Reachable.reconciled {session : PaperSession D} (h : Reachable session) :
    session.reconcile = .ok () := by
  induction h with
  | empty hempty =>
      obtain ⟨_, -, -, hreconcile⟩ := empty_ok hempty
      exact hreconcile
  | command _ _ hrun ih =>
      obtain rfl | ⟨_, -, hcommitted⟩ := PaperCommand.run_ok hrun
      · exact ih
      · exact hcommitted.reconciled

/-! ## A rehearsed day

One account, one promoted candidate and five quotes under the repository's own
configuration: an entry is admitted, filled and sold again. -/

namespace Rehearsal

/-- 2026-10-12, a day on which every family is effective. -/
def day : Day := 20738

/-- Seconds after 10:00 local time of the day. -/
def clock (offset : Int) : Instant := day * dayLength + seconds (10800 + offset)

/-- A digest of data that is not modelled here. -/
def mark (n : Nat) : Spelled := .num n

private theorem symbol_named : isSymbolName "VIC" := by decide

private theorem baseline_named : isVersionName baselineVersion := by decide

private theorem session_required : 1 ≤ 1 := le_refl 1

def account : AccountSnapshot where
  asOf := clock (-3600)
  source := "broker"
  cashVnd := 100000000
  positions := [⟨"VIC", 1000, 0, 0, 200, 50000, by decide, by decide, by decide⟩]
  source_nonempty := by decide
  cash_nonneg := by decide
  positions_nonempty := by decide
  symbols_nodup := by decide

def costs : CostPolicy where
  version := "costs-v1"
  effectiveFrom := day
  effectiveTo := none
  buyFeeBps := 10
  sellFeeBps := 10
  sellTaxBps := 10
  extraSlippageBps := 0
  basis := .userSupplied
  accountPlan := none
  feeSource := none
  feeCheckedAt := none
  version_valid := by decide
  buyFee_bounds := by decide
  sellFee_bounds := by decide
  sellTax_bounds := by decide
  extraSlippage_bounds := by decide
  source_checked := by decide
  source_nonblank := by decide
  public_sourced := by decide
  sale_keeps_proceeds := by decide +kernel

def ledger : PaperResourceLedger Spelled where
  tradeDate := day
  accountSnapshotSha256 := account.sha256
  revision := 0
  availableCashVnd := 100000000
  positions := [⟨"VIC", 800, symbol_named⟩]
  startedCycles := 0
  realizedNetPnlVnd := 0
  reservations := []
  valid := by decide +kernel

/-- The day's lineage, as `resolveResearchLineage` finds it. -/
def lineage : ResearchLineage Spelled where
  baselineVersion := baselineVersion
  arbitrationConfigurationSha256 := Trading.candidateArbitration.sha256
  featureConfigurationSha256 := Trading.marketState.sha256
  contextConfigurationSha256 := sha256 (.arr [.sha Trading.decisionContext.sha256,
    .sha Trading.regime.sha256, .opt .sha (some Trading.breadth.sha256)])
  outcomeConfigurationSha256 := Trading.outcomes.sha256
  costPolicySha256 := costs.assumptionsSha256
  baselineVersion_pattern := baseline_named

private def matched (name : String) : GroupEvidence := ⟨name, some 1, by decide⟩

def candidate : BaselineCandidate Spelled where
  strategy := .momentumPullback
  symbol := "VIC"
  tradeDate := day
  decisionAt := clock 0
  featureSnapshotSha256 := mark 1
  peerFeatureSnapshotSha256 := none
  contextSnapshotSha256 := some (mark 2)
  contextVersion := some "decision-context-v3"
  contextConfigurationSha256 := some lineage.contextConfigurationSha256
  contextDataMode := some .live
  marketRegime := .trendUp
  groups := (matched "trend_strength", matched "pullback_quality",
    matched "reacceleration_confirmation")
  strength := 1
  blockReasons := []
  valid := by decide +kernel

def arbitration : CandidateArbitration Spelled where
  arbitrationVersion := Trading.candidateArbitration.version
  arbitrationConfigurationSha256 := Trading.candidateArbitration.sha256
  candidateVersion := baselineVersion
  candidateSha256 := candidate.sha256
  strategy := "momentum_pullback"
  symbol := "VIC"
  tradeDate := day
  decisionAt := clock 0
  horizonSeconds := 300
  strength := 1
  status := .selected
  rejectionReason := none
  priority := some 1
  selectedCandidateSha256 := some candidate.sha256
  valid := by decide +kernel

private def promoted : PromotionTargetResult where
  strategy := .momentumPullback
  symbol := "VIC"
  horizonSeconds := 300
  status := .pass
  reasons := []
  selectedCount := 10
  eligibleOutcomeCount := 10
  positiveNetCount := 8
  outcomeCoverageRate := 1
  positiveNetRate := 4 / 5
  averageNetReturnBps := some 5
  worstFoldNetReturnBps := some 1
  target_valid := by decide
  coverage_bounds := by decide
  positive_bounds := by decide +kernel
  counts_ordered := by decide
  reasons_nodup := by decide
  pass_iff := by decide

def promotion : PromotionGateReport Spelled where
  gateVersion := Trading.promotionGate.version
  gateConfigurationSha256 := Trading.promotionGate.sha256
  evaluationVersion := Trading.promotionGate.evaluationVersion
  evaluationConfigurationSha256 := mark 3
  arbitrationVersion := Trading.candidateArbitration.version
  arbitrationConfigurationSha256 := Trading.candidateArbitration.sha256
  requiredSessionCount := 1
  observedSessionCount := 1
  holdoutDates := [day - 1]
  captureGapCount := 0
  walkForwardSha256 := some (mark 4)
  shadowAuditSha256s := [mark 5]
  status := .pass
  reasons := []
  targets := [promoted]
  versions_pattern := by decide
  required_pos := session_required
  holdout_ordered := by decide
  targets_nonempty := by decide
  targets_unique := by decide
  reasons_nodup := by decide
  status_expected := by decide
  holdouts_sourced := by decide
  pass_complete := by decide

/-- A quote of VIC, received when it is observed. -/
def quote (offset : Int) (sequence quantity : ℕ+) : PaperMarketSnapshot Spelled where
  symbol := "VIC"
  observedAt := clock offset
  quoteReceivedAt := clock offset
  streamSessionId := "stream"
  receiveSequence := sequence
  bestAskPrice := 50000
  bestAskQuantity := quantity
  bestBidPrice := 49900
  bestBidQuantity := quantity
  referencePrice := 50000
  ceilingPrice := 53500
  floorPrice := 46500
  tickSize := 100
  marketStatus := "LO"
  sourceSha256 := mark sequence
  identifiers_upper := by decide
  position_valid := ⟨by decide, sequence.pos⟩
  quantities_pos := ⟨quantity.pos, quantity.pos⟩
  prices_pos := by decide
  received_before := le_refl _
  band_ordered := by decide
  ask_in_band := by decide
  bid_in_band := by decide
  ticks_aligned := by decide +kernel

def request : PaperExecutionRequest Spelled where
  candidate := candidate
  arbitration := arbitration
  promotion := promotion
  selection := ⟨arbitration.sha256, clock 0, "journal", mark 6, by decide⟩
  market := quote 1 1 100
  account := account
  costs := costs
  risk := ⟨1000, 100000000, 5, 10000000, 0, by decide, by decide, by decide, by decide,
    by decide⟩
  resources := ledger
  candidate_selected := by decide +kernel
  promoted := by decide +kernel
  selection_timely := by decide +kernel
  market_matches := by decide +kernel
  account_precedes := by decide +kernel
  costs_effective := by decide +kernel
  resources_match := by decide +kernel

/-- The next quote of the session. -/
def nextQuote : PaperMarketSnapshot Spelled := quote 2 2 100

def readiness : PaperReadiness Spelled where
  tradeDate := day
  previousSession := day - 1
  mode := .paper
  reason := "PROMOTION_PASS"
  promotion := some promotion
  researchLineage := some lineage
  paper_promoted := by decide +kernel

/-- The session before the first command. -/
def opening : PaperSession Spelled := ⟨account, costs, ledger, 0, [], []⟩

/-- The entry is admitted and filled, and sold at its horizon. -/
def run : Except Raised (PaperSession Spelled) := do
  let submitted ← opening.submitEntry request readiness Trading.configuration
  let filled ← submitted.processQuote (quote 2 2 100) Trading.configuration
  match filled.intents with
  | [] => throw .stopIteration
  | entry :: _ =>
      let exiting ← filled.submitExit entry (quote 400 3 100) Trading.configuration
      exiting.processQuote (quote 401 4 200) Trading.configuration

theorem opening_empty : PaperSession.empty account costs day = .ok opening := by
  decide +kernel

theorem run_reachable {session : PaperSession Spelled} (h : run = .ok session) :
    Reachable session := by
  simp only [run, bind_eq_ok] at h
  obtain ⟨submitted, hsubmitted, filled, hfilled, h⟩ := h
  have hopening : Reachable opening := .empty opening_empty
  have hsubmit : Reachable submitted :=
    .command (.submitEntry request readiness) hopening hsubmitted
  have hfill : Reachable filled := .command (.processQuote _) hsubmit hfilled
  split at h
  · simp at h
  · next entry _ _ =>
      simp only [bind_eq_ok] at h
      obtain ⟨exiting, hexiting, hsession⟩ := h
      have hexit : Reachable exiting :=
        .command (.submitExit entry _) hfill hexiting
      exact .command (.processQuote _) hexit hsession

end Rehearsal

end MiniLakehouse
