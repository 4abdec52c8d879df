import MiniLakehouse.Execution.Commands
import MiniLakehouse.Library.Replenish

/-!
# Displayed liquidity

No quote is filled beyond what it displays.  Within one quote the orders share a
budget; across quotes at an unchanged best price only an increase of the
displayed quantity is offered again (`block_spent`); and for one quote key the
reconciled log bounds all fills by the first fill's evidence (`Drawn`).
-/

namespace MiniLakehouse

variable {D : Type} [Hashing D]

/-! ## Runs of commands -/

/-- A successful command, the session it ran on and the session it left. -/
structure PaperStep (D : Type) [Hashing D] where
  configuration : TradingConfiguration
  command : PaperCommand D
  before : PaperSession D
  after : PaperSession D

/-- The operations that the command appended. -/
def PaperStep.written (step : PaperStep D) : List (Operation D) :=
  step.after.operations.drop step.before.operations.length

/-- Successful commands, each on the session that the one before left. -/
inductive PaperRun (first : PaperSession D) : List (PaperStep D) → PaperSession D → Prop
  | start : PaperRun first [] first
  | command {steps : List (PaperStep D)} {session result : PaperSession D}
      {configuration : TradingConfiguration} (command : PaperCommand D)
      (hrun : PaperRun first steps session)
      (h : command.run configuration session = .ok result) :
      PaperRun first (steps ++ [⟨configuration, command, session, result⟩]) result

theorem PaperRun.reachable {first last : PaperSession D} {steps : List (PaperStep D)}
    (hfirst : Reachable first) (h : PaperRun first steps last) : Reachable last := by
  induction h with
  | start => exact hfirst
  | command command _ hstep ih => exact .command command ih hstep

/-- A run is a run of its first steps and a run of the others. -/
theorem PaperRun.split {first last : PaperSession D} {before after : List (PaperStep D)}
    (h : PaperRun first (before ++ after) last) :
    ∃ middle, PaperRun first before middle ∧ PaperRun middle after last := by
  induction after using List.reverseRecOn generalizing last with
  | nil => exact ⟨last, by simpa using h, .start⟩
  | append_singleton after step ih =>
      rw [← List.append_assoc] at h
      generalize hsteps : before ++ after ++ [step] = steps at h
      cases h with
      | start => simp at hsteps
      | command command hrun hstep =>
          obtain ⟨rfl, hlast⟩ := List.append_inj' hsteps rfl
          obtain ⟨middle, hbefore, hafter⟩ := ih hrun
          obtain rfl := List.singleton_inj.mp hlast
          exact ⟨middle, hbefore, .command command hafter hstep⟩

/-- A step wrote nothing, or it committed what it wrote. -/
theorem PaperStep.written_eq {step : PaperStep D} {operations : List (Operation D)}
    (h : step.after.operations = step.before.operations ++ operations) :
    step.written = operations := by
  simp [written, h]

/-! ## Fills of a log -/

/-- The fills of an operation log. -/
def loggedFills (operations : List (Operation D)) : List (PaperFillEvidence D) :=
  fillsOf (operations.filterMap Operation.asEvent)

/-- Quantity of the fills of a log that satisfy a predicate. -/
def filledWhere (p : PaperFillEvidence D → Bool) (operations : List (Operation D)) : Nat :=
  (((loggedFills operations).filter p).map (·.filledQuantity)).sum

/-- Quantity filled from one quote, over all orders. -/
def filledFrom (key : LiquidityKey) : List (Operation D) → Nat :=
  filledWhere fun fill => fill.liquidityKey == key

/-- Quantity filled on one side of a symbol, over all orders. -/
def filledOn (symbol : String) (side : OrderAction) : List (Operation D) → Nat :=
  filledWhere fun fill => fill.symbol == symbol && fill.action == side

section

variable {p : PaperFillEvidence D → Bool} {operations : List (Operation D)}

omit [Hashing D]

@[simp] theorem loggedFills_nil : loggedFills ([] : List (Operation D)) = [] := rfl

@[simp] theorem loggedFills_append {more : List (Operation D)} :
    loggedFills (operations ++ more) = loggedFills operations ++ loggedFills more := by
  simp [loggedFills, fillsOf]

@[simp] theorem loggedFills_intent {intent : PaperOrderIntent D} :
    loggedFills [Operation.intent intent] = [] := rfl

@[simp] theorem loggedFills_event {event : PaperOrderEvent D} :
    loggedFills [Operation.event event] = event.fillEvidence.toList := by
  cases h : event.fillEvidence <;> simp [loggedFills, fillsOf, Operation.asEvent, h]

@[simp] theorem loggedFills_events {events : List (PaperOrderEvent D)} :
    loggedFills (events.map .event) = fillsOf events := by
  simp [loggedFills, List.filterMap_map, Function.comp_def, Operation.asEvent]

@[simp] theorem filledWhere_nil : filledWhere p ([] : List (Operation D)) = 0 := rfl

@[simp] theorem filledWhere_append {more : List (Operation D)} :
    filledWhere p (operations ++ more) = filledWhere p operations + filledWhere p more := by
  simp [filledWhere]

/-- Nothing is filled where no fill satisfies the predicate. -/
theorem filledWhere_eq_zero (h : ∀ fill ∈ loggedFills operations, p fill = false) :
    filledWhere p operations = 0 := by
  have hnone : (loggedFills operations).filter p = [] := by
    simpa [List.filter_eq_nil_iff] using h
  simp [filledWhere, hnone]

theorem mem_fillsOf {events : List (PaperOrderEvent D)} {fill : PaperFillEvidence D} :
    fill ∈ fillsOf events ↔ ∃ event ∈ events, event.fillEvidence = some fill := by
  simp [fillsOf]

end

/-! ## One quote key -/

/-- What the reconciled log has drawn from every quote key: within the capacity
that the key's first fill was given. -/
def Drawn (operations : List (Operation D))
    (liquidity : LiquidityKey → Option (Nat × Nat × D)) : Prop :=
  ∀ key, match liquidity key with
    | none => filledFrom key operations = 0
    | some (used, capacity, _) => used = filledFrom key operations ∧ used ≤ capacity ∧
        ∃ fill ∈ loggedFills operations,
          fill.liquidityKey = key ∧ fill.availableQuantity = capacity

namespace Drawn

variable {operations : List (Operation D)}
  {liquidity liquidity' : LiquidityKey → Option (Nat × Nat × D)}

omit [Hashing D] in
theorem idle {operation : Operation D} (h : Drawn operations liquidity)
    (hidle : loggedFills [operation] = []) : Drawn (operations ++ [operation]) liquidity := by
  intro key
  have hkey := h key
  have hzero : filledFrom key [operation] = 0 := by
    apply filledWhere_eq_zero
    simp [hidle]
  have hsame : filledFrom key (operations ++ [operation]) = filledFrom key operations := by
    have happend : filledFrom key (operations ++ [operation]) =
        filledFrom key operations + filledFrom key [operation] := filledWhere_append
    rw [happend, hzero, Nat.add_zero]
  cases hused : liquidity key with
  | none => simpa [hused, hsame] using hkey
  | some entry =>
      rw [hused] at hkey
      simpa only [hsame, loggedFills_append, hidle, List.append_nil] using hkey

theorem event {event : PaperOrderEvent D} (h : Drawn operations liquidity)
    (huse : Reconciliation.useLiquidity liquidity event = .ok liquidity') :
    Drawn (operations ++ [Operation.event event]) liquidity' := by
  cases hfill : event.fillEvidence with
  | none =>
      simp only [Reconciliation.useLiquidity, hfill] at huse
      cases huse
      exact h.idle (by simp [hfill])
  | some fill =>
      simp only [Reconciliation.useLiquidity, hfill, bind_eq_ok, require_eq_ok,
        pure_eq_ok] at huse
      obtain ⟨-, ⟨-, hwithin⟩, rfl⟩ := huse
      have hlogged : loggedFills [Operation.event event] = [fill] := by simp [hfill]
      have hone : ∀ key, filledFrom key (operations ++ [Operation.event event]) =
          filledFrom key operations +
            if fill.liquidityKey = key then fill.filledQuantity else 0 := by
        intro key
        rw [filledFrom, filledWhere_append]
        by_cases hsame : fill.liquidityKey = key <;> simp [filledWhere, hlogged, hsame]
      intro key
      have hkey := h key
      by_cases hsame : key = fill.liquidityKey
      · subst hsame
        rw [Function.update_self]
        cases hused : liquidity fill.liquidityKey with
        | none =>
            simp only [hused] at hkey hwithin ⊢
            refine ⟨?_, hwithin, fill, by simp [hlogged], rfl, rfl⟩
            simp [hone, hkey]
        | some entry =>
            obtain ⟨used, capacity, digest⟩ := entry
            simp only [hused] at hkey hwithin ⊢
            obtain ⟨husage, -, first, hfirst, hfirstKey, hcapacity⟩ := hkey
            refine ⟨?_, hwithin, first, ?_, hfirstKey, hcapacity⟩
            · simp [hone, husage]
            · simp [hfirst]
      · have hne : ¬fill.liquidityKey = key := fun heq => hsame heq.symm
        rw [Function.update_of_ne hsame]
        cases hused : liquidity key with
        | none => simpa [hused, hone, hne] using hkey
        | some entry =>
            obtain ⟨used, capacity, digest⟩ := entry
            simp only [hused] at hkey ⊢
            obtain ⟨husage, hbound, first, hfirst, hfirstKey, hcapacity⟩ := hkey
            refine ⟨?_, hbound, first, by simp [hfirst], hfirstKey, hcapacity⟩
            simp [hone, hne, husage]

end Drawn

/-- Every prefix of the reconciliation draws within the first fill's capacity. -/
theorem Reconciliation.run_drawn {account : AccountSnapshot} {costs : CostPolicy}
    {ledger : PaperResourceLedger D} {operations : List (Operation D)} {r : Reconciliation D}
    (h : run account costs ledger operations = .ok r) : Drawn operations r.liquidity := by
  refine foldlM_prefix_invariant
    (I := fun done (r : Reconciliation D) => Drawn done r.liquidity) ?_ ?_ h
  · intro key
    rfl
  · intro done operation t t' ht hstep
    cases operation with
    | intent intent =>
        obtain ⟨-, -, -, _, -, rfl⟩ := step_intent_eq_ok.mp hstep
        exact ht.idle rfl
    | event event =>
        obtain ⟨-, _, -, _, -, liquidity, huse, _, -, rfl⟩ := step_event_eq_ok.mp hstep
        exact ht.event huse

/-- All fills of one quote key stay within what its first fill was given. -/
theorem Reachable.drawn {session : PaperSession D} (h : Reachable session)
    (key : LiquidityKey) :
    filledFrom key session.operations = 0 ∨ ∃ fill ∈ loggedFills session.operations,
      fill.liquidityKey = key ∧ filledFrom key session.operations ≤ fill.availableQuantity := by
  obtain ⟨-, ⟨initial, -, r, hrun, -⟩, -⟩ := PaperSession.reconcile_eq_ok.mp h.reconciled
  have hdrawn := Reconciliation.run_drawn hrun key
  cases hused : r.liquidity key with
  | none =>
      rw [hused] at hdrawn
      exact .inl hdrawn
  | some entry =>
      rw [hused] at hdrawn
      obtain ⟨husage, hbound, fill, hfill, hkey, hcapacity⟩ := hdrawn
      refine .inr ⟨fill, hfill, hkey, ?_⟩
      omega

/-! ## The budget of one quote -/

namespace PaperSession

variable {session : PaperSession D} {market : PaperMarketSnapshot D}

omit [Hashing D] in
theorem budget_nonneg (previous : Option (PaperMarketSnapshot D))
    (market : PaperMarketSnapshot D) (action : OrderAction) :
    0 ≤ budget previous market action := by
  unfold budget
  split
  · omega
  · split <;> omega

omit [Hashing D] in
theorem budget_le (previous : Option (PaperMarketSnapshot D))
    (market : PaperMarketSnapshot D) (action : OrderAction) :
    budget previous market action ≤ market.bestQuantity action := by
  unfold budget
  split
  · omega
  · split <;> omega

omit [Hashing D] in
/-- At an unchanged best price only the increase is offered. -/
theorem budget_unchanged {quote market : PaperMarketSnapshot D} {action : OrderAction}
    (h : quote.bestPrice action = market.bestPrice action) :
    budget (some quote) market action =
      ((market.bestQuantity action - quote.bestQuantity action : Nat) : Int) := by
  simp only [budget, h, if_true]
  omega

/-- A processed quote becomes its symbol's cursor and leaves the others. -/
theorem cursor_advanced (hunique : (session.markets.map (·.symbol)).Nodup)
    (symbol : String) :
    (session.advanceCursor market).find? (·.symbol == symbol) =
      if market.symbol = symbol then some market else session.cursor symbol := by
  have hrest : ((session.markets.filter (·.symbol != market.symbol) ++ [market]).map
      fun item : PaperMarketSnapshot D => item.symbol).Nodup := by
    rw [List.map_append]
    refine List.Nodup.append ?_ (List.nodup_singleton _) ?_
    · exact hunique.sublist (List.filter_sublist.map _)
    · simp [List.disjoint_singleton]
  rw [advanceCursor, find?_key_perm (fun item : PaperMarketSnapshot D => item.symbol)
    (sortOn_perm _ _) (((sortOn_perm _ _).map _).nodup_iff.mpr hrest), List.find?_append,
    List.find?_filter]
  by_cases hsame : market.symbol = symbol
  · subst hsame
    have hnone : session.markets.find? (fun item => decide
        ((item.symbol != market.symbol) = true ∧ (item.symbol == market.symbol) = true)) =
          none := by
      rw [List.find?_eq_none]
      intro item _
      by_cases heq : item.symbol = market.symbol <;> simp [heq]
    rw [if_pos rfl, hnone]
    simp
  · have hkeep : (fun item : PaperMarketSnapshot D => decide
        ((item.symbol != market.symbol) = true ∧ (item.symbol == symbol) = true)) =
        fun item => item.symbol == symbol := by
      funext item
      by_cases heq : item.symbol = symbol
      · subst heq
        have hne : item.symbol ≠ market.symbol := fun h => hsame h.symm
        simp [hne]
      · simp [heq]
    have hlast : [market].find? (fun item => item.symbol == symbol) = none := by simp [hsame]
    rw [if_neg hsame, hkeep, hlast, Option.or_none, cursor]

/-- An accepted quote is compared with its symbol's cursor. -/
theorem acceptCursor_fresh {configuration : TradingConfiguration}
    {previous : Option (PaperMarketSnapshot D)}
    (h : session.acceptCursor market configuration = .ok (.fresh previous)) :
    session.cursor market.symbol = previous ∧
      ∀ quote ∈ previous, quote ≠ market ∧ FollowsCursor quote market := by
  simp only [acceptCursor, bind_eq_ok] at h
  obtain ⟨_, -, -, -, h⟩ := h
  split at h
  · next hnone =>
      cases h
      exact ⟨hnone, by simp⟩
  · next quote hsome =>
      split at h
      · simp at h
      · next hne =>
          simp only [bind_eq_ok, require_eq_ok, pure_eq_ok] at h
          obtain ⟨-, hfollows, heq⟩ := h
          cases heq
          refine ⟨hsome, ?_⟩
          intro other hother
          obtain rfl := Option.mem_some_iff.mp hother
          exact ⟨hne, hfollows⟩

end PaperSession

/-! ## Quotes in turn -/

/-- The quote of a symbol that a command processes. -/
def PaperCommand.quoteOf (symbol : String) : PaperCommand D → Option (PaperMarketSnapshot D)
  | processQuote market => if market.symbol = symbol then some market else none
  | submitEntry _ _ | submitExit _ _ | advanceClock _ | cancelOrder _ _ _ => none

/-- The quotes of a symbol that successive commands process. -/
def quotesOf (symbol : String) (steps : List (PaperStep D)) : List (PaperMarketSnapshot D) :=
  steps.filterMap fun step => step.command.quoteOf symbol

/-- What successive commands filled on one side of a symbol. -/
def filledInRun (symbol : String) (side : OrderAction) (steps : List (PaperStep D)) : Nat :=
  (steps.map fun step => filledOn symbol side step.written).sum

/-- The fills a command wrote come from the quote it processed. -/
theorem PaperCommand.Writes.fills {configuration : TradingConfiguration}
    {session : PaperSession D} {command : PaperCommand D} {operations : List (Operation D)}
    (h : command.Writes configuration session operations) {event : PaperOrderEvent D}
    (hevent : Operation.event event ∈ operations) {fill : PaperFillEvidence D}
    (hfill : event.fillEvidence = some fill) :
    ∃ market policy, command = .processQuote market ∧
      configuration.resolvePaperExecution session.ledger.tradeDate = .ok (some policy) ∧
      ∃ intent ∈ session.intents, ∃ available,
        FilledFrom market policy intent available event fill := by
  cases command with
  | submitEntry request readiness =>
      obtain ⟨intent, accepted, -, haccepted, rfl⟩ := h
      obtain rfl : event = accepted := by simpa using hevent
      rw [PaperSession.lifecycleEvent_idle haccepted] at hfill
      cases hfill
  | submitExit entry market =>
      obtain ⟨intent, accepted, -, haccepted, rfl⟩ := h
      obtain rfl : event = accepted := by simpa using hevent
      rw [PaperSession.lifecycleEvent_idle haccepted] at hfill
      cases hfill
  | processQuote market =>
      obtain ⟨previous, policy, events, -, hpolicy, ⟨state, hmatched⟩, rfl⟩ := h
      obtain ⟨intent, hintent, available, hfrom⟩ :=
        hmatched.filled event (by simpa using hevent) fill hfill
      rw [PaperSession.matchingOrder, mem_sortOn] at hintent
      exact ⟨market, policy, rfl, hpolicy, intent, hintent, available, hfrom⟩
  | advanceClock at' =>
      obtain ⟨events, hidle, rfl⟩ := h
      rw [hidle event (by simpa using hevent)] at hfill
      cases hfill
  | cancelOrder intent at' reason =>
      obtain ⟨events, hidle, rfl⟩ := h
      rw [hidle event (by simpa using hevent)] at hfill
      cases hfill

omit [Hashing D] in
theorem mem_loggedFills {operations : List (Operation D)} {fill : PaperFillEvidence D} :
    fill ∈ loggedFills operations ↔
      ∃ event, Operation.event event ∈ operations ∧ event.fillEvidence = some fill := by
  rw [loggedFills, mem_fillsOf]
  constructor
  · rintro ⟨event, hevent, hfill⟩
    obtain ⟨operation, hoperation, hasEvent⟩ := List.mem_filterMap.mp hevent
    cases operation with
    | intent _ => cases hasEvent
    | event other =>
        obtain rfl := Option.some.inj hasEvent
        exact ⟨other, hoperation, hfill⟩
  · rintro ⟨event, hevent, hfill⟩
    exact ⟨event, List.mem_filterMap.mpr ⟨_, hevent, rfl⟩, hfill⟩

/-- A command that processes no quote of the symbol fills nothing of it. -/
theorem PaperCommand.Writes.unfilled {configuration : TradingConfiguration}
    {session : PaperSession D} {command : PaperCommand D} {operations : List (Operation D)}
    (h : command.Writes configuration session operations) {symbol : String}
    (hother : command.quoteOf symbol = none) (side : OrderAction) :
    filledOn symbol side operations = 0 := by
  apply filledWhere_eq_zero
  intro fill hfill
  obtain ⟨event, hevent, hevidence⟩ := mem_loggedFills.mp hfill
  obtain ⟨market, policy, rfl, -, intent, -, available, hfrom⟩ := h.fills hevent hevidence
  have hsymbol : market.symbol ≠ symbol := by
    intro heq
    simp [PaperCommand.quoteOf, heq] at hother
  simp [hfrom.symbol, hsymbol]

/-- What a quote fills on a side stays within the side's budget. -/
theorem PaperSession.Matched.filledOn_le {market : PaperMarketSnapshot D}
    {policy : PaperExecutionVersion} {previous : Option (PaperMarketSnapshot D)}
    {session : PaperSession D} {orders : List (PaperOrderIntent D)}
    {state : PaperSession D × (OrderAction → Int)} {events : List (PaperOrderEvent D)}
    (h : Matched market policy (budget previous market) session orders state events)
    (symbol : String) (side : OrderAction) :
    (filledOn symbol side (events.map .event) : Int) ≤ budget previous market side := by
  have hspent := h.spent side
  have hleft := h.left side (budget_nonneg previous market side)
  have hsub : filledOn symbol side (events.map .event) ≤
      (((fillsOf events).filter (·.action == side)).map (·.filledQuantity)).sum := by
    rw [filledOn, filledWhere, loggedFills_events]
    apply List.Sublist.sum_le_sum
    · apply List.Sublist.map
      have hweaker := List.filter_filter (p := fun fill => fill.symbol == symbol)
        (q := fun fill : PaperFillEvidence D => fill.action == side) (l := fillsOf events)
      rw [← hweaker]
      exact List.filter_sublist
    · intro _ _
      exact Nat.zero_le _
  omega

/-- A block of commands has taken from the displays of a price level within what
they offered; `taken` is the display that the cursor stands on. -/
def Within (symbol : String) (side : OrderAction) (price : Rat) (displays : List Nat)
    (session : PaperSession D) (spent : Nat) : Prop :=
  ∃ taken, (taken = 0 ∨ ∃ quote, session.cursor symbol = some quote ∧
    quote.bestPrice side = price ∧ quote.bestQuantity side = taken) ∧
      Spent displays taken spent

theorem Reachable.markets_unique {session : PaperSession D} (h : Reachable session) :
    (session.markets.map (·.symbol)).Nodup :=
  nodup_of_ascending (PaperSession.reconcile_eq_ok.mp h.reconciled).2.2

/-- **One command** keeps the block within its displays. -/
theorem Within.step {symbol : String} {side : OrderAction} {price : Rat}
    {displays : List Nat} {session result : PaperSession D} {spent : Nat}
    {configuration : TradingConfiguration} {command : PaperCommand D}
    (h : Within symbol side price displays session spent) (hsession : Reachable session)
    (hlevel : ∀ quote ∈ command.quoteOf symbol, quote.bestPrice side = price)
    (hrun : command.run configuration session = .ok result) :
    Within symbol side price
      (displays ++ ((command.quoteOf symbol).map (·.bestQuantity side)).toList) result
      (spent + filledOn symbol side
        (PaperStep.mk configuration command session result).written) := by
  obtain ⟨taken, hcursor, hspent⟩ := h
  obtain rfl | ⟨operations, hwrites, hcommitted⟩ := PaperCommand.run_ok hrun
  · -- nothing is written, and the cursor stays
    have hnothing : (PaperStep.mk configuration command result result).written = [] :=
      PaperStep.written_eq (by simp)
    have hzero : filledOn symbol side ([] : List (Operation D)) = 0 := rfl
    rw [hnothing, hzero, Nat.add_zero]
    refine ⟨taken, hcursor, ?_⟩
    cases command.quoteOf symbol with
    | none => simpa using hspent
    | some quote => exact hspent.skip _
  have hwritten : (PaperStep.mk configuration command session result).written = operations :=
    PaperStep.written_eq hcommitted.operations
  rw [hwritten]
  cases hquote : command.quoteOf symbol with
  | none =>
      have hzero := hwrites.unfilled hquote side
      have hkept : result.cursor symbol = session.cursor symbol := by
        rw [PaperSession.cursor, hcommitted.markets]
        cases command with
        | processQuote market =>
            have hother : market.symbol ≠ symbol := by
              intro heq
              simp [PaperCommand.quoteOf, heq] at hquote
            rw [PaperCommand.cursors, PaperSession.cursor_advanced hsession.markets_unique,
              if_neg hother]
        | submitEntry _ _ => rfl
        | submitExit _ _ => rfl
        | advanceClock _ => rfl
        | cancelOrder _ _ _ => rfl
      rw [hzero, Nat.add_zero]
      refine ⟨taken, ?_, by simpa using hspent⟩
      rw [hkept]
      exact hcursor
  | some quote =>
      cases command with
      | processQuote market =>
          simp only [PaperCommand.quoteOf] at hquote
          split at hquote
          · next hsymbol =>
              obtain rfl := Option.some.inj hquote
              have hprice := hlevel market (by simp [PaperCommand.quoteOf, hsymbol])
              obtain ⟨previous, policy, events, haccepted, -, ⟨state, hmatched⟩, rfl⟩ := hwrites
              have hbudget := hmatched.filledOn_le symbol side
              have hprevious := (PaperSession.acceptCursor_fresh haccepted).1
              rw [hsymbol] at hprevious
              have hmore : filledOn symbol side (events.map .event) ≤
                  market.bestQuantity side - taken := by
                rcases hcursor with rfl | ⟨last, hlast, hlastPrice, rfl⟩
                · have hle := PaperSession.budget_le previous market side
                  omega
                · rw [hlast] at hprevious
                  rw [← hprevious, PaperSession.budget_unchanged
                    (hlastPrice.trans hprice.symm)] at hbudget
                  exact_mod_cast hbudget
              refine ⟨market.bestQuantity side, .inr ⟨market, ?_, hprice, rfl⟩,
                hspent.display hmore⟩
              rw [PaperSession.cursor, hcommitted.markets, PaperCommand.cursors,
                PaperSession.cursor_advanced hsession.markets_unique, if_pos hsymbol]
          · cases hquote
      | submitEntry _ _ => cases hquote
      | submitExit _ _ => cases hquote
      | advanceClock _ => cases hquote
      | cancelOrder _ _ _ => cases hquote

/-- **A block of commands** takes at most what its displays offer. -/
theorem Within.run {symbol : String} {side : OrderAction} {price : Rat}
    {first last : PaperSession D} {steps : List (PaperStep D)} (hfirst : Reachable first)
    (hrun : PaperRun first steps last)
    (hlevel : ∀ quote ∈ quotesOf symbol steps, quote.bestPrice side = price) :
    Within symbol side price ((quotesOf symbol steps).map (·.bestQuantity side)) last
      (filledInRun symbol side steps) := by
  induction hrun with
  | start => exact ⟨0, .inl rfl, Spent.start⟩
  | @command steps session result configuration command hrun hstep ih =>
      have hquotes : quotesOf symbol
            (steps ++ [(⟨configuration, command, session, result⟩ : PaperStep D)]) =
          quotesOf symbol steps ++ (command.quoteOf symbol).toList := by
        cases hquote : command.quoteOf symbol <;> simp [quotesOf, hquote]
      rw [hquotes] at hlevel
      have hbefore := ih fun quote hquote => hlevel quote (List.mem_append_left _ hquote)
      have hnow : ∀ quote ∈ command.quoteOf symbol, quote.bestPrice side = price := by
        intro quote hquote
        apply hlevel quote
        apply List.mem_append_right
        simpa using hquote
      have hafter := hbefore.step (hrun.reachable hfirst) hnow hstep
      have hdisplays : ((command.quoteOf symbol).toList.map (·.bestQuantity side)) =
          ((command.quoteOf symbol).map (·.bestQuantity side)).toList := by
        cases command.quoteOf symbol <;> rfl
      rw [hquotes, List.map_append, hdisplays]
      simpa [filledInRun] using hafter

/-! ## The whole run -/

/-- Every fill of a run's log was written by one of its quotes. -/
theorem PaperRun.fills {account : AccountSnapshot} {costs : CostPolicy} {tradeDate : Day}
    {first last : PaperSession D} {steps : List (PaperStep D)}
    (hempty : PaperSession.empty account costs tradeDate = .ok first)
    (hrun : PaperRun first steps last) {event : PaperOrderEvent D}
    (hevent : Operation.event event ∈ last.operations) {fill : PaperFillEvidence D}
    (hfill : event.fillEvidence = some fill) :
    ∃ step ∈ steps, ∃ market policy, step.command = .processQuote market ∧
      step.configuration.resolvePaperExecution step.before.ledger.tradeDate =
        .ok (some policy) ∧
      ∃ intent ∈ last.intents, ∃ available,
        FilledFrom market policy intent available event fill := by
  induction hrun with
  | start =>
      obtain ⟨_, -, rfl, -⟩ := empty_ok hempty
      simp at hevent
  | @command steps session result configuration command hrun hstep ih =>
      obtain rfl | ⟨operations, hwrites, hcommitted⟩ := PaperCommand.run_ok hstep
      · obtain ⟨step, hmem, hrest⟩ := ih hevent
        exact ⟨step, List.mem_append_left _ hmem, hrest⟩
      have hgrown : ∀ intent ∈ session.intents, intent ∈ result.intents := by
        intro intent hintent
        rw [PaperSession.intents, hcommitted.operations, intentsOf_append]
        exact List.mem_append_left _ hintent
      rw [hcommitted.operations, List.mem_append] at hevent
      rcases hevent with hold | hnew
      · obtain ⟨step, hmem, market, policy, hcommand, hpolicy, intent, hintent, hrest⟩ := ih hold
        exact ⟨step, List.mem_append_left _ hmem, market, policy, hcommand, hpolicy, intent,
          hgrown intent hintent, hrest⟩
      · obtain ⟨market, policy, hcommand, hpolicy, intent, hintent, hrest⟩ :=
          hwrites.fills hnew hfill
        exact ⟨⟨configuration, command, session, result⟩, by simp, market, policy, hcommand,
          hpolicy, intent, hgrown intent hintent, hrest⟩

/-- **Displayed liquidity is never over-used.**  In every run of successful
commands from an account's empty session: the fills of one quote key, over all
orders, stay within the displayed quantity of a processed quote with that key;
while the best price of a symbol's side does not change over consecutive quotes,
the fills of that side stay within the first display and the later increases;
and every fill is whole lots within the limit, from a quote received after the
order was created, recent enough, before the order expires. -/
theorem displayed_liquidity_bounds {account : AccountSnapshot} {costs : CostPolicy}
    {tradeDate : Day} {first last : PaperSession D} {steps : List (PaperStep D)}
    (hempty : PaperSession.empty account costs tradeDate = .ok first)
    (hrun : PaperRun first steps last) :
    (∀ key : LiquidityKey, filledFrom key last.operations ≠ 0 →
      ∃ step ∈ steps, ∃ market side, step.command = .processQuote market ∧
        (market.streamSessionId, market.receiveSequence, market.symbol, side) = key ∧
        filledFrom key last.operations ≤ market.bestQuantity side) ∧
    (∀ before block after, steps = before ++ block ++ after →
      ∀ symbol side price,
        (∀ quote ∈ quotesOf symbol block, quote.bestPrice side = price) →
        filledInRun symbol side block ≤
          replenished ((quotesOf symbol block).map (·.bestQuantity side))) ∧
    ∀ event, Operation.event event ∈ last.operations → ∀ fill,
      event.fillEvidence = some fill →
      ∃ step ∈ steps, ∃ market policy, step.command = .processQuote market ∧
        step.configuration.resolvePaperExecution step.before.ledger.tradeDate =
          .ok (some policy) ∧
        ∃ intent ∈ last.intents, event.intentSha256 = intent.sha256 ∧
          fill.liquidityKey = (market.streamSessionId, market.receiveSequence,
            market.symbol, intent.action) ∧
          (∃ n, 0 < n ∧ fill.filledQuantity = n * policy.lotSize) ∧
          ¬ViolatesLimit intent fill.fillPrice ∧
          intent.createdAt < market.quoteReceivedAt ∧
          market.observedAt - market.quoteReceivedAt ≤
            seconds policy.maximumQuoteAgeSeconds ∧
          event.occurredAt = market.observedAt ∧ event.occurredAt < intent.expiresAt := by
  have hfirst : Reachable first := .empty hempty
  refine ⟨?_, ?_, ?_⟩
  · intro key hfilled
    obtain hzero | ⟨fill, hfill, hkey, hbound⟩ := (hrun.reachable hfirst).drawn key
    · exact absurd hzero hfilled
    obtain ⟨event, hevent, hevidence⟩ := mem_loggedFills.mp hfill
    obtain ⟨step, hstep, market, policy, hcommand, -, intent, -, available, hfrom⟩ :=
      hrun.fills hempty hevent hevidence
    refine ⟨step, hstep, market, intent.action, hcommand, ?_, ?_⟩
    · rw [← hkey, PaperFillEvidenceFields.liquidityKey, hfrom.stream, hfrom.sequence,
        hfrom.symbol, hfrom.action]
    · have hcapacity := hfrom.capacity
      have hdisplayed := hfrom.displayed
      omega
  · intro before block after hsteps symbol side price hlevel
    rw [hsteps] at hrun
    obtain ⟨_, hprefix, -⟩ := hrun.split
    obtain ⟨middle, hbefore, hblock⟩ := hprefix.split
    obtain ⟨_, -, hspent⟩ := Within.run (hbefore.reachable hfirst) hblock hlevel
    exact hspent.bounded
  · intro event hevent fill hfill
    obtain ⟨step, hstep, market, policy, hcommand, hpolicy, intent, hintent, available, hfrom⟩ :=
      hrun.fills hempty hevent hfill
    refine ⟨step, hstep, market, policy, hcommand, hpolicy, intent, hintent, hfrom.addressed,
      ?_, hfrom.lots, hfrom.within_limit, hfrom.created_before, hfrom.recent, hfrom.occurred, ?_⟩
    · rw [PaperFillEvidenceFields.liquidityKey, hfrom.stream, hfrom.sequence, hfrom.symbol,
        hfrom.action]
    · rw [hfrom.occurred]
      exact hfrom.before_expiry

theorem Rehearsal.run_steps {session : PaperSession Spelled}
    (h : Rehearsal.run = .ok session) : ∃ steps, PaperRun Rehearsal.opening steps session := by
  simp only [Rehearsal.run, bind_eq_ok] at h
  obtain ⟨submitted, hsubmitted, filled, hfilled, h⟩ := h
  have hsubmit := PaperRun.start.command (.submitEntry _ _) hsubmitted
  have hfill := hsubmit.command (.processQuote _) hfilled
  split at h
  · simp at h
  · simp only [bind_eq_ok] at h
    obtain ⟨exiting, hexiting, hsession⟩ := h
    have hexit := hfill.command (.submitExit _ _) hexiting
    exact ⟨_, hexit.command (.processQuote _) hsession⟩

/-- The rehearsed entry is filled out of the 100 shares its quote displays. -/
theorem displayed_liquidity_bounds_rehearsal : ∃ session steps,
    Rehearsal.run = .ok session ∧ PaperRun Rehearsal.opening steps session ∧
      filledFrom ("stream", 2, "VIC", .buy) session.operations = 100 ∧
      ∃ step ∈ steps, ∃ market side, step.command = .processQuote market ∧
        (market.streamSessionId, market.receiveSequence, market.symbol, side) =
          ("stream", 2, "VIC", .buy) ∧
        100 ≤ market.bestQuantity side := by
  have hbought : Rehearsal.run.toOption.any (fun session =>
      filledFrom ("stream", 2, "VIC", .buy) session.operations = 100) = true := by
    decide +kernel
  cases hrun : Rehearsal.run with
  | error raised => simp [hrun, Except.toOption] at hbought
  | ok session =>
      simp only [hrun, Except.toOption, Option.any_some, decide_eq_true_eq] at hbought
      obtain ⟨steps, hsteps⟩ := Rehearsal.run_steps hrun
      have hbounds := (displayed_liquidity_bounds Rehearsal.opening_empty hsteps).1
        ("stream", 2, "VIC", .buy) (by simp [hbought])
      rw [hbought] at hbounds
      exact ⟨session, steps, rfl, hsteps, hbought, hbounds⟩

end MiniLakehouse
