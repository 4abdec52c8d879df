import MiniLakehouse.Configuration.Trading
import MiniLakehouse.Features.Engine
import MiniLakehouse.Market.Bars

/-!
# Eligible windows

The engine keeps pruned deques that a reset clears.  Beside every symbol's state
stands the whole history of its run, resets included.  `Remembered` ties the two:
the history splits at the last reset, everything before it is no later than
`observed_from`, and the deques show every window of what follows from the
longest window before the engine's clock on.
-/

namespace MiniLakehouse

/-! ## Histories -/

/-- What happened to a symbol's features: a reset, or an accepted observation. -/
inductive FeatureEntry where
  | reset (resetAt : Instant)
  | trade (value : Trade)
  | quote (value : QuoteSnapshot)

namespace FeatureEntry

def time : FeatureEntry → Instant
  | .reset resetAt => resetAt
  | .trade value => value.receivedAt
  | .quote value => value.receivedAt

def asTrade : FeatureEntry → Option Trade
  | .trade value => some value
  | .reset _ | .quote _ => none

end FeatureEntry

/-- An auction observation leaves no entry. -/
def MarketEvent.entries : MarketEvent → List FeatureEntry
  | .trade value => [FeatureEntry.trade value]
  | .quote value => [FeatureEntry.quote value]
  | .auction _ => []

/-- All trades of a history. -/
def tradesOf (history : List FeatureEntry) : List Trade := history.filterMap (·.asTrade)

/-- The quote before which nothing was accepted since, unless a reset forgot it. -/
def quoteAfter : Option QuoteSnapshot → List FeatureEntry → Option QuoteSnapshot
  | latest, [] => latest
  | _, .reset _ :: rest => quoteAfter none rest
  | latest, .trade _ :: rest => quoteAfter latest rest
  | _, .quote value :: rest => quoteAfter (some value) rest

/-- The book flows between consecutive quotes, both complete and without a reset
between them, each at the receipt of its later quote. -/
def flowsFrom : Option QuoteSnapshot → List FeatureEntry → List (Instant × Int)
  | _, [] => []
  | _, .reset _ :: rest => flowsFrom none rest
  | latest, .trade _ :: rest => flowsFrom latest rest
  | latest, .quote value :: rest =>
      SymbolFeatures.transition latest value ++ flowsFrom (some value) rest

theorem quoteAfter_append (latest : Option QuoteSnapshot) (first second : List FeatureEntry) :
    quoteAfter latest (first ++ second) = quoteAfter (quoteAfter latest first) second := by
  induction first generalizing latest with
  | nil => rfl
  | cons entry first ih => cases entry <;> exact ih _

theorem flowsFrom_append (latest : Option QuoteSnapshot) (first second : List FeatureEntry) :
    flowsFrom latest (first ++ second) =
      flowsFrom latest first ++ flowsFrom (quoteAfter latest first) second := by
  induction first generalizing latest with
  | nil => rfl
  | cons entry first ih =>
      cases entry with
      | reset resetAt => exact ih none
      | trade value => exact ih latest
      | quote value =>
          have hrest := ih (some value)
          simp only [List.cons_append, flowsFrom, hrest, List.append_assoc]
          rfl

/-- A flow is received with its quote. -/
theorem transition_time {latest : Option QuoteSnapshot} {quote : QuoteSnapshot}
    {flow : Instant × Int} (h : flow ∈ SymbolFeatures.transition latest quote) :
    flow.1 = quote.receivedAt := by
  unfold SymbolFeatures.transition at h
  split at h
  · simp at h
  · split at h
    · split at h
      · rw [List.mem_singleton.mp h]
      · simp at h
    · simp at h

/-- Every flow of a history is received with one of its entries. -/
theorem exists_entry_of_flow {latest : Option QuoteSnapshot} {history : List FeatureEntry}
    {flow : Instant × Int} (h : flow ∈ flowsFrom latest history) :
    ∃ entry ∈ history, entry.time = flow.1 := by
  induction history generalizing latest with
  | nil => simp [flowsFrom] at h
  | cons entry history ih =>
      have hrest : ∀ latest, flow ∈ flowsFrom latest history →
          ∃ found ∈ entry :: history, found.time = flow.1 := by
        intro latest hflow
        obtain ⟨found, hfound, htime⟩ := ih hflow
        exact ⟨found, List.mem_cons_of_mem _ hfound, htime⟩
      cases entry with
      | reset resetAt => exact hrest none h
      | trade value => exact hrest latest h
      | quote value =>
          rcases List.mem_append.mp h with hnew | hflow
          · exact ⟨_, List.mem_cons_self, (transition_time hnew).symm⟩
          · exact hrest (some value) hflow

theorem transition_ordered (latest : Option QuoteSnapshot) (quote : QuoteSnapshot) :
    (SymbolFeatures.transition latest quote).Pairwise fun a b => a.1 ≤ b.1 := by
  unfold SymbolFeatures.transition
  split
  · exact List.Pairwise.nil
  · split
    · split
      · exact List.pairwise_singleton _ _
      · exact List.Pairwise.nil
    · exact List.Pairwise.nil

/-- The flows of an ordered history are in order. -/
theorem flowsFrom_ordered {latest : Option QuoteSnapshot} {history : List FeatureEntry}
    (h : history.Pairwise fun a b => a.time ≤ b.time) :
    (flowsFrom latest history).Pairwise fun a b => a.1 ≤ b.1 := by
  induction history generalizing latest with
  | nil => exact List.Pairwise.nil
  | cons entry history ih =>
      obtain ⟨hhead, htail⟩ := List.pairwise_cons.mp h
      cases entry with
      | reset resetAt => exact ih htail
      | trade value => exact ih htail
      | quote value =>
          refine List.pairwise_append.mpr ⟨transition_ordered latest value, ih htail, ?_⟩
          intro first hfirst second hsecond
          obtain ⟨found, hfound, htime⟩ := exists_entry_of_flow hsecond
          rw [transition_time hfirst, ← htime]
          exact hhead found hfound

theorem tradesOf_ordered {history : List FeatureEntry}
    (h : history.Pairwise fun a b => a.time ≤ b.time) :
    (tradesOf history).Pairwise fun a b => a.receivedAt ≤ b.receivedAt := by
  apply List.Pairwise.filterMap _ _ h
  intro first second hle trade htrade trade' htrade'
  cases first <;> cases second <;> simp_all [FeatureEntry.asTrade, FeatureEntry.time]

/-- Every trade of a history is one of its entries. -/
theorem mem_tradesOf {history : List FeatureEntry} {trade : Trade} :
    trade ∈ tradesOf history ↔ .trade trade ∈ history := by
  simp only [tradesOf, List.mem_filterMap]
  constructor
  · rintro ⟨entry, hentry, htrade⟩
    cases entry <;> simp_all [FeatureEntry.asTrade]
  · intro h
    exact ⟨_, h, rfl⟩

/-! ## One symbol -/

/-- A symbol's state after the entries `old` up to its last reset and the entries
`recent` since, at the stream session and from the instants given. -/
structure Remembered (configuration : TradingVersion) (stream : Option String)
    (reached : Instant → Prop) (state : SymbolFeatures) (old recent : List FeatureEntry) :
    Prop where
  unobserved : state.observedFrom = none → recent = []
  since : ∀ observedFrom ∈ state.observedFrom, ∀ entry ∈ old, entry.time ≤ observedFrom
  forgotten : quoteAfter none old = none
  latestQuote : state.latestQuote = quoteAfter none recent
  unbroken : ∀ resetAt, .reset resetAt ∉ recent
  session : ∀ trade ∈ tradesOf recent,
    state.session = some (configuration.market.sessionOf (.trade trade))
  stream : ∀ trade ∈ tradesOf recent, stream = some trade.position.streamSessionId
  ordered : recent.Pairwise fun a b => a.time ≤ b.time
  trades : ∀ t, reached t →
    Shows (·.receivedAt) (t - configuration.maxWindow) state.trades (tradesOf recent)
  bookFlows : ∀ t, reached t →
    Shows Prod.fst (t - configuration.maxWindow) state.bookFlows (flowsFrom none recent)

namespace Remembered

variable {configuration : TradingVersion} {stream stream' : Option String}
  {reached reached' : Instant → Prop} {state : SymbolFeatures} {old recent : List FeatureEntry}

/-- Nothing is remembered of a history that a reset ends. -/
theorem forget (session : Option MarketSession) (h : quoteAfter none old = none) :
    Remembered configuration stream reached { SymbolFeatures.initial with session := session }
      old [] where
  unobserved := fun _ => rfl
  since := by simp [SymbolFeatures.initial]
  forgotten := h
  latestQuote := rfl
  unbroken := by simp
  session := by simp [tradesOf]
  stream := by simp [tradesOf]
  ordered := List.Pairwise.nil
  trades := fun t _ => Shows.refl _ _
  bookFlows := fun t _ => Shows.refl _ _

/-- A later clock, of the same stream session, sees no more. -/
theorem receive (h : Remembered configuration stream reached state old recent)
    (hstream : ∀ id, stream = some id → stream' = some id)
    (hreached : ∀ t, reached' t → reached t) :
    Remembered configuration stream' reached' state old recent where
  unobserved := h.unobserved
  since := h.since
  forgotten := h.forgotten
  latestQuote := h.latestQuote
  unbroken := h.unbroken
  session := h.session
  stream := fun trade htrade => hstream _ (h.stream trade htrade)
  ordered := h.ordered
  trades := fun t ht => h.trades t (hreached t ht)
  bookFlows := fun t ht => h.bookFlows t (hreached t ht)

/-- Pruning at the clock hides no window that is still to come. -/
theorem prune (h : Remembered configuration stream reached state old recent) {now : Instant}
    (hnow : reached now) (hlater : ∀ t, reached t → now ≤ t) :
    Remembered configuration stream reached (state.prune configuration.maxWindow now) old
      recent where
  unobserved := h.unobserved
  since := h.since
  forgotten := h.forgotten
  latestQuote := h.latestQuote
  unbroken := h.unbroken
  session := h.session
  stream := h.stream
  ordered := h.ordered
  trades := by
    intro t ht
    have hpruned := (h.trades now hnow).prune (tradesOf_ordered h.ordered)
    exact hpruned.mono (Int.sub_le_sub_right (hlater t ht) _)
  bookFlows := by
    intro t ht
    have hpruned := (h.bookFlows now hnow).prune (flowsFrom_ordered h.ordered)
    exact hpruned.mono (Int.sub_le_sub_right (hlater t ht) _)

theorem ordered_snoc (h : Remembered configuration stream reached state old recent)
    {entry : FeatureEntry} (hbefore : ∀ found ∈ old ++ recent, found.time ≤ entry.time) :
    (recent ++ [entry]).Pairwise fun a b => a.time ≤ b.time := by
  refine List.pairwise_append.mpr ⟨h.ordered, List.pairwise_singleton _ _, ?_⟩
  intro found hfound last hlast
  rw [List.mem_singleton.mp hlast]
  exact hbefore found (List.mem_append_right _ hfound)

/-- What a state has observed since, when an observation starts it. -/
theorem since_getD (h : Remembered configuration stream reached state old recent) {now : Instant}
    (hbefore : ∀ found ∈ old ++ recent, found.time ≤ now) :
    ∀ observedFrom ∈ some (state.observedFrom.getD now), ∀ entry ∈ old,
      entry.time ≤ observedFrom := by
  intro observedFrom hobserved entry hentry
  obtain rfl := Option.some.inj hobserved
  cases hfrom : state.observedFrom with
  | none => exact hbefore entry (List.mem_append_left _ hentry)
  | some since => exact h.since since hfrom entry hentry

/-- **An accepted observation** of the session and the stream session. -/
theorem record (h : Remembered configuration stream reached state old recent)
    {event : MarketEvent} (hsession : state.session = some (configuration.market.sessionOf event))
    (hstream : stream = some event.position.streamSessionId)
    (hbefore : ∀ found ∈ old ++ recent, found.time ≤ event.receivedAt)
    (hnow : reached event.receivedAt) (hlater : ∀ t, reached t → event.receivedAt ≤ t) :
    Remembered configuration stream reached (state.record configuration.maxWindow event) old
      (recent ++ event.entries) := by
  cases event with
  | auction value =>
      rw [MarketEvent.entries, List.append_nil]
      exact h
  | trade value =>
      have htrades : tradesOf (recent ++ [FeatureEntry.trade value]) = tradesOf recent ++ [value] :=
        List.filterMap_append
      have hflows : flowsFrom none (recent ++ [FeatureEntry.trade value]) = flowsFrom none recent := by
        rw [flowsFrom_append]
        exact List.append_nil _
      apply Remembered.prune _ hnow hlater
      constructor
      case unobserved => simp
      case since => exact h.since_getD hbefore
      case forgotten => exact h.forgotten
      case latestQuote =>
        rw [MarketEvent.entries, quoteAfter_append]
        exact h.latestQuote
      case unbroken =>
        intro resetAt
        simpa [MarketEvent.entries] using h.unbroken resetAt
      case session =>
        intro trade htrade
        rw [MarketEvent.entries, htrades, List.mem_append, List.mem_singleton] at htrade
        rcases htrade with htrade | rfl
        · exact h.session trade htrade
        · exact hsession
      case stream =>
        intro trade htrade
        rw [MarketEvent.entries, htrades, List.mem_append, List.mem_singleton] at htrade
        rcases htrade with htrade | rfl
        · exact h.stream trade htrade
        · exact hstream
      case ordered => exact h.ordered_snoc hbefore
      case trades =>
        intro t ht
        rw [MarketEvent.entries, htrades]
        exact (h.trades t ht).append [value]
      case bookFlows =>
        intro t ht
        rw [MarketEvent.entries, hflows]
        exact h.bookFlows t ht
  | quote value =>
      have htrades : tradesOf (recent ++ [FeatureEntry.quote value]) = tradesOf recent := by
        rw [tradesOf, List.filterMap_append]
        exact List.append_nil _
      have hflows : flowsFrom none (recent ++ [FeatureEntry.quote value]) =
          flowsFrom none recent ++ SymbolFeatures.transition state.latestQuote value := by
        rw [flowsFrom_append, ← h.latestQuote]
        exact congrArg _ (List.append_nil _)
      apply Remembered.prune _ hnow hlater
      constructor
      case unobserved => simp
      case since => exact h.since_getD hbefore
      case forgotten => exact h.forgotten
      case latestQuote =>
        rw [MarketEvent.entries, quoteAfter_append]
        rfl
      case unbroken =>
        intro resetAt
        simpa [MarketEvent.entries] using h.unbroken resetAt
      case session =>
        rw [MarketEvent.entries, htrades]
        exact h.session
      case stream =>
        rw [MarketEvent.entries, htrades]
        exact h.stream
      case ordered => exact h.ordered_snoc hbefore
      case trades =>
        intro t ht
        rw [MarketEvent.entries, htrades]
        exact h.trades t ht
      case bookFlows =>
        intro t ht
        rw [MarketEvent.entries, hflows]
        exact (h.bookFlows t ht).append _

end Remembered

/-- The entries of entering a session. -/
def SymbolFeatures.enterEntries (state : SymbolFeatures) (session : MarketSession)
    (enteredAt : Instant) : List FeatureEntry :=
  if state.session = some session then [] else [FeatureEntry.reset enteredAt]

/-- A history splits at its last reset. -/
def Follows (configuration : TradingVersion) (stream : Option String) (reached : Instant → Prop)
    (state : SymbolFeatures) (history : List FeatureEntry) : Prop :=
  ∃ old recent, history = old ++ recent ∧
    Remembered configuration stream reached state old recent

namespace Follows

variable {configuration : TradingVersion} {stream stream' : Option String}
  {reached reached' : Instant → Prop} {state : SymbolFeatures} {history : List FeatureEntry}

theorem initial : Follows configuration stream reached .initial [] :=
  ⟨[], [], rfl, .forget none rfl⟩

theorem reset (history : List FeatureEntry) (session : Option MarketSession) (resetAt : Instant) :
    Follows configuration stream reached { SymbolFeatures.initial with session := session }
      (history ++ [FeatureEntry.reset resetAt]) := by
  refine ⟨history ++ [FeatureEntry.reset resetAt], [], by simp, .forget session ?_⟩
  rw [quoteAfter_append]
  rfl

theorem receive (h : Follows configuration stream reached state history)
    (hstream : ∀ id, stream = some id → stream' = some id)
    (hreached : ∀ t, reached' t → reached t) :
    Follows configuration stream' reached' state history := by
  obtain ⟨old, recent, rfl, hremembered⟩ := h
  exact ⟨old, recent, rfl, hremembered.receive hstream hreached⟩

theorem prune (h : Follows configuration stream reached state history) {now : Instant}
    (hnow : reached now) (hlater : ∀ t, reached t → now ≤ t) :
    Follows configuration stream reached (state.prune configuration.maxWindow now) history := by
  obtain ⟨old, recent, rfl, hremembered⟩ := h
  exact ⟨old, recent, rfl, hremembered.prune hnow hlater⟩

/-- Entering another session is a reset. -/
theorem enter (h : Follows configuration stream reached state history) (session : MarketSession)
    (enteredAt : Instant) :
    Follows configuration stream reached (state.enter session)
      (history ++ state.enterEntries session enteredAt) := by
  unfold SymbolFeatures.enter SymbolFeatures.enterEntries
  by_cases hsession : state.session = some session
  · rw [if_pos hsession, if_pos hsession, List.append_nil]
    exact h
  · rw [if_neg hsession, if_neg hsession]
    exact reset history (some session) enteredAt

theorem record (h : Follows configuration stream reached state history) {event : MarketEvent}
    (hsession : state.session = some (configuration.market.sessionOf event))
    (hstream : stream = some event.position.streamSessionId)
    (hbefore : ∀ found ∈ history, found.time ≤ event.receivedAt)
    (hnow : reached event.receivedAt) (hlater : ∀ t, reached t → event.receivedAt ≤ t) :
    Follows configuration stream reached (state.record configuration.maxWindow event)
      (history ++ event.entries) := by
  obtain ⟨old, recent, rfl, hremembered⟩ := h
  refine ⟨old, recent ++ event.entries, List.append_assoc _ _ _, ?_⟩
  exact hremembered.record hsession hstream hbefore hnow hlater

end Follows

theorem SymbolFeatures.enter_session (state : SymbolFeatures) (session : MarketSession) :
    (state.enter session).session = some session := by
  unfold SymbolFeatures.enter
  split
  · assumption
  · rfl

/-! ## Runs -/

/-- A call of an engine's owner. -/
inductive FeatureCall (D : Type) where
  | apply (envelope : StreamEnvelope D)
  | snapshots (decisionAt : Instant)

/-- The receipt of an applied envelope. -/
def FeatureCall.receipt {D : Type} : FeatureCall D → Option Instant
  | .apply envelope => some envelope.receivedAt
  | .snapshots _ => none

/-- Envelopes are applied in the order of their receipts. -/
def ReceiptOrdered {D : Type} (calls : List (FeatureCall D)) : Prop :=
  (calls.filterMap (·.receipt)).Pairwise (· ≤ ·)

/-- An engine with the whole history of every symbol. -/
structure FeatureRun where
  engine : FeatureEngine
  history : String → List FeatureEntry

namespace FeatureRun

variable {D : Type} [Hashing D] [Sdk] (configuration : TradingVersion)

def start : FeatureRun := ⟨.initial configuration, fun _ => []⟩

/-- The entries of a reconnect, for every symbol. -/
def reconnectEntries (engine : FeatureEngine) (envelope : StreamEnvelope D) : List FeatureEntry :=
  if engine.reconnects envelope.streamSessionId then [FeatureEntry.reset envelope.receivedAt]
  else []

/-- The features of a symbol that a reconnect leaves. -/
def connected (engine : FeatureEngine) (envelope : StreamEnvelope D) (symbol : String) :
    SymbolFeatures :=
  if engine.reconnects envelope.streamSessionId then .initial else engine.symbols symbol

/-- The entries of one symbol for an event that market state accepted. -/
def eventEntries (engine : FeatureEngine) (envelope : StreamEnvelope D) (symbol : String)
    (event : MarketEvent) : List FeatureEntry :=
  if event.symbol = symbol then
    (connected engine envelope symbol).enterEntries (configuration.market.sessionOf event)
      envelope.receivedAt ++ event.entries
  else []

/-- What an applied envelope adds to a symbol's history. -/
def appliedEntries (engine : FeatureEngine) (envelope : StreamEnvelope D) (symbol : String) :
    List FeatureEntry :=
  if engine.lastDecisionAt.any (envelope.receivedAt < ·) then []
  else
    reconnectEntries engine envelope ++
      match (engine.market.apply configuration envelope).1 with
      | .error _ => []
      | .ok update => update.event.elim [] (eventEntries configuration engine envelope symbol)

/-- One call.  A run goes on after an envelope that raises; it ends with a
decision that raises. -/
def step (run : FeatureRun) : FeatureCall D → Except Raised FeatureRun
  | .apply envelope => .ok {
      engine := (run.engine.apply configuration envelope).2
      history := fun symbol =>
        run.history symbol ++ appliedEntries configuration run.engine envelope symbol }
  | .snapshots decisionAt => do
      let (_, engine) ← run.engine.snapshots (D := D) configuration decisionAt
      let session := configuration.market.sessionAt decisionAt
        (configuration.market.timezone.date decisionAt)
      return {
        engine := engine
        history := fun symbol =>
          run.history symbol ++ (run.engine.symbols symbol).enterEntries session decisionAt }

/-- Any calls of a new engine. -/
def runAll (calls : List (FeatureCall D)) : Except Raised FeatureRun :=
  calls.foldlM (step configuration) (start configuration)

end FeatureRun

/-- An instant that the engine's clock does not exceed. -/
def FeatureEngine.Reached (engine : FeatureEngine) (t : Instant) : Prop :=
  (∀ receivedAt ∈ engine.lastReceivedAt, receivedAt ≤ t) ∧
    ∀ decisionAt ∈ engine.lastDecisionAt, decisionAt ≤ t

/-- A run whose every state follows its history, all of it no later than a receipt
or the last decision. -/
structure Followed (configuration : TradingVersion) (receipts : List Instant)
    (run : FeatureRun) : Prop where
  follows : ∀ symbol, Follows configuration run.engine.lastStreamSessionId run.engine.Reached
    (run.engine.symbols symbol) (run.history symbol)
  bounded : ∀ symbol, ∀ entry ∈ run.history symbol,
    (∃ receipt ∈ receipts, entry.time ≤ receipt) ∨
      ∃ decisionAt ∈ run.engine.lastDecisionAt, entry.time ≤ decisionAt
  received : ∀ receivedAt ∈ run.engine.lastReceivedAt, receivedAt ∈ receipts

section

variable {D : Type} [Hashing D] [Sdk] {configuration : TradingVersion}

/-- An event that market state reports is its envelope's. -/
theorem MarketState.apply_event {state : MarketState} {envelope : StreamEnvelope D}
    {update : MarketUpdate} (h : (state.apply configuration envelope).1 = .ok update)
    {event : MarketEvent} (hevent : update.event = some event) :
    event.receivedAt = envelope.receivedAt ∧
      event.position.streamSessionId = envelope.streamSessionId := by
  obtain ⟨-, ⟨issues, hok⟩ | ⟨raised, herror⟩⟩ | ⟨decoded, found, issues, hdecode, -, hok, -⟩ :=
    state.apply_cases configuration envelope
  · rw [hok] at h
    obtain rfl := Except.ok.inj h
    cases hevent
  · rw [herror] at h
    cases h
  · rw [hok] at h
    obtain rfl := Except.ok.inj h
    simp only [SymbolState.Observation.update] at hevent
    split at hevent
    · obtain rfl := Option.some.inj hevent
      obtain ⟨hreceived, hposition, -⟩ := decodeEvent_receipt hdecode
      rw [hposition]
      exact ⟨hreceived, rfl⟩
    · cases hevent

/-- **What `apply` can do**: refuse the envelope, or clear the features of another
stream session's symbols and then leave market state raising, without an event, or
with one that is observed. -/
theorem FeatureEngine.apply_cases (engine : FeatureEngine) (envelope : StreamEnvelope D) :
    let applied := engine.apply configuration envelope
    let connected := { engine with
      symbols := FeatureRun.connected engine envelope
      market := (engine.market.apply configuration envelope).2 }
    let early := engine.lastDecisionAt.any (envelope.receivedAt < ·)
    (early = true ∧ applied.2 = engine) ∨
    early = false ∧
      ((∃ raised, (engine.market.apply configuration envelope).1 = .error raised ∧
        applied.2 = connected) ∨
      ∃ update, (engine.market.apply configuration envelope).1 = .ok update ∧
        applied.2 = (update.event.elim connected (connected.observe configuration)).receive
          envelope) := by
  intro applied connected early
  cases hearly : early with
  | true =>
      refine .inl ⟨rfl, ?_⟩
      simp only [applied, FeatureEngine.apply]
      rw [if_pos hearly]
  | false =>
      have hsymbols : (if engine.reconnects envelope.streamSessionId then fun _ => .initial
          else engine.symbols) = FeatureRun.connected engine envelope := by
        funext symbol
        unfold FeatureRun.connected
        split <;> rfl
      refine .inr ⟨rfl, ?_⟩
      simp only [applied, FeatureEngine.apply]
      rw [if_neg (by simpa [early] using hearly), hsymbols]
      cases hresult : (engine.market.apply configuration envelope).1 with
      | error raised => exact .inl ⟨raised, rfl, rfl⟩
      | ok update => exact .inr ⟨update, rfl, rfl⟩

omit [Sdk] [Hashing D] in
theorem SymbolFeatures.enterEntries_time {state : SymbolFeatures} {session : MarketSession}
    {enteredAt : Instant} {entry : FeatureEntry}
    (h : entry ∈ state.enterEntries session enteredAt) : entry.time = enteredAt := by
  unfold SymbolFeatures.enterEntries at h
  split at h
  · simp at h
  · rw [List.mem_singleton.mp h]
    rfl

/-- Everything that an envelope adds is of its receipt. -/
theorem FeatureRun.appliedEntries_time {engine : FeatureEngine} {envelope : StreamEnvelope D}
    {symbol : String} {entry : FeatureEntry}
    (h : entry ∈ appliedEntries configuration engine envelope symbol) :
    entry.time = envelope.receivedAt := by
  unfold appliedEntries at h
  split at h
  · simp at h
  · rcases List.mem_append.mp h with h | h
    · unfold reconnectEntries at h
      split at h
      · rw [List.mem_singleton.mp h]
        rfl
      · simp at h
    · split at h
      · simp at h
      · next update hupdate =>
          cases hevent : update.event with
          | none => simp [hevent] at h
          | some event =>
              rw [hevent, Option.elim_some, eventEntries] at h
              split at h
              · rcases List.mem_append.mp h with h | h
                · exact SymbolFeatures.enterEntries_time h
                · rw [← (MarketState.apply_event hupdate hevent).1]
                  cases event <;> simp_all [MarketEvent.entries, FeatureEntry.time,
                    MarketEvent.receivedAt]
              · simp at h

omit [Hashing D] [Sdk] in
/-- A receipt that does not precede the last one becomes it. -/
theorem FeatureEngine.receive_eq {engine : FeatureEngine} {envelope : StreamEnvelope D}
    (h : ∀ receivedAt ∈ engine.lastReceivedAt, receivedAt ≤ envelope.receivedAt) :
    engine.receive envelope = { engine with
      lastReceivedAt := some envelope.receivedAt
      lastStreamSessionId := some envelope.streamSessionId
      lastReceiveSequence := some envelope.receiveSequence } := by
  apply if_pos
  rw [Option.all_eq_true]
  exact fun receivedAt hmem => decide_eq_true (h receivedAt hmem)

namespace Followed

variable {receipts : List Instant} {run : FeatureRun}

omit [Sdk] in
theorem start : Followed configuration [] (.start configuration) where
  follows := fun _ => .initial
  bounded := by simp [FeatureRun.start]
  received := by simp [FeatureRun.start, FeatureEngine.initial]

omit [Hashing D] [Sdk] in
/-- The features that a reconnect leaves, at another clock. -/
theorem connected (h : Followed configuration receipts run) (envelope : StreamEnvelope D)
    (symbol : String) {stream' : Option String} {reached' : Instant → Prop}
    (hstream : run.engine.reconnects envelope.streamSessionId = false →
      ∀ id, run.engine.lastStreamSessionId = some id → stream' = some id)
    (hreached : ∀ t, reached' t → run.engine.Reached t) :
    Follows configuration stream' reached' (FeatureRun.connected run.engine envelope symbol)
      (run.history symbol ++ FeatureRun.reconnectEntries run.engine envelope) := by
  unfold FeatureRun.connected FeatureRun.reconnectEntries
  cases hreconnects : run.engine.reconnects envelope.streamSessionId with
  | true => exact .reset (run.history symbol) none envelope.receivedAt
  | false =>
      simp only [Bool.false_eq_true, if_false, List.append_nil]
      exact (h.follows symbol).receive (hstream hreconnects) hreached

/-- **One envelope**, received no earlier than any before. -/
theorem apply (h : Followed configuration receipts run) (envelope : StreamEnvelope D)
    (hordered : ∀ receipt ∈ receipts, receipt ≤ envelope.receivedAt) :
    Followed configuration (receipts ++ [envelope.receivedAt]) {
      engine := (run.engine.apply configuration envelope).2
      history := fun symbol =>
        run.history symbol ++ FeatureRun.appliedEntries configuration run.engine envelope symbol } := by
  have hbounded : ∀ engine : FeatureEngine, engine.lastDecisionAt = run.engine.lastDecisionAt →
      ∀ symbol, ∀ entry ∈ run.history symbol ++
        FeatureRun.appliedEntries configuration run.engine envelope symbol,
      (∃ receipt ∈ receipts ++ [envelope.receivedAt], entry.time ≤ receipt) ∨
        ∃ decisionAt ∈ engine.lastDecisionAt, entry.time ≤ decisionAt := by
    intro engine hdecision symbol entry hentry
    rcases List.mem_append.mp hentry with hentry | hentry
    · rw [hdecision]
      refine (h.bounded symbol entry hentry).imp_left ?_
      rintro ⟨receipt, hreceipt, hle⟩
      exact ⟨receipt, List.mem_append_left _ hreceipt, hle⟩
    · have htime := FeatureRun.appliedEntries_time hentry
      exact .inl ⟨envelope.receivedAt, by simp, htime.le⟩
  obtain ⟨hearly, hsame⟩ | ⟨hearly, hcases⟩ :=
    @FeatureEngine.apply_cases D _ _ configuration run.engine envelope
  · have hentries : ∀ symbol,
        FeatureRun.appliedEntries configuration run.engine envelope symbol = [] := by
      intro symbol
      rw [FeatureRun.appliedEntries, if_pos hearly]
    simp only [hsame]
    constructor
    case follows =>
      intro symbol
      dsimp only
      rw [hentries, List.append_nil]
      exact h.follows symbol
    case bounded => exact hbounded _ rfl
    case received =>
      intro receivedAt hreceived
      exact List.mem_append_left _ (h.received receivedAt hreceived)
  · have hdecision : ∀ decisionAt ∈ run.engine.lastDecisionAt, decisionAt ≤ envelope.receivedAt := by
      intro decisionAt hmem
      simpa [Option.mem_def.mp hmem] using hearly
    have hbefore : ∀ symbol, ∀ entry ∈ run.history symbol, entry.time ≤ envelope.receivedAt := by
      intro symbol entry hentry
      obtain ⟨receipt, hreceipt, hle⟩ | ⟨decisionAt, hmem, hle⟩ := h.bounded symbol entry hentry
      · exact hle.trans (hordered receipt hreceipt)
      · exact hle.trans (hdecision decisionAt hmem)
    have hlast : ∀ receivedAt ∈ run.engine.lastReceivedAt, receivedAt ≤ envelope.receivedAt :=
      fun receivedAt hmem => hordered receivedAt (h.received receivedAt hmem)
    obtain ⟨raised, hraised, hengine⟩ | ⟨update, hupdate, hengine⟩ := hcases
    · -- Market state raises: the receipt is not the last one, but a reconnect has been seen.
      have hentries : ∀ symbol, FeatureRun.appliedEntries configuration run.engine envelope symbol =
          FeatureRun.reconnectEntries run.engine envelope := by
        intro symbol
        rw [FeatureRun.appliedEntries, if_neg (by simpa using hearly), hraised, List.append_nil]
      simp only [hengine]
      constructor
      case follows =>
        intro symbol
        dsimp only
        rw [hentries]
        exact h.connected envelope symbol (fun _ _ hid => hid) (fun _ ht => ht)
      case bounded => exact hbounded _ rfl
      case received =>
        intro receivedAt hreceived
        exact List.mem_append_left _ (h.received receivedAt hreceived)
    · -- The clock of the engine that has received the envelope.
      let reached (t : Instant) : Prop :=
        (∀ receivedAt ∈ some envelope.receivedAt, receivedAt ≤ t) ∧
          ∀ decisionAt ∈ run.engine.lastDecisionAt, decisionAt ≤ t
      have hlater : ∀ t, reached t → envelope.receivedAt ≤ t := fun t ht => ht.1 _ rfl
      have hnow : reached envelope.receivedAt :=
        ⟨fun receivedAt hmem => (Option.some.inj hmem).ge, hdecision⟩
      have hconnected : ∀ symbol, Follows configuration (some envelope.streamSessionId) reached
          (FeatureRun.connected run.engine envelope symbol)
          (run.history symbol ++ FeatureRun.reconnectEntries run.engine envelope) := by
        intro symbol
        apply h.connected envelope symbol
        · intro hreconnects id hid
          simpa [FeatureEngine.reconnects, hid] using hreconnects
        · intro t ht
          exact ⟨fun receivedAt hmem => (hlast receivedAt hmem).trans (hlater t ht), ht.2⟩
      cases hevent : update.event with
      | none =>
          have hentries : ∀ symbol, FeatureRun.appliedEntries configuration run.engine envelope
              symbol = FeatureRun.reconnectEntries run.engine envelope := by
            intro symbol
            rw [FeatureRun.appliedEntries, if_neg (by simpa using hearly), hupdate]
            simp [hevent]
          rw [hevent, Option.elim_none, FeatureEngine.receive_eq (by exact hlast)] at hengine
          simp only [hengine]
          constructor
          case follows =>
            intro symbol
            dsimp only
            rw [hentries]
            exact hconnected symbol
          case bounded => exact hbounded _ rfl
          case received => simp
      | some event =>
          obtain ⟨hreceivedAt, hsession⟩ := MarketState.apply_event hupdate hevent
          have hentries : ∀ symbol, FeatureRun.appliedEntries configuration run.engine envelope
              symbol = FeatureRun.reconnectEntries run.engine envelope ++
                FeatureRun.eventEntries configuration run.engine envelope symbol event := by
            intro symbol
            rw [FeatureRun.appliedEntries, if_neg (by simpa using hearly), hupdate]
            simp [hevent]
          rw [hevent, Option.elim_some, FeatureEngine.receive_eq (by exact hlast)] at hengine
          simp only [hengine]
          constructor
          case follows =>
            intro symbol
            dsimp only [FeatureEngine.observe]
            rw [hentries, FeatureRun.eventEntries]
            by_cases hsymbol : event.symbol = symbol
            · subst hsymbol
              rw [if_pos rfl, Function.update_self, ← List.append_assoc, ← List.append_assoc]
              refine ((hconnected event.symbol).enter
                (configuration.market.sessionOf event) envelope.receivedAt).record ?_ ?_ ?_ ?_ ?_
              · exact SymbolFeatures.enter_session _ _
              · rw [hsession]
              · intro entry hentry
                rw [hreceivedAt]
                rcases List.mem_append.mp hentry with hentry | hentry
                · rcases List.mem_append.mp hentry with hentry | hentry
                  · exact hbefore _ entry hentry
                  · unfold FeatureRun.reconnectEntries at hentry
                    split at hentry
                    · rw [List.mem_singleton.mp hentry]
                      exact le_rfl
                    · simp at hentry
                · exact (SymbolFeatures.enterEntries_time hentry).le
              · rw [hreceivedAt]
                exact hnow
              · rw [hreceivedAt]
                exact hlater
            · rw [if_neg hsymbol, List.append_nil, Function.update_of_ne (Ne.symm hsymbol)]
              exact hconnected symbol
          case bounded => exact hbounded _ rfl
          case received => simp

end Followed

omit [Sdk] in
/-- **What `snapshots` does** where it returns. -/
theorem FeatureEngine.snapshots_eq_ok {engine engine' : FeatureEngine} {decisionAt : Instant}
    {emitted : List (FeatureSnapshot D)} :
    engine.snapshots configuration decisionAt = .ok (emitted, engine') →
    let session := configuration.market.sessionAt decisionAt
      (configuration.market.timezone.date decisionAt)
    let settled := engine.settle configuration decisionAt session
    (∀ last ∈ engine.lastDecisionAt, last < decisionAt) ∧
      (∀ receivedAt ∈ engine.lastReceivedAt, receivedAt ≤ decisionAt) ∧
      List.Forall₂ (fun symbol snapshot =>
        settled.snapshot configuration decisionAt session symbol = .ok snapshot)
        configuration.market.symbols emitted ∧
      engine' = { settled with lastDecisionAt := some decisionAt } := by
  intro h
  simp only [snapshots, bind_eq_ok, require_eq_ok, pure_eq_ok, Prod.mk.injEq] at h
  obtain ⟨_, -, _, hlast, _, hreceived, _, -, _, hemitted, rfl, rfl⟩ := h
  refine ⟨?_, ?_, mapM_eq_ok.mp hemitted, rfl⟩
  · simpa [Option.all_eq_true] using hlast
  · simpa [Option.all_eq_true] using hreceived

omit [Sdk] in
/-- **One decision**, which every symbol's features enter and are pruned for. -/
theorem Followed.snapshots {receipts : List Instant} {run : FeatureRun}
    (h : Followed configuration receipts run) {decisionAt : Instant}
    {emitted : List (FeatureSnapshot D)} {engine : FeatureEngine}
    (hsnapshots : run.engine.snapshots configuration decisionAt = .ok (emitted, engine)) :
    Followed configuration receipts {
      engine := engine
      history := fun symbol => run.history symbol ++
        (run.engine.symbols symbol).enterEntries (configuration.market.sessionAt decisionAt
          (configuration.market.timezone.date decisionAt)) decisionAt } := by
  obtain ⟨hlast, hreceived, -, rfl⟩ := FeatureEngine.snapshots_eq_ok hsnapshots
  constructor
  case follows =>
    intro symbol
    have hentered := (h.follows symbol).enter (configuration.market.sessionAt decisionAt
      (configuration.market.timezone.date decisionAt)) decisionAt
    refine Follows.prune (hentered.receive (fun _ hid => hid) ?_) ?_ ?_
    · intro t ht
      exact ⟨ht.1, fun last hmem => (hlast last hmem).le.trans (ht.2 decisionAt rfl)⟩
    · exact ⟨hreceived, fun last hmem => (Option.some.inj hmem).ge⟩
    · exact fun t ht => ht.2 decisionAt rfl
  case bounded =>
    intro symbol entry hentry
    rcases List.mem_append.mp hentry with hentry | hentry
    · obtain hreceipt | ⟨last, hmem, hle⟩ := h.bounded symbol entry hentry
      · exact .inl hreceipt
      · exact .inr ⟨decisionAt, rfl, hle.trans (hlast last hmem).le⟩
    · exact .inr ⟨decisionAt, rfl, (SymbolFeatures.enterEntries_time hentry).le⟩
  case received => exact h.received

/-- **Every run** in the order of receipts follows its histories. -/
theorem Followed.runAll {calls : List (FeatureCall D)} (hordered : ReceiptOrdered calls)
    {run : FeatureRun} (hrun : FeatureRun.runAll configuration calls = .ok run) :
    Followed configuration (calls.filterMap (·.receipt)) run := by
  revert hordered
  refine foldlM_prefix_invariant (I := fun done run => ReceiptOrdered done →
    Followed configuration (done.filterMap (·.receipt)) run) (fun _ => start) ?_ hrun
  intro done call before after hbefore hstep hordered
  rw [ReceiptOrdered, List.filterMap_append, List.pairwise_append] at hordered
  obtain ⟨hdone, -, hcross⟩ := hordered
  rw [List.filterMap_append]
  cases call with
  | apply envelope =>
      obtain rfl := Except.ok.inj hstep
      apply (hbefore hdone).apply envelope
      intro receipt hreceipt
      exact hcross receipt hreceipt envelope.receivedAt (by simp [FeatureCall.receipt])
  | snapshots decisionAt =>
      simp only [FeatureRun.step, bind_eq_ok, pure_eq_ok] at hstep
      obtain ⟨⟨emitted, engine⟩, hsnapshots, rfl⟩ := hstep
      have hnone : [FeatureCall.snapshots (D := D) decisionAt].filterMap (·.receipt) = [] := rfl
      rw [hnone, List.append_nil]
      exact (hbefore hdone).snapshots hsnapshots

end

/-! ## Eligible snapshots -/

/-- The windows of a decision have the values of all trades of a history in them
and of the book flows that are given for them. -/
def WindowsOver (configuration : TradingVersion) (history : List FeatureEntry)
    (flows : Instant → Instant → List (Instant × Int)) (decisionAt : Instant)
    (windows : List WindowFeatures) : Prop :=
  List.Forall₂ (fun windowSeconds window =>
    windowValues windowSeconds
      (within (·.receivedAt) (decisionAt - seconds windowSeconds) decisionAt (tradesOf history))
      ((flows (decisionAt - seconds windowSeconds) decisionAt).map Prod.snd) = .ok window)
    configuration.features.windowsSeconds windows

/-- The book flows of a history that are received after one instant and up to
another, each between consecutive complete quotes without a reset between them. -/
def flowsReceived (history : List FeatureEntry) (after upTo : Instant) : List (Instant × Int) :=
  within Prod.fst after upTo (flowsFrom none history)

variable {configuration : TradingVersion}

/-- A configured window is within the longest one and within the warmup. -/
theorem TradingVersion.window_le (configuration : TradingVersion) {window : Nat}
    (h : window ∈ configuration.features.windowsSeconds) :
    seconds window ≤ configuration.maxWindow ∧
      seconds window ≤ seconds configuration.features.warmupSeconds := by
  have hascending := configuration.features.windows_ascending.imp fun hless => Nat.le_of_lt hless
  have hlast := hascending.rel_getLast h
  have hwarmup := configuration.features.warmup_covers window h
  exact ⟨seconds_le.mpr (by exact_mod_cast hlast), seconds_le.mpr (by exact_mod_cast hwarmup)⟩

/-- A snapshot without a reason is warm. -/
theorem FeatureEngine.reasons_nil {engine : FeatureEngine} {symbol : String} {decisionAt : Instant}
    {session : MarketSession} {windows : List WindowFeatures} {reasons : List String}
    (h : engine.reasons configuration symbol decisionAt session windows = .ok reasons)
    (hnil : reasons.eraseDups = []) :
    ∃ observedFrom ∈ (engine.symbols symbol).observedFrom,
      observedFrom ≤ decisionAt - seconds configuration.features.warmupSeconds := by
  have hempty : reasons = [] := by
    cases reasons with
    | nil => rfl
    | cons reason rest => simp [List.eraseDups_cons] at hnil
  subst hempty
  unfold FeatureEngine.reasons at h
  split at h
  · simp only [bind_eq_ok, pure_eq_ok, List.append_eq_nil_iff, FeatureEngine.featureReasons] at h
    obtain ⟨_, -, _, -, -, hwarm, -⟩ := h
    split at hwarm
    · next hany =>
        obtain ⟨observedFrom, hmem, hle⟩ := (Option.any_eq_true _ _).mp hany
        exact ⟨observedFrom, hmem, le_sub_comm.mp (of_decide_eq_true hle)⟩
    · simp at hwarm
  · simp at h

/-- Features of another session than the decision's are not warm. -/
theorem SymbolFeatures.enter_warm {state : SymbolFeatures} {session : MarketSession}
    {observedFrom : Instant} (h : observedFrom ∈ (state.enter session).observedFrom) :
    state.session = some session := by
  unfold SymbolFeatures.enter at h
  split at h
  · assumption
  · cases h

section

variable {D : Type} [Hashing D] [Sdk]

/-- **Eligible feature windows are complete.**  In any run whose envelopes are
applied in the order of their receipts, every snapshot without a reason has, for
each configured window, the values of all trades of its symbol that market state
accepted in the whole run and that were received in the window, and of all book
flows received in it between consecutive complete quotes without a reset between
them.  Those trades are of the snapshot's market session and stream session, and
the symbol's features were not reset during the warmup. -/
theorem eligible_windows_complete {calls : List (FeatureCall D)} (hordered : ReceiptOrdered calls)
    {run : FeatureRun} (hrun : FeatureRun.runAll configuration calls = .ok run)
    {decisionAt : Instant} {emitted : List (FeatureSnapshot D)} {engine : FeatureEngine}
    (hsnapshots : run.engine.snapshots configuration decisionAt = .ok (emitted, engine))
    {snapshot : FeatureSnapshot D} (hmem : snapshot ∈ emitted) (heligible : snapshot.reasons = []) :
    let history := run.history snapshot.symbol
    WindowsOver configuration history (flowsReceived history) decisionAt snapshot.windows ∧
    (∀ windowSeconds ∈ configuration.features.windowsSeconds,
      ∀ trade ∈ within (·.receivedAt) (decisionAt - seconds windowSeconds) decisionAt
        (tradesOf history),
      configuration.market.sessionOf (.trade trade) = snapshot.marketSession ∧
        some trade.position.streamSessionId = snapshot.streamSessionId) ∧
    ∀ resetAt, .reset resetAt ∈ history →
      resetAt ≤ decisionAt - seconds configuration.features.warmupSeconds := by
  have hfollowed := (Followed.runAll hordered hrun).snapshots hsnapshots
  obtain ⟨hlast, hreceived, hemitted, rfl⟩ := FeatureEngine.snapshots_eq_ok hsnapshots
  obtain ⟨symbol, -, hsnapshot⟩ := exists_of_mem_forall₂ hemitted hmem
  simp only [FeatureEngine.snapshot, FeatureSnapshot.modelValidate, bind_eq_ok,
    validated_eq_ok] at hsnapshot
  obtain ⟨windows, hwindows, reasons, hreasons, book, -, hvalid, rfl⟩ := hsnapshot
  obtain ⟨observedFrom, hobserved, hwarm⟩ := FeatureEngine.reasons_nil hreasons heligible
  obtain ⟨old, recent, hhistory, hremembered⟩ := hfollowed.follows symbol
  -- A warm symbol was already in the decision's session, so nothing is reset for it.
  have hsession := SymbolFeatures.enter_warm hobserved
  dsimp only at hhistory
  rw [SymbolFeatures.enterEntries, if_pos hsession, List.append_nil] at hhistory
  have hold : ∀ entry ∈ old, entry.time ≤
      decisionAt - seconds configuration.features.warmupSeconds :=
    fun entry hentry => (hremembered.since observedFrom hobserved entry hentry).trans hwarm
  have hreached : FeatureEngine.Reached { run.engine.settle configuration decisionAt
      (configuration.market.sessionAt decisionAt (configuration.market.timezone.date decisionAt))
        with lastDecisionAt := some decisionAt } decisionAt :=
    ⟨hreceived, fun last hmem => (Option.some.inj hmem).ge⟩
  -- Before the warmup no trade and no flow of the history lies in a window.
  have htrades : ∀ windowSeconds ∈ configuration.features.windowsSeconds,
      within (·.receivedAt) (decisionAt - seconds windowSeconds) decisionAt
        (tradesOf (old ++ recent)) =
      within (·.receivedAt) (decisionAt - seconds windowSeconds) decisionAt (tradesOf recent) := by
    intro windowSeconds hwindow
    rw [tradesOf, List.filterMap_append]
    apply within_append_of_le
    intro trade htrade
    have hbefore := hold _ (mem_tradesOf.mp htrade)
    exact hbefore.trans (Int.sub_le_sub_left (configuration.window_le hwindow).2 _)
  have hflows : ∀ windowSeconds ∈ configuration.features.windowsSeconds,
      flowsReceived (old ++ recent) (decisionAt - seconds windowSeconds) decisionAt =
      within Prod.fst (decisionAt - seconds windowSeconds) decisionAt (flowsFrom none recent) := by
    intro windowSeconds hwindow
    rw [flowsReceived, flowsFrom_append, hremembered.forgotten]
    apply within_append_of_le
    intro flow hflow
    obtain ⟨entry, hentry, htime⟩ := exists_entry_of_flow hflow
    rw [← htime]
    exact (hold entry hentry).trans (Int.sub_le_sub_left (configuration.window_le hwindow).2 _)
  simp only [hhistory]
  refine ⟨?_, ?_, ?_⟩
  · refine List.forall₂_iff_get.mpr ⟨(mapM_eq_ok.mp hwindows).length_eq, ?_⟩
    intro i hi hi'
    have hwindow := List.get_mem configuration.features.windowsSeconds ⟨i, hi⟩
    have hvalues := (mapM_eq_ok.mp hwindows).get hi hi'
    have hlongest := Int.sub_le_sub_left (configuration.window_le hwindow).1 decisionAt
    rw [htrades _ hwindow, hflows _ hwindow,
      ← (hremembered.trades decisionAt hreached).same _ decisionAt hlongest,
      ← (hremembered.bookFlows decisionAt hreached).same _ decisionAt hlongest]
    exact hvalues
  · intro windowSeconds hwindow trade htrade
    rw [htrades windowSeconds hwindow] at htrade
    have hrecent := List.mem_of_mem_filter htrade
    have htradeSession := (hremembered.session trade hrecent).symm.trans
      (SymbolFeatures.enter_session _ _)
    exact ⟨Option.some.inj htradeSession, (hremembered.stream trade hrecent).symm⟩
  · intro resetAt hreset
    rcases List.mem_append.mp hreset with hreset | hreset
    · exact hold _ hreset
    · exact absurd hreset (hremembered.unbroken resetAt)

end

/-! ## Flows that a reset cuts -/

/-- The accepted observations of a history, without its resets. -/
def observations (history : List FeatureEntry) : List FeatureEntry :=
  history.filter fun
    | .reset _ => false
    | .trade _ | .quote _ => true

theorem WindowsOver.changes {history : List FeatureEntry}
    {flows : Instant → Instant → List (Instant × Int)} {decisionAt : Instant}
    {windows : List WindowFeatures}
    (h : WindowsOver configuration history flows decisionAt windows) :
    windows.map (·.quoteChangeCount) = configuration.features.windowsSeconds.map
      fun windowSeconds : Nat => (flows (decisionAt - seconds windowSeconds) decisionAt).length := by
  apply map_eq_of_forall₂
  refine List.Forall₂.imp ?_ h
  intro windowSeconds window hvalues
  rw [windowValues_changes hvalues, List.length_map]

namespace Rehearsal

def windowTrades : List TradeMessage :=
  [tradeMessage "09:20:10" 50000 10 "B" 10, tradeMessage "09:25:00" 50000 20 "S" 30,
    tradeMessage "09:25:05" 50000 5 "B" 35]

def windowQuotes : List QuoteMessage :=
  [quoteMessage "09:20:00" 49900 50000, quoteMessage "09:24:30" 49900 50000,
    quoteMessage "09:25:10" 49900 50000]

/-- A quote, then a reconnect, two more quotes and three trades. -/
def windowCalls : List (FeatureCall Spelled) :=
  [.apply (envelope "session-1" 1 "QuoteMessage" (quoteText (quoteMessage "09:20:00" 49900 50000))
      "09:20:00" 8401 (by decide +kernel)),
    .apply (envelope "session-2" 1 "TradeMessage"
      (tradeText (tradeMessage "09:20:10" 50000 10 "B" 10)) "09:20:10" 8411 (by decide +kernel)),
    .apply (envelope "session-2" 2 "QuoteMessage"
      (quoteText (quoteMessage "09:24:30" 49900 50000)) "09:24:30" 8671 (by decide +kernel)),
    .apply (envelope "session-2" 3 "TradeMessage"
      (tradeText (tradeMessage "09:25:00" 50000 20 "S" 30)) "09:25:00" 8701 (by decide +kernel)),
    .apply (envelope "session-2" 4 "TradeMessage"
      (tradeText (tradeMessage "09:25:05" 50000 5 "B" 35)) "09:25:05" 8706 (by decide +kernel)),
    .apply (envelope "session-2" 5 "QuoteMessage"
      (quoteText (quoteMessage "09:25:10" 49900 50000)) "09:25:10" 8711 (by decide +kernel))]

/-- 09:25:15, five minutes and four seconds after the reconnect. -/
def windowDecision : Instant := 20700 * dayLength + seconds 8715

/-- The book flows received in a window between consecutive quotes of the whole
run, resets or not. -/
def flowsOfRun (history : List FeatureEntry) (after upTo : Instant) : List (Instant × Int) :=
  within Prod.fst after upTo (flowsFrom none (observations history))

/-- The book flows between consecutive quotes that are both received in a window. -/
def flowsInside (history : List FeatureEntry) (after upTo : Instant) : List (Instant × Int) :=
  flowsFrom none (within FeatureEntry.time after upTo (observations history))

private def changes (flows : Instant → Instant → List (Instant × Int)) : List Nat :=
  Trading.marketState.features.windowsSeconds.map fun windowSeconds : Nat =>
    (flows (windowDecision - seconds windowSeconds) windowDecision).length

/-- The rehearsed run emits an eligible snapshot, of one flow in each window. -/
private def windowRehearsal : Bool :=
  letI := sdk windowTrades windowQuotes
  (FeatureRun.runAll Trading.marketState windowCalls).toOption.any fun run =>
    (run.engine.snapshots (D := Spelled) Trading.marketState windowDecision).toOption.any
      fun emitted => emitted.1.any fun snapshot =>
        snapshot.reasons == [] && snapshot.windows.map (·.quoteChangeCount) == [1, 1, 1] &&
          changes (flowsOfRun (run.history snapshot.symbol)) == [1, 2, 2] &&
          changes (flowsInside (run.history snapshot.symbol)) == [0, 1, 1]

private theorem windowRehearsal_holds : windowRehearsal = true := by decide +kernel

/-- The rehearsed run, taken apart. -/
private theorem windowRehearsal_run :
    letI := sdk windowTrades windowQuotes
    ∃ (run : FeatureRun) (emitted : List (FeatureSnapshot Spelled)) (engine : FeatureEngine)
      (snapshot : FeatureSnapshot Spelled),
      FeatureRun.runAll Trading.marketState windowCalls = .ok run ∧
      run.engine.snapshots Trading.marketState windowDecision = .ok (emitted, engine) ∧
      snapshot ∈ emitted ∧ snapshot.reasons = [] ∧
      snapshot.windows.map (·.quoteChangeCount) = [1, 1, 1] ∧
      changes (flowsOfRun (run.history snapshot.symbol)) = [1, 2, 2] ∧
      changes (flowsInside (run.history snapshot.symbol)) = [0, 1, 1] := by
  have hrehearsal := windowRehearsal_holds
  simp only [windowRehearsal, Option.any_eq_true, List.any_eq_true, Bool.and_eq_true,
    beq_iff_eq] at hrehearsal
  obtain ⟨run, hrun, emitted, hemitted, snapshot, hmem, ⟨⟨heligible, hchanges⟩, hrunFlows⟩,
    hinside⟩ := hrehearsal
  refine ⟨run, emitted.1, emitted.2, snapshot, ?_, ?_, hmem, heligible, hchanges, hrunFlows,
    hinside⟩
  · exact toOption_eq_some.mp hrun
  · exact toOption_eq_some.mp hemitted

theorem windowCalls_ordered : ReceiptOrdered windowCalls := by
  simp [ReceiptOrdered, windowCalls, FeatureCall.receipt, envelope, seconds]

end Rehearsal

open Rehearsal in
/-- **Flows that a reset cuts.**  An eligible snapshot's windows need not have the
book flows between all consecutive complete quotes of the run, whether a flow
counts for the receipt of its later quote or for the receipts of both. -/
theorem eligible_windows_unlike_quote_pairs :
    letI := sdk windowTrades windowQuotes
    ∃ (run : FeatureRun) (emitted : List (FeatureSnapshot Spelled)) (engine : FeatureEngine)
      (snapshot : FeatureSnapshot Spelled),
      ReceiptOrdered windowCalls ∧
      FeatureRun.runAll Trading.marketState windowCalls = .ok run ∧
      run.engine.snapshots Trading.marketState windowDecision = .ok (emitted, engine) ∧
      snapshot ∈ emitted ∧ snapshot.reasons = [] ∧
      ¬WindowsOver Trading.marketState (run.history snapshot.symbol)
        (flowsOfRun (run.history snapshot.symbol)) windowDecision snapshot.windows ∧
      ¬WindowsOver Trading.marketState (run.history snapshot.symbol)
        (flowsInside (run.history snapshot.symbol)) windowDecision snapshot.windows := by
  obtain ⟨run, emitted, engine, snapshot, hrun, hemitted, hmem, heligible, hchanges, hrunFlows,
    hinside⟩ := windowRehearsal_run
  refine ⟨run, emitted, engine, snapshot, windowCalls_ordered, hrun, hemitted, hmem, heligible,
    ?_, ?_⟩
  · intro hwindows
    have hcounts := hchanges.symm.trans hwindows.changes
    rw [← changes, hrunFlows] at hcounts
    simp at hcounts
  · intro hwindows
    have hcounts := hchanges.symm.trans hwindows.changes
    rw [← changes, hinside] at hcounts
    simp at hcounts

open Rehearsal in
/-- The rehearsed decision is eligible, and its windows are complete. -/
theorem eligible_windows_complete_rehearsal :
    letI := sdk windowTrades windowQuotes
    ∃ (run : FeatureRun) (snapshot : FeatureSnapshot Spelled),
      snapshot.windows.map (·.quoteChangeCount) = [1, 1, 1] ∧
      WindowsOver Trading.marketState (run.history snapshot.symbol)
        (flowsReceived (run.history snapshot.symbol)) windowDecision snapshot.windows := by
  obtain ⟨run, emitted, engine, snapshot, hrun, hemitted, hmem, heligible, hchanges, -, -⟩ :=
    windowRehearsal_run
  exact ⟨run, snapshot, hchanges, (@eligible_windows_complete Trading.marketState Spelled _
    (sdk windowTrades windowQuotes) _ windowCalls_ordered _ hrun _ _ _ hemitted _ hmem
    heligible).1⟩

end MiniLakehouse
