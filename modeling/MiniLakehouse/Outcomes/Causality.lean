import MiniLakehouse.Configuration.Trading
import MiniLakehouse.Library.Window
import MiniLakehouse.Market.Accepted
import MiniLakehouse.Outcomes.Engine

/-!
# Outcome labels look no further than their horizon

A tape holds the accepted quotes of its symbol, in order, so the quote of a label
is the last of them that is available at its instant.  Labels of two streams are
compared through what both tapes show there.
-/

namespace MiniLakehouse

variable {D : Type} {configuration : TradingVersion}

/-! ## Tapes -/

/-- The quotes of one symbol among events. -/
def symbolQuotes (events : List MarketEvent) (symbol : String) : List QuoteSnapshot :=
  (events.filterMap (·.asQuote)).filter (·.symbol = symbol)

/-- The last quote of a symbol that is available at an instant. -/
def lastQuote (events : List MarketEvent) (symbol : String) (evaluatedAt : Instant) :
    Option QuoteSnapshot :=
  ((symbolQuotes events symbol).filter (·.availableAt evaluatedAt)).getLast?

/-- An available quote was received by the instant. -/
theorem QuoteSnapshot.availableAt_le {quote : QuoteSnapshot} {evaluatedAt : Instant}
    (h : quote.availableAt evaluatedAt = true) : quote.receivedAt ≤ evaluatedAt := by
  obtain hless | ⟨hsame, -⟩ := Prod.Lex.toLex_le_toLex.mp (of_decide_eq_true h)
  · exact le_of_lt hless
  · exact le_of_eq hsame

/-- **Availability is receipt**, unless the quote's stream session sorts after the
last character or its sequence exceeds 63 bits. -/
theorem QuoteSnapshot.availableAt_iff {quote : QuoteSnapshot} {evaluatedAt : Instant}
    (hsession : quote.position.streamSessionId < String.singleton (Char.ofNat 0x10FFFF)) :
    quote.availableAt evaluatedAt = true ↔ quote.receivedAt ≤ evaluatedAt := by
  constructor
  · exact availableAt_le
  · intro h
    apply decide_eq_true
    apply Prod.Lex.toLex_le_toLex.mpr
    obtain hless | hsame := lt_or_eq_of_le h
    · exact .inl hless
    · exact .inr ⟨hsame, Prod.Lex.toLex_le_toLex.mpr (.inl hsession)⟩

theorem lastQuote_available {events : List MarketEvent} {symbol : String} {evaluatedAt : Instant}
    {quote : QuoteSnapshot} (h : lastQuote events symbol evaluatedAt = some quote) :
    quote.availableAt evaluatedAt = true := by
  have hmem : quote ∈ (symbolQuotes events symbol).filter (·.availableAt evaluatedAt) :=
    List.mem_of_getLast? h
  exact (List.mem_filter.mp hmem).2

/-- `latest` is the last available quote of its tape. -/
theorem QuoteTape.latest_eq (tape : QuoteTape) (evaluatedAt : Instant) :
    tape.latest evaluatedAt = (tape.quotes.filter (·.availableAt evaluatedAt)).getLast? := by
  unfold QuoteTape.latest
  congr 1
  exact takeWhile_eq_filter (tape.ordered.imp le_of_lt)

theorem QuoteTape.append_quotes {tape tape' : QuoteTape} {quote : QuoteSnapshot}
    (h : tape.append quote = .ok tape') : tape'.quotes = tape.quotes ++ [quote] := by
  unfold QuoteTape.append at h
  split at h
  · obtain rfl := Except.ok.inj h
    rfl
  · cases h

/-- **A tape holds the quotes of its symbol**, in the order of the events. -/
theorem observeQuote_all {events : List MarketEvent} {tapes : String → QuoteTape}
    (h : events.foldlM observeQuote (fun _ => QuoteTape.empty) = .ok tapes) (symbol : String) :
    (tapes symbol).quotes = symbolQuotes events symbol := by
  refine foldlM_prefix_invariant (I := fun done tapes =>
    ∀ symbol, (tapes symbol).quotes = symbolQuotes done symbol) (fun _ => rfl) ?_ h symbol
  intro done event before after hbefore hstep symbol
  have hsnoc : symbolQuotes (done ++ [event]) symbol =
      symbolQuotes done symbol ++ symbolQuotes [event] symbol := by
    simp [symbolQuotes, List.filterMap_append, List.filter_append]
  rw [hsnoc, ← hbefore symbol]
  cases event with
  | trade value =>
      obtain rfl := Except.ok.inj hstep
      exact (List.append_nil _).symm
  | auction value =>
      obtain rfl := Except.ok.inj hstep
      exact (List.append_nil _).symm
  | quote value =>
      simp only [observeQuote, bind_eq_ok, pure_eq_ok] at hstep
      obtain ⟨tape, htape, rfl⟩ := hstep
      by_cases hsymbol : value.symbol = symbol
      · subst hsymbol
        rw [Function.update_self, QuoteTape.append_quotes htape]
        simp [symbolQuotes, MarketEvent.asQuote]
      · rw [Function.update_of_ne (Ne.symm hsymbol)]
        simp [symbolQuotes, MarketEvent.asQuote, hsymbol]

section

variable [Hashing D] [Sdk]

/-- **The tapes of a stream** show the last quotes that market state accepted, which
are all that the stream decodes to. -/
theorem quoteTapes_latest {envelopes : List (StreamEnvelope D)}
    {authorizedStreamSessionIds : List String} {tradeDate : Day} {tapes : String → QuoteTape}
    (h : quoteTapes envelopes configuration authorizedStreamSessionIds tradeDate = .ok tapes) :
    (∀ symbol evaluatedAt, (tapes symbol).latest evaluatedAt =
      lastQuote (acceptAll configuration envelopes).2 symbol evaluatedAt) ∧
    (acceptAll configuration envelopes).2 = envelopes.filterMap (decodedEvent configuration) := by
  simp only [quoteTapes, bind_eq_ok, require_eq_ok, pure_eq_ok] at h
  obtain ⟨_, -, result, hresult, _, hissues, rfl⟩ := h
  obtain ⟨hobserved, hdecoded⟩ := replay_observes hresult
  refine ⟨?_, hdecoded hissues⟩
  intro symbol evaluatedAt
  rw [QuoteTape.latest_eq, observeQuote_all hobserved symbol]
  rfl

/-! ## Two streams -/

/-- Two streams have the same envelopes received by an instant. -/
def ReceivedAlike (t : Instant) (first second : List (StreamEnvelope D)) : Prop :=
  first.filter (·.receivedAt ≤ t) = second.filter (·.receivedAt ≤ t)

theorem decodedEvent_receivedAt {envelope : StreamEnvelope D} {event : MarketEvent}
    (h : decodedEvent configuration envelope = some event) :
    event.receivedAt = envelope.receivedAt := by
  unfold decodedEvent at h
  split at h
  · cases h
  · split at h
    · next found hfound =>
        subst h
        exact (decodeEvent_receipt hfound).1
    · cases h

/-- The quote of a symbol that an envelope has available at an instant. -/
def availableQuote (configuration : TradingVersion) (symbol : String) (evaluatedAt : Instant)
    (envelope : StreamEnvelope D) : Option QuoteSnapshot :=
  (((decodedEvent configuration envelope).bind (·.asQuote)).filter (·.symbol = symbol)).filter
    (·.availableAt evaluatedAt)

theorem availableQuote_receivedAt {envelope : StreamEnvelope D} {symbol : String}
    {evaluatedAt : Instant} {quote : QuoteSnapshot}
    (h : availableQuote configuration symbol evaluatedAt envelope = some quote) :
    envelope.receivedAt ≤ evaluatedAt := by
  obtain ⟨hquote, havailable⟩ := Option.filter_eq_some_iff.mp h
  obtain ⟨event, hevent, hasQuote⟩ :=
    Option.bind_eq_some_iff.mp (Option.filter_eq_some_iff.mp hquote).1
  rw [← decodedEvent_receivedAt hevent]
  cases event with
  | trade value => cases hasQuote
  | auction value => cases hasQuote
  | quote value =>
      obtain rfl := Option.some.inj hasQuote
      exact QuoteSnapshot.availableAt_le havailable

theorem available_eq (envelopes : List (StreamEnvelope D)) (symbol : String)
    (evaluatedAt : Instant) :
    (symbolQuotes (envelopes.filterMap (decodedEvent configuration)) symbol).filter
        (·.availableAt evaluatedAt) =
      envelopes.filterMap (availableQuote configuration symbol evaluatedAt) := by
  rw [symbolQuotes, List.filterMap_filterMap, List.filter_filterMap, List.filter_filterMap]
  rfl

/-- What is available by an instant comes from the envelopes received by then. -/
theorem available_of_received (envelopes : List (StreamEnvelope D)) (symbol : String)
    {evaluatedAt t : Instant} (hle : evaluatedAt ≤ t) :
    (envelopes.filter (·.receivedAt ≤ t)).filterMap
        (availableQuote configuration symbol evaluatedAt) =
      envelopes.filterMap (availableQuote configuration symbol evaluatedAt) := by
  rw [List.filterMap_filter]
  apply List.filterMap_congr
  intro envelope _
  by_cases hreceived : envelope.receivedAt ≤ t
  · simp [hreceived]
  · cases havailable : availableQuote configuration symbol evaluatedAt envelope with
    | none => simp
    | some quote => exact absurd ((availableQuote_receivedAt havailable).trans hle) hreceived

/-- Streams that agree until an instant show the same last quotes by it. -/
theorem ReceivedAlike.lastQuote {t evaluatedAt : Instant} {first second : List (StreamEnvelope D)}
    (h : ReceivedAlike t first second) (hle : evaluatedAt ≤ t) (symbol : String) :
    lastQuote (first.filterMap (decodedEvent configuration)) symbol evaluatedAt =
      lastQuote (second.filterMap (decodedEvent configuration)) symbol evaluatedAt := by
  unfold MiniLakehouse.lastQuote
  rw [available_eq, available_eq, ← available_of_received first symbol hle, h,
    available_of_received second symbol hle]

end

/-! ## Labels -/

/-- An execution has the latest quote, and no price for another stream session's. -/
theorem executionPrice_quote (latest : Option QuoteSnapshot) (evaluatedAt : Instant)
    (action : Action) (quantity : Nat) (staleAfter : Int) (phase streamSessionId : String) :
    let execution := executionPrice latest evaluatedAt action quantity staleAfter phase
      streamSessionId
    execution.quote = latest ∧ ∀ quote ∈ latest, quote.position.streamSessionId = streamSessionId ∨
      execution.price = none ∧
        execution.reason = some ("CROSS_SEGMENT_" ++ phase ++ "_QUOTE") := by
  unfold executionPrice
  cases latest with
  | none => simp
  | some quote =>
      refine ⟨?_, ?_⟩
      · dsimp only
        split
        · rfl
        · split
          · rfl
          · split
            · rfl
            · split <;> rfl
      · intro found hfound
        obtain rfl := Option.some.inj hfound
        by_cases hsession : quote.position.streamSessionId = streamSessionId
        · exact .inl hsession
        · right
          dsimp only
          rw [if_pos hsession]
          exact ⟨rfl, rfl⟩

namespace OutcomeVersion

variable {policy : OutcomeVersion} {gaps : List StreamGap}
  {latest latest' : Instant → Option QuoteSnapshot} {streamSessionId : String}
  {sessionStop decisionAt : Instant} {horizonSeconds : Nat} {action : Action}

/-- **The executions of a markout**: none at all, or those of the latest quotes at
its two instants, whose reasons it has. -/
theorem markout_cases {found : Markout}
    (h : policy.markout configuration gaps latest streamSessionId sessionStop decisionAt
      horizonSeconds action = .ok found) :
    (found.entry = ⟨none, none, none⟩ ∧ found.horizon = ⟨none, none, none⟩) ∨
    let entryAt := policy.entryAt decisionAt
    let horizonAt := decisionAt + seconds horizonSeconds
    let staleAfter := seconds configuration.dataQuality.quoteStaleAfterSeconds
    found.entry = executionPrice (latest entryAt) entryAt action policy.orderQuantity staleAfter
        "ENTRY" streamSessionId ∧
      found.horizon = executionPrice (latest horizonAt) horizonAt action.opposite
        policy.orderQuantity staleAfter "HORIZON" streamSessionId ∧
      found.reasons = found.entry.reason.toList ++ found.horizon.reason.toList := by
  unfold markout at h
  dsimp only at h
  split at h
  · obtain rfl := Except.ok.inj h
    exact .inl ⟨rfl, rfl⟩
  · split at h
    · obtain rfl := Except.ok.inj h
      exact .inl ⟨rfl, rfl⟩
    · simp only [bind_eq_ok, pure_eq_ok] at h
      obtain ⟨gross, -, rfl⟩ := h
      exact .inr ⟨rfl, rfl, rfl⟩

/-- The latest quotes at its two instants decide a markout. -/
theorem markout_congr (hentry : latest (policy.entryAt decisionAt) =
      latest' (policy.entryAt decisionAt))
    (hhorizon : latest (decisionAt + seconds horizonSeconds) =
      latest' (decisionAt + seconds horizonSeconds)) :
    policy.markout configuration gaps latest streamSessionId sessionStop decisionAt horizonSeconds
        action =
      policy.markout configuration gaps latest' streamSessionId sessionStop decisionAt
        horizonSeconds action := by
  unfold markout
  dsimp only
  rw [hentry, hhorizon]

/-- The latest quote at its entry decides the entry of a markout. -/
theorem markout_entry {found found' : Markout}
    (h : policy.markout configuration gaps latest streamSessionId sessionStop decisionAt
      horizonSeconds action = .ok found)
    (h' : policy.markout configuration gaps latest' streamSessionId sessionStop decisionAt
      horizonSeconds action = .ok found')
    (hentry : latest (policy.entryAt decisionAt) = latest' (policy.entryAt decisionAt)) :
    found.entry = found'.entry := by
  unfold markout at h h'
  dsimp only at h h'
  split at h
  · next houtside =>
      rw [if_pos houtside] at h'
      rw [← Except.ok.inj h, ← Except.ok.inj h']
  · next hinside =>
      rw [if_neg hinside] at h'
      split at h
      · next hgap =>
          rw [if_pos hgap] at h'
          rw [← Except.ok.inj h, ← Except.ok.inj h']
      · next hgap =>
          rw [if_neg hgap] at h'
          simp only [bind_eq_ok, pure_eq_ok] at h h'
          obtain ⟨gross, -, rfl⟩ := h
          obtain ⟨gross', -, rfl⟩ := h'
          rw [hentry]

/-- An entry precedes every configured horizon. -/
theorem entryAt_le (policy : OutcomeVersion) (decisionAt : Instant) {horizon : Nat}
    (h : horizon ∈ policy.horizonsSeconds) :
    policy.entryAt decisionAt ≤ decisionAt + seconds horizon := by
  have hprecedes := policy.latency_precedes horizon h
  have hspan : milliseconds policy.executionLatencyMilliseconds ≤ seconds horizon := by
    unfold milliseconds seconds
    omega
  exact Int.add_le_add_left hspan decisionAt

end OutcomeVersion

section

variable [Hashing D] [Sdk]

/-- The quote that a label names, if any: the last available one of its symbol at
the instant, of the snapshot's stream session unless the label says otherwise and
has no price of it. -/
def QuotedAt (events : List MarketEvent) (snapshot : FeatureSnapshot D) (evaluatedAt : Instant)
    (receivedAt : Option Instant) (receiveSequence : Option Nat) (price : Option Rat)
    (phase : String) (reasons : List String) : Prop :=
  ∀ received ∈ receivedAt, ∃ quote ∈ lastQuote events snapshot.symbol evaluatedAt,
    quote.receivedAt = received ∧ received ≤ evaluatedAt ∧
      receiveSequence = some quote.position.receiveSequence ∧
      (snapshot.streamSessionId = some quote.position.streamSessionId ∨
        price = none ∧ "CROSS_SEGMENT_" ++ phase ++ "_QUOTE" ∈ reasons)

/-- The label of a snapshot for a horizon and an action, among accepted events. -/
structure LabelOf (events : List MarketEvent) (item : FeatureSnapshot D × Nat × Action)
    (label : OutcomeLabel D) : Prop where
  snapshot : label.featureSnapshotSha256 = item.1.sha256
  symbol : label.symbol = item.1.symbol
  decisionAt : label.decisionAt = item.1.decisionAt
  horizonSeconds : label.horizonSeconds = item.2.1
  action : label.action = item.2.2
  validated : AllHold label.toOutcomeLabelFields.checks
  entry : QuotedAt events item.1 label.entryAt label.entryQuoteReceivedAt
    label.entryReceiveSequence label.entryVwap "ENTRY" label.reasons
  horizon : QuotedAt events item.1 label.horizonAt label.horizonQuoteReceivedAt
    label.horizonReceiveSequence label.horizonVwap "HORIZON" label.reasons

/-- The inputs of one label. -/
structure Labelled (envelopes : List (StreamEnvelope D)) (configuration : TradingVersion)
    (policy : OutcomeVersion) (gaps : List StreamGap) (item : FeatureSnapshot D × Nat × Action)
    (label : OutcomeLabel D) : Prop where
  labelled : ∃ (tapes : String → QuoteTape) (streamSessionId : String) (window : Instant × Instant),
    item.1.streamSessionId = some streamSessionId ∧
    configuration.market.sessionWindow item.1.tradeDate item.1.marketSession = .ok window ∧
    policy.label configuration gaps tapes item.1 streamSessionId window.2 item.2.1 item.2.2 =
      .ok label ∧
    (∀ symbol evaluatedAt, (tapes symbol).latest evaluatedAt =
      lastQuote (acceptAll configuration envelopes).2 symbol evaluatedAt)
  decoded : (acceptAll configuration envelopes).2 =
    envelopes.filterMap (decodedEvent configuration)
  configured : item.2.1 ∈ policy.horizonsSeconds

/-- **`label_outcomes` labels** every snapshot, horizon and action, in that order. -/
theorem labelOutcomes_labelled {snapshots : List (FeatureSnapshot D)}
    {envelopes : List (StreamEnvelope D)} {policy : OutcomeVersion}
    {authorizedStreamSessionIds : List String} {gaps : List StreamGap}
    {labels : List (OutcomeLabel D)}
    (h : labelOutcomes snapshots envelopes configuration policy authorizedStreamSessionIds gaps =
      .ok labels) :
    List.Forall₂ (Labelled envelopes configuration policy gaps)
      (snapshots ×ˢ (policy.horizonsSeconds ×ˢ actions)) labels := by
  unfold labelOutcomes at h
  split at h
  · obtain rfl := Except.ok.inj h
    exact .nil
  · next first rest =>
      simp only [bind_eq_ok, require_eq_ok, pure_eq_ok] at h
      obtain ⟨_, -, _, -, _, -, _, -, _, -, tapes, htapes, labelled, hlabelled, rfl⟩ := h
      obtain ⟨hlatest, hdecoded⟩ := quoteTapes_latest htapes
      apply forall₂_product
      refine (mapM_eq_ok.mp hlabelled).imp ?_
      intro snapshot found hfound
      unfold OutcomeVersion.labelSnapshot at hfound
      split at hfound
      · cases hfound
      · next streamSessionId hsession =>
          simp only [bind_eq_ok] at hfound
          obtain ⟨window, hwindow, hfound⟩ := hfound
          have hitems := mapM_eq_ok.mp hfound
          refine List.forall₂_iff_get.mpr ⟨hitems.length_eq, ?_⟩
          intro i hi hi'
          have hmem := List.get_mem (policy.horizonsSeconds ×ˢ actions) ⟨i, hi⟩
          exact ⟨⟨tapes, streamSessionId, window, hsession, hwindow, hitems.get hi hi', hlatest⟩,
            hdecoded, (List.mem_product.mp hmem).1⟩

omit [Hashing D] [Sdk] in
/-- The quote of one execution that a label reports. -/
theorem quotedAt_execution {events : List MarketEvent} {snapshot : FeatureSnapshot D}
    {streamSessionId : String} (hsession : snapshot.streamSessionId = some streamSessionId)
    (evaluatedAt : Instant) (action : Action) (quantity : Nat) (staleAfter : Int) (phase : String)
    {reasons : List String}
    (hreasons : ∀ reason ∈ (executionPrice (lastQuote events snapshot.symbol evaluatedAt)
      evaluatedAt action quantity staleAfter phase streamSessionId).reason, reason ∈ reasons) :
    let execution := executionPrice (lastQuote events snapshot.symbol evaluatedAt) evaluatedAt
      action quantity staleAfter phase streamSessionId
    QuotedAt events snapshot evaluatedAt (execution.quote.map (·.receivedAt))
      (execution.quote.map (·.position.receiveSequence)) execution.price phase reasons := by
  obtain ⟨hquote, hcross⟩ := executionPrice_quote (lastQuote events snapshot.symbol evaluatedAt)
    evaluatedAt action quantity staleAfter phase streamSessionId
  intro execution received hreceived
  have hlast : execution.quote = lastQuote events snapshot.symbol evaluatedAt := hquote
  rw [hlast] at hreceived ⊢
  obtain ⟨quote, hfound, rfl⟩ := Option.map_eq_some_iff.mp hreceived
  have havailable := lastQuote_available hfound
  refine ⟨quote, hfound, rfl, QuoteSnapshot.availableAt_le havailable, ?_, ?_⟩
  · rw [hfound]
    rfl
  · obtain hsame | ⟨hprice, hreason⟩ := hcross quote hfound
    · left
      rw [hsession, hsame]
    · exact .inr ⟨hprice, hreasons _ hreason⟩

/-- A label reports the executions of its own snapshot, horizon and action. -/
theorem Labelled.labelOf {envelopes : List (StreamEnvelope D)} {policy : OutcomeVersion}
    {gaps : List StreamGap} {item : FeatureSnapshot D × Nat × Action} {label : OutcomeLabel D}
    (h : Labelled envelopes configuration policy gaps item label) :
    LabelOf (acceptAll configuration envelopes).2 item label := by
  obtain ⟨tapes, streamSessionId, window, hsession, -, hlabel, hlatest⟩ := h.labelled
  simp only [OutcomeVersion.label, OutcomeLabel.modelValidate, bind_eq_ok,
    validated_eq_ok] at hlabel
  obtain ⟨found, hfound, hvalid, rfl⟩ := hlabel
  have hmem : ∀ reason ∈ found.reasons, reason ∈ ((if item.1.isEligible then []
      else ["FEATURE_INELIGIBLE"]) ++ found.reasons).eraseDups := by
    intro reason hreason
    exact List.mem_eraseDups.mpr (List.mem_append_right _ hreason)
  constructor
  case snapshot => rfl
  case symbol => rfl
  case decisionAt => rfl
  case horizonSeconds => rfl
  case action => rfl
  case validated => exact hvalid
  case entry =>
    obtain ⟨hentry, -⟩ | ⟨hentry, -, hreasons⟩ := OutcomeVersion.markout_cases hfound
    · intro received hreceived
      simp [hentry] at hreceived
    · dsimp only
      rw [hentry, hlatest]
      apply quotedAt_execution hsession
      intro reason hreason
      apply hmem
      rw [hreasons, hentry, hlatest]
      exact List.mem_append_left _ (Option.mem_toList.mpr hreason)
  case horizon =>
    obtain ⟨-, hhorizon⟩ | ⟨-, hhorizon, hreasons⟩ := OutcomeVersion.markout_cases hfound
    · intro received hreceived
      simp [hhorizon] at hreceived
    · dsimp only
      rw [hhorizon, hlatest]
      apply quotedAt_execution hsession
      intro reason hreason
      apply hmem
      rw [hreasons, hhorizon, hlatest]
      exact List.mem_append_right _ (Option.mem_toList.mpr hreason)

/-- **Two streams** give one snapshot, horizon and action the same label if they
agree until its horizon, and the same entry price if they agree until its entry. -/
theorem Labelled.agree {envelopes envelopes' : List (StreamEnvelope D)} {policy : OutcomeVersion}
    {gaps : List StreamGap} {item : FeatureSnapshot D × Nat × Action}
    {label label' : OutcomeLabel D}
    (h : Labelled envelopes configuration policy gaps item label)
    (h' : Labelled envelopes' configuration policy gaps item label') :
    (ReceivedAlike label.horizonAt envelopes envelopes' → label = label') ∧
      (ReceivedAlike label.entryAt envelopes envelopes' → label.entryVwap = label'.entryVwap) := by
  obtain ⟨tapes, streamSessionId, window, hsession, hwindow, hlabel, hlatest⟩ := h.labelled
  obtain ⟨tapes', streamSessionId', window', hsession', hwindow', hlabel', hlatest'⟩ := h'.labelled
  obtain rfl := Option.some.inj (hsession.symm.trans hsession')
  obtain rfl := Except.ok.inj (hwindow.symm.trans hwindow')
  have hlast : ∀ {t : Instant}, ReceivedAlike t envelopes envelopes' → ∀ evaluatedAt ≤ t,
      (tapes item.1.symbol).latest evaluatedAt = (tapes' item.1.symbol).latest evaluatedAt := by
    intro t hagree evaluatedAt hle
    rw [hlatest, hlatest', h.decoded, h'.decoded]
    exact hagree.lastQuote hle item.1.symbol
  simp only [OutcomeVersion.label, OutcomeLabel.modelValidate, bind_eq_ok,
    validated_eq_ok] at hlabel hlabel'
  obtain ⟨found, hfound, hvalid, rfl⟩ := hlabel
  obtain ⟨found', hfound', hvalid', rfl⟩ := hlabel'
  constructor
  · intro hagree
    rw [OutcomeVersion.markout_congr (hlast hagree _
      (policy.entryAt_le item.1.decisionAt h.configured)) (hlast hagree _ le_rfl), hfound'] at hfound
    obtain rfl := Except.ok.inj hfound
    rfl
  · intro hagree
    exact congrArg Execution.price
      (OutcomeVersion.markout_entry hfound hfound' (hlast hagree _ le_rfl))

/-- **Outcome labels are complete and look no further than their horizon.**  Where
`label_outcomes` returns, it returns one valid label for every snapshot, configured
horizon and action, in that order.  A quote that a label names is the last
available one that market state accepted of its symbol; it is of the snapshot's
stream session, or the label has no price of it and a reason that says so.  For
another stream with the same gaps on which it returns, a label is the same if the
streams agree until its horizon, and its entry price is the same if they agree
until its entry. -/
theorem outcome_labels_complete {snapshots : List (FeatureSnapshot D)}
    {envelopes : List (StreamEnvelope D)} {policy : OutcomeVersion}
    {authorizedStreamSessionIds : List String} {gaps : List StreamGap}
    {labels : List (OutcomeLabel D)}
    (h : labelOutcomes snapshots envelopes configuration policy authorizedStreamSessionIds gaps =
      .ok labels) :
    List.Forall₂ (LabelOf (acceptAll configuration envelopes).2)
      (snapshots ×ˢ (policy.horizonsSeconds ×ˢ actions)) labels ∧
    ∀ (envelopes' : List (StreamEnvelope D)) (labels' : List (OutcomeLabel D)),
      labelOutcomes snapshots envelopes' configuration policy authorizedStreamSessionIds gaps =
        .ok labels' →
      List.Forall₂ (fun label label' =>
        (ReceivedAlike label.horizonAt envelopes envelopes' → label = label') ∧
          (ReceivedAlike label.entryAt envelopes envelopes' → label.entryVwap = label'.entryVwap))
        labels labels' := by
  have hlabelled := labelOutcomes_labelled h
  refine ⟨hlabelled.imp fun _ _ hitem => hitem.labelOf, ?_⟩
  intro envelopes' labels' h'
  have hlabelled' := labelOutcomes_labelled h'
  refine List.forall₂_iff_get.mpr ⟨hlabelled.length_eq.symm.trans hlabelled'.length_eq, ?_⟩
  intro i hi hi'
  have hitem := hlabelled.length_eq.symm ▸ hi
  exact (hlabelled.get hitem hi).agree (hlabelled'.get hitem hi')

end

namespace Rehearsal

def outcomeQuotes : List QuoteMessage :=
  [quoteMessage "09:25:10" 49900 50000, quoteMessage "09:25:20" 49900 50000]

/-- A quote on each side of a reconnect. -/
def outcomeEnvelopes : List (StreamEnvelope Spelled) :=
  [envelope "session-1" 1 "QuoteMessage" (quoteText (quoteMessage "09:25:10" 49900 50000))
      "09:25:10" 8711 (by decide +kernel),
    envelope "session-2" 1 "QuoteMessage" (quoteText (quoteMessage "09:25:20" 49900 50000))
      "09:25:20" 8721 (by decide +kernel)]

/-- An eligible snapshot between the two quotes, at 09:25:15. -/
def outcomeSnapshot : FeatureSnapshot Spelled where
  featureVersion := Trading.marketState.features.version
  configurationVersion := Trading.marketState.version
  configurationSha256 := Trading.marketState.sha256
  symbol := "VIC"
  tradeDate := 20700
  decisionAt := 20700 * dayLength + seconds 8715
  marketSession := .continuousAm
  streamSessionId := some "session-1"
  lastReceiveSequence := some 1
  tradeAgeSeconds := none
  quoteAgeSeconds := some 4
  book := none
  windows := []
  reasons := []
  valid := by decide +kernel

/-- The labels of the rehearsed snapshot. -/
def outcomeLabels : Except Raised (List (OutcomeLabel Spelled)) :=
  letI := sdk [] outcomeQuotes
  labelOutcomes [outcomeSnapshot] outcomeEnvelopes Trading.marketState Trading.outcomes
    ["session-1", "session-2"] []

/-- The first label names the quote that the reconnect brought. -/
private def outcomeRehearsal : Bool :=
  letI := sdk [] outcomeQuotes
  outcomeLabels.toOption.any (fun labels => labels.length == 6 &&
    labels.head?.any fun label => label.streamSessionId == "session-1" &&
      label.horizonQuoteReceivedAt == some (20700 * dayLength + seconds 8721)) &&
  (symbolQuotes (acceptAll Trading.marketState outcomeEnvelopes).2 "VIC").all fun quote =>
    quote.position.streamSessionId != "session-1" ||
      quote.receivedAt != 20700 * dayLength + seconds 8721

private theorem outcomeRehearsal_holds : outcomeRehearsal = true := by decide +kernel

end Rehearsal

open Rehearsal in
/-- **Quotes of another segment.**  A label may name a quote that is not of its
snapshot's stream session. -/
theorem outcome_labels_name_other_segments :
    letI := sdk [] outcomeQuotes
    ∃ labels, outcomeLabels = .ok labels ∧ ∃ label ∈ labels,
      label.streamSessionId = "session-1" ∧ ∃ received ∈ label.horizonQuoteReceivedAt,
        ∀ quote ∈ symbolQuotes (acceptAll Trading.marketState outcomeEnvelopes).2 "VIC",
          quote.position.streamSessionId = "session-1" → quote.receivedAt ≠ received := by
  have hrehearsal := outcomeRehearsal_holds
  simp only [outcomeRehearsal, Option.any_eq_true, List.all_eq_true, Bool.and_eq_true,
    Bool.or_eq_true, beq_iff_eq, bne_iff_ne] at hrehearsal
  obtain ⟨⟨labels, hlabels, -, label, hlabel, hsession, hreceived⟩, hquotes⟩ := hrehearsal
  refine ⟨labels, toOption_eq_some.mp hlabels, label, List.mem_of_head? hlabel, hsession, _,
    hreceived, ?_⟩
  intro quote hquote hsame
  exact (hquotes quote hquote).resolve_left fun hother => hother hsame

open Rehearsal in
/-- The rehearsed snapshot gets a label for each of three horizons and two actions. -/
theorem outcome_labels_complete_rehearsal :
    letI := sdk [] outcomeQuotes
    ∃ labels, labels.length = 6 ∧
      List.Forall₂ (LabelOf (acceptAll Trading.marketState outcomeEnvelopes).2)
        ([outcomeSnapshot] ×ˢ (Trading.outcomes.horizonsSeconds ×ˢ actions)) labels := by
  have hrehearsal := outcomeRehearsal_holds
  simp only [outcomeRehearsal, Option.any_eq_true, Bool.and_eq_true, beq_iff_eq] at hrehearsal
  obtain ⟨⟨labels, hlabels, hlength, -⟩, -⟩ := hrehearsal
  exact ⟨labels, hlength, (@outcome_labels_complete Spelled Trading.marketState _
    (sdk [] outcomeQuotes) _ _ _ _ _ _ (toOption_eq_some.mp hlabels)).1⟩

end MiniLakehouse
