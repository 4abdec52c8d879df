import MiniLakehouse.Capture.Recorded

/-!
# Manifests of captures

A capture whose clocks agree writes a manifest that validates (`captured_manifest_valid`): its
numbers are those of its batches, its scopes those of its options, and it ends cleanly only where
a heartbeat has come.
-/

namespace MiniLakehouse

variable {B D : Type} [Hashing D] [CaptureFormat B D]

/-! ## Numbers -/

omit [Hashing D] [CaptureFormat B D] in
/-- Where a message stands says its number. -/
theorem sequence_of_split {α : Type} {sequence : α → Nat} {items : List α} {item : α}
    (before after : List α) (h : items.map sequence = List.range' 1 items.length)
    (hsplit : items = before ++ item :: after) : sequence item = before.length + 1 := by
  have hat := congrArg (·[before.length]?) h
  subst hsplit
  simp only [List.map_append, List.map_cons] at hat
  rw [List.getElem?_append_right (by simp), List.getElem?_range' (by simp)] at hat
  simp at hat
  omega

/-- The numbers of a batch, between the messages before it and after it. -/
theorem batch_bounds (chunk : Chunk D) (sessionId : String) (tradeDate : Day)
    (before after : List (StreamEnvelope D))
    (h : (before ++ (chunk.envelopes ++ after)).map (·.receiveSequence) =
      List.range' 1 (before ++ (chunk.envelopes ++ after)).length) :
    (chunk.published B sessionId tradeDate).1.firstReceiveSequence = before.length + 1 ∧
      (chunk.published B sessionId tradeDate).1.lastReceiveSequence =
        before.length + chunk.envelopes.length := by
  refine ⟨sequence_of_split before (chunk.rest ++ after) h (by simp [Chunk.envelopes]), ?_⟩
  have hends : chunk.envelopes = chunk.envelopes.dropLast ++
      [chunk.envelopes.getLast (by simp [Chunk.envelopes])] :=
    (List.dropLast_concat_getLast _).symm
  have hlast := sequence_of_split (before ++ chunk.envelopes.dropLast) after h (by
    rw [List.append_assoc, ← List.singleton_append, ← List.append_assoc chunk.envelopes.dropLast,
      ← hends])
  refine Eq.trans hlast ?_
  simp [Chunk.envelopes]
  omega

/-! ## How a capture ends -/

/-- The heartbeats of a receiver are counted as long as one is known. -/
def Receiver.Beating (receiver : Receiver D) : Prop :=
  receiver.heartbeatCount = 0 ↔ receiver.lastHeartbeatAt = none

omit [CaptureFormat B D] in
theorem Receiver.beating_deliver (sessionId : String) (options : StreamCaptureOptions D)
    {receiver : Receiver D} (h : receiver.Beating) (delivery : SdkCallback) :
    (receiver.deliver sessionId options delivery).Beating ∧
      receiver.heartbeatCount ≤ (receiver.deliver sessionId options delivery).heartbeatCount := by
  cases delivery with
  | heartbeat observedAt tick => simp [Receiver.Beating, Receiver.deliver]
  | data receivedAt message =>
      rcases CaptureState.record_cases sessionId options receiver receivedAt message with
        ⟨name, hnoted⟩ | ⟨envelope, -, -, -, -, hput⟩
      · rw [Receiver.deliver, hnoted]
        exact ⟨h, le_refl _⟩
      · rw [Receiver.deliver, hput]
        exact ⟨h, le_refl _⟩

omit [Hashing D] [CaptureFormat B D] in
theorem Receiver.Beating.summary {receiver : Receiver D} (h : receiver.Beating) :
    ((receiver.heartbeatCount == 0) == receiver.lastHeartbeatAt.isNone) = true := by
  rw [beq_iff_eq]
  by_cases hcount : receiver.heartbeatCount = 0
  · rw [h.mp hcount, hcount]
    rfl
  · have hsome := mt h.mpr hcount
    rw [beq_false_of_ne hcount]
    cases hbeat : receiver.lastHeartbeatAt with
    | none => exact absurd hbeat hsome
    | some found => rfl

/-- A clean ending has no error, and comes after a heartbeat. -/
structure Ending.Sound (receiver : Receiver D) (ending : Ending) : Prop where
  named : ending.kind.isClean = ending.failureType.isNone
  alive : ending.kind.isClean = true → 0 < receiver.heartbeatCount

omit [Hashing D] [CaptureFormat B D] in
theorem Ending.raised_sound (receiver : Receiver D) (name : ErrorName) :
    (Ending.raised name).Sound receiver := by
  refine ⟨rfl, ?_⟩
  intro hclean
  cases hclean

omit [Hashing D] [CaptureFormat B D] in
theorem Ending.Sound.mono {receiver later : Receiver D} {ending : Ending}
    (h : ending.Sound receiver) (hlater : receiver.heartbeatCount ≤ later.heartbeatCount) :
    ending.Sound later :=
  ⟨h.named, fun hclean => (h.alive hclean).trans_le hlater⟩

omit [Hashing D] [CaptureFormat B D] in
theorem Ending.Sound.summary {receiver : Receiver D} {ending : Ending}
    (h : ending.Sound receiver) :
    (ending.kind.isClean == (ending.failureType.map (·.text)).isNone) = true ∧
      (!(ending.kind.isClean && receiver.heartbeatCount == 0)) = true := by
  refine ⟨?_, ?_⟩
  · rw [beq_iff_eq]
    exact h.named.trans Option.isNone_map.symm
  · cases hclean : ending.kind.isClean with
    | false => rfl
    | true =>
        rw [beq_false_of_ne (h.alive hclean).ne']
        rfl

namespace CaptureState

variable (sessionId : String) (tradeDate : Day) (options : StreamCaptureOptions D)
  {state : CaptureState B D}

omit [CaptureFormat B D] in
theorem beating_deliver (h : state.receiver.Beating) (deliveries : List SdkCallback) :
    (state.deliver sessionId options deliveries).receiver.Beating ∧
      state.receiver.heartbeatCount ≤
        (state.deliver sessionId options deliveries).receiver.heartbeatCount := by
  unfold deliver
  simp only
  generalize state.receiver = receiver at h ⊢
  induction deliveries generalizing receiver with
  | nil => exact ⟨h, le_refl _⟩
  | cons delivery deliveries ih =>
      obtain ⟨hone, hmore⟩ := Receiver.beating_deliver sessionId options h delivery
      obtain ⟨hall, hlater⟩ := ih _ hone
      exact ⟨hall, hmore.trans hlater⟩

/-- Publishing leaves the receiver to its callbacks. -/
theorem publishAll_receiver (force : Bool) (publishing : Nat → Publishing) (fuel index : Nat) :
    (publishAll sessionId tradeDate options force publishing fuel index state).1.receiver =
      state.receiver := by
  induction fuel generalizing index state with
  | zero => rfl
  | succ fuel ih =>
      unfold publishAll
      split
      · simp only
        split
        · rfl
        · split
          · rfl
          · rw [ih]
      · rfl

theorem flush_receiver (force : Bool) (flushing : Flushing) :
    (flush sessionId tradeDate options force flushing state).1.receiver = state.receiver := by
  have hall : (publishAll sessionId tradeDate options force flushing.publishing
      state.buffered.length 0 state).1.receiver = state.receiver :=
    publishAll_receiver sessionId tradeDate options force flushing.publishing _ _
  unfold flush
  split
  · next published name h =>
      rw [h] at hall
      exact hall
  · next published h =>
      rw [h] at hall
      split
      · exact hall
      · exact hall

theorem flushDue_receiver (state : CaptureState B D) (turn : Turn) :
    (flushDue sessionId tradeDate options turn state).1.receiver = state.receiver := by
  unfold flushDue
  simp only
  split
  · exact flush_receiver sessionId tradeDate options _ _
  · rfl

omit [CaptureFormat B D] in
/-- A pass ends cleanly only where a heartbeat has come. -/
theorem checkHealth_sound {startedTick : Rat} {turn : Turn} {ending : Ending}
    (h : (checkHealth options startedTick turn state).2 = some ending) :
    ending.Sound state.receiver := by
  unfold checkHealth at h
  cases herror : state.receiver.errorType with
  | some name =>
      simp only [herror, Option.some.injEq] at h
      exact h ▸ Ending.raised_sound _ name
  | none =>
      simp only [herror] at h
      split at h
      · obtain rfl := Option.some.inj h
        exact ⟨rfl, fun hclean => by cases hclean⟩
      · split at h
        · next name _ => exact Option.some.inj h ▸ Ending.raised_sound _ name
        · split at h
          · obtain rfl := Option.some.inj h
            exact ⟨rfl, fun hclean => by cases hclean⟩
          · next hdone =>
              split at h
              · next hstopping =>
                  obtain rfl := Option.some.inj h
                  exact ⟨rfl, fun _ => by simpa [hstopping, Nat.pos_iff_ne_zero] using hdone⟩
              · split at h
                · next hcompleted =>
                    obtain rfl := Option.some.inj h
                    exact ⟨rfl, fun _ => by simpa [hcompleted, Nat.pos_iff_ne_zero] using hdone⟩
                · split at h
                  · split at h
                    · next name _ => exact Option.some.inj h ▸ Ending.raised_sound _ name
                    · cases h
                  · cases h

theorem pass_sound (startedTick : Rat) (turn : Turn) (h : state.receiver.Beating) :
    (pass sessionId tradeDate options startedTick state turn).1.receiver.Beating ∧
      ∀ ending, (pass sessionId tradeDate options startedTick state turn).2 = some ending →
        ending.Sound (pass sessionId tradeDate options startedTick state turn).1.receiver := by
  have hwaited := (beating_deliver sessionId options h turn.waited).1
  unfold pass
  cases turn.waitRaises with
  | some name =>
      refine ⟨hwaited, fun ending hending => ?_⟩
      exact Option.some.inj hending ▸ Ending.raised_sound _ name
  | none =>
      simp only
      generalize hdrained : ({ (state.deliver sessionId options turn.waited).drain with
        calls := (state.deliver sessionId options turn.waited).drain.calls ++
          [.advance turn.observedAt] } : CaptureState B D) = drained
      have hreceiver : drained.receiver.Beating := hdrained ▸ hwaited
      have hflushed := flushDue_receiver sessionId tradeDate options drained turn
      have hworked := (beating_deliver sessionId options (hflushed ▸ hreceiver) turn.working).1
      split
      · next name _ =>
          refine ⟨hworked, fun ending hending => ?_⟩
          exact Option.some.inj hending ▸ Ending.raised_sound _ name
      · obtain ⟨ready, nextPingTick, hkept⟩ := checkHealth_keeps options startedTick turn
          ((flushDue sessionId tradeDate options turn drained).1.deliver sessionId options
            turn.working)
        refine ⟨by rw [hkept]; exact hworked, fun ending hending => ?_⟩
        have hsound := checkHealth_sound options hending
        rw [hkept]
        exact hsound

variable {sessionId tradeDate options}

theorem loop_sound {startedTick : Rat} {turns : List Turn} {ended : CaptureState B D × Ending}
    (h : state.receiver.Beating)
    (hloop : loop sessionId tradeDate options startedTick state turns = some ended) :
    ended.1.receiver.Beating ∧ ended.2.Sound ended.1.receiver := by
  induction turns generalizing state with
  | nil => cases hloop
  | cons turn turns ih =>
      obtain ⟨hbeating, hending⟩ := pass_sound sessionId tradeDate options startedTick turn h
      unfold loop at hloop
      cases hnext : pass sessionId tradeDate options startedTick state turn with
      | mk next ending =>
          rw [hnext] at hbeating hending hloop
          cases ending with
          | some found =>
              obtain rfl := Option.some.inj hloop
              exact ⟨hbeating, hending found rfl⟩
          | none => exact ih hbeating hloop

end CaptureState

namespace Connection

variable {options : StreamCaptureOptions D} {connection : Connection}

theorem stream_sound {ended : CaptureState B D × Ending}
    (h : connection.stream options = some ended) :
    ended.1.receiver.Beating ∧ ended.2.Sound ended.1.receiver := by
  have hstart : (connection.start options : CaptureState B D).receiver.Beating := by
    simp [start, Receiver.Beating]
  unfold stream at h
  cases hsubscribe : connection.subscribeRaises with
  | some name =>
      simp only [hsubscribe, Option.some.injEq] at h
      subst h
      exact ⟨hstart, Ending.raised_sound _ name⟩
  | none =>
      simp only [hsubscribe] at h
      exact CaptureState.loop_sound hstart h

theorem close_sound (options : StreamCaptureOptions D) (connection : Connection)
    {ended : CaptureState B D × Ending} (hbeating : ended.1.receiver.Beating)
    (hsound : ended.2.Sound ended.1.receiver) :
    (connection.close options ended).1.receiver.Beating ∧
      (connection.close options ended).2.Sound (connection.close options ended).1.receiver := by
  obtain ⟨hlate, hmore⟩ := CaptureState.beating_deliver connection.sessionId options hbeating
    connection.closing.late
  have hreceiver : (connection.close options ended).1.receiver =
      (ended.1.deliver connection.sessionId options connection.closing.late).drain.receiver :=
    CaptureState.flush_receiver _ _ _ _ _
  refine ⟨by rw [hreceiver]; exact hlate, ?_⟩
  rw [hreceiver]
  have hdisconnected : (connection.closing.disconnectRaises.elim ended.2 .raised).Sound
      (ended.1.deliver connection.sessionId options connection.closing.late).drain.receiver := by
    cases connection.closing.disconnectRaises with
    | some name => exact Ending.raised_sound _ name
    | none => exact hsound.mono hmore
  unfold close
  simp only
  cases (CaptureState.flush connection.sessionId connection.tradeDate options true
    connection.closing.flushing
    (ended.1.deliver connection.sessionId options connection.closing.late).drain).2 with
  | some name => exact Ending.raised_sound _ name
  | none => exact hdisconnected

end Connection

/-! ## Clocks -/

/-- The envelopes that the observer has taken in. -/
def CapturedSession.taken (captured : CapturedSession B D) : List (StreamEnvelope D) :=
  captured.calls.flatMap ObserverCall.envelopes

/-- The clocks of a capture agree: heartbeats and messages are received while the session is
connected, the messages in order, and batches are published in order, before the manifest and
after their messages. -/
structure CapturedSession.Timed (captured : CapturedSession B D) : Prop where
  terminal : captured.manifest.connectedAt ≤ captured.manifest.disconnectedAt ∧
    captured.manifest.disconnectedAt ≤ captured.manifest.publishedAt
  beating : ∀ heartbeat ∈ captured.manifest.lastHeartbeatAt,
    captured.manifest.connectedAt ≤ heartbeat ∧ heartbeat ≤ captured.manifest.disconnectedAt
  connected : ∀ envelope ∈ captured.taken,
    captured.manifest.connectedAt ≤ envelope.receivedAt ∧
      envelope.receivedAt ≤ captured.manifest.disconnectedAt
  received : captured.taken.IsChain fun previous current =>
    previous.receivedAt ≤ current.receivedAt
  published : ∀ batch ∈ captured.manifest.batches,
    captured.manifest.connectedAt ≤ batch.publishedAt ∧
      batch.publishedAt ≤ captured.manifest.publishedAt
  ordered : (captured.manifest.batches.map (·.publishedAt)).IsChain (· ≤ ·)
  after : ∀ batch ∈ captured.manifest.batches, ∀ envelope ∈ captured.taken,
    batch.firstReceiveSequence ≤ envelope.receiveSequence →
      envelope.receiveSequence ≤ batch.lastReceiveSequence → envelope.receivedAt ≤ batch.publishedAt

instance (captured : CapturedSession B D) : Decidable captured.Timed :=
  decidable_of_iff (_ ∧ _ ∧ _ ∧ _ ∧ _ ∧ _ ∧ _)
    ⟨fun h => ⟨h.1, h.2.1, h.2.2.1, h.2.2.2.1, h.2.2.2.2.1, h.2.2.2.2.2.1, h.2.2.2.2.2.2⟩,
      fun h => ⟨h.terminal, h.beating, h.connected, h.received, h.published, h.ordered, h.after⟩⟩

/-! ## Manifests -/

/-- A check of a value that may be missing. -/
theorem all_of_optional {α : Type} {value : Option α} {holds : α → Bool}
    (h : ∀ found ∈ value, holds found = true) : value.all holds = true := by
  cases value with
  | none => rfl
  | some found => exact h found rfl

/-- The first and the last number that a manifest summarises. -/
theorem summary_of_chunks {chunks : List (Chunk D)} (sessionId : String) (tradeDate : Day)
    (hnumbered : (chunks.flatMap Chunk.envelopes).map (·.receiveSequence) =
      List.range' 1 (chunks.flatMap Chunk.envelopes).length) (hsome : chunks ≠ []) :
    ((chunks.map fun chunk => (chunk.published B sessionId tradeDate).1).head?.map
        (·.firstReceiveSequence)) = some 1 ∧
      ((chunks.map fun chunk => (chunk.published B sessionId tradeDate).1).getLast?.map
        (·.lastReceiveSequence)) = some (chunks.flatMap Chunk.envelopes).length := by
  refine ⟨?_, ?_⟩
  · obtain ⟨chunk, later, rfl⟩ := List.exists_cons_of_ne_nil hsome
    have hbounds := batch_bounds (B := B) chunk sessionId tradeDate [] (later.flatMap Chunk.envelopes)
      hnumbered
    simp [hbounds.1]
  · obtain rfl | ⟨earlier, chunk, rfl⟩ := List.eq_nil_or_concat chunks
    · exact absurd rfl hsome
    · rw [List.concat_eq_append, List.flatMap_append, List.flatMap_singleton] at hnumbered ⊢
      have hbounds := batch_bounds (B := B) chunk sessionId tradeDate
        (earlier.flatMap Chunk.envelopes) [] (by rw [List.append_nil]; exact hnumbered)
      simp [hbounds.2]

/-- The batches of a capture validate. -/
theorem captured_batches_valid {sessionId : String} {tradeDate : Day}
    {options : StreamCaptureOptions D} {chunks : List (Chunk D)}
    (hnumbered : (chunks.flatMap Chunk.envelopes).map (·.receiveSequence) =
      List.range' 1 (chunks.flatMap Chunk.envelopes).length)
    (hbounded : ∀ chunk ∈ chunks, chunk.envelopes.length ≤ options.batchSize) :
    ∀ batch ∈ chunks.map (fun chunk => (chunk.published B sessionId tradeDate).1),
      AllHold batch.checks := by
  intro batch hmem
  obtain ⟨chunk, hchunk, rfl⟩ := List.mem_map.mp hmem
  have hsize := (hbounded chunk hchunk).trans options.buffers_valid.2.2.1
  obtain ⟨earlier, later, rfl⟩ := List.append_of_mem hchunk
  rw [List.flatMap_append, List.flatMap_cons] at hnumbered
  obtain ⟨hfirst, hlast⟩ := batch_bounds (B := B) chunk sessionId tradeDate _ _ hnumbered
  have hcount : (chunk.published B sessionId tradeDate).1.messageCount =
      chunk.envelopes.length := rfl
  have hpositive : 1 ≤ chunk.envelopes.length := by simp [Chunk.envelopes]
  simp only [StreamBatchFields.checks, allHold_cons, allHold_nil, Bool.and_eq_true,
    decide_eq_true_eq, beq_iff_eq, hfirst, hlast, hcount]
  refine ⟨by omega, by omega, ⟨hpositive, hsize⟩, by push_cast; omega, trivial⟩

omit [CaptureFormat B D] in
theorem schemaVersion_known (options : StreamCaptureOptions D) :
    [1, 2, 3, 4].contains options.schemaVersion = true := by
  unfold StreamCaptureOptions.schemaVersion
  split
  · rfl
  · split
    · rfl
    · rfl

/-- The subscriptions of the options are a scope of their schema. -/
theorem captured_scope_valid (options : StreamCaptureOptions D) (connection : Connection)
    (closed : CaptureState B D × Ending) :
    areIdentifiers (connection.manifestOf options closed).intervalSymbols = true ∧
      (connection.manifestOf options closed).invalidSchemaScope = false := by
  cases hmembership : options.breadthMembership with
  | none =>
      by_cases hmarkets : options.markets = []
      · simp [Connection.manifestOf, StreamManifestFields.invalidSchemaScope,
          StreamCaptureOptions.schemaVersion, hmembership, hmarkets, areIdentifiers]
      · simp [Connection.manifestOf, StreamManifestFields.invalidSchemaScope,
          StreamCaptureOptions.schemaVersion, hmembership, hmarkets, areIdentifiers]
  | some membership =>
      have hmarkets := options.breadth_scoped (by rw [hmembership]; rfl)
      have hinterval : (connection.manifestOf options closed).intervalSymbols =
          sortedUnion options.symbols membership.symbols := by
        simp [Connection.manifestOf, StreamCaptureOptions.intervalSymbols, hmembership]
      refine ⟨?_, ?_⟩
      · have hupper : ∀ symbol ∈ options.symbols, isUpperIdentifier symbol = true := by
          have hvalid := options.scopes_valid.2.1
          simp only [areIdentifiers, Bool.and_eq_true, List.all_eq_true] at hvalid
          exact hvalid.2
        rw [hinterval]
        simp only [areIdentifiers, sortedUnion, Bool.and_eq_true, List.all_eq_true]
        refine ⟨decide_eq_true ((sortOn_perm _ _).nodup_iff.mpr (List.nodup_dedup _)),
          fun symbol hmem => ?_⟩
        rcases List.mem_append.mp (List.mem_dedup.mp (mem_sortOn.mp hmem)) with hown | hmember
        · exact hupper symbol hown
        · obtain ⟨index, -, hindex⟩ := List.mem_flatMap.mp hmember
          exact index.symbols_identifiers symbol hindex
      · simp [Connection.manifestOf, StreamManifestFields.invalidSchemaScope,
          StreamManifestFields.expectedIntervalSymbols, StreamCaptureOptions.schemaVersion,
          StreamCaptureOptions.intervalSymbols, hmembership, hmarkets]

open Connection CaptureState in
/-- **A capture writes a manifest that validates**, where its clocks agree. -/
theorem captured_manifest_valid {options : StreamCaptureOptions D} {connection : Connection}
    {captured : CapturedSession B D} (h : captureStream options connection = some captured)
    (hpublished : ∀ index, ∃ publishedAt,
      connection.closing.flushing.publishing index = .stored publishedAt)
    (hsession : connection.sessionId ≠ "") (htimed : captured.Timed) :
    ∃ manifest, StreamManifest.modelValidate captured.manifest = .ok manifest := by
  obtain ⟨ended, closed, chunks, hstream, rfl, -, hmanifest, -, htaken, hall, hclosed⟩ :=
    captureStream_closed h hpublished
  obtain ⟨hstarted, hended⟩ := stream_sound hstream
  obtain ⟨hbeating, hsound⟩ := close_sound options connection hstarted hended
  have hnumbered := hclosed.numbered
  have hlast := hclosed.last
  rw [hall] at hnumbered hlast
  have hbatches : ∀ batch ∈ captured.manifest.batches, AllHold batch.checks := by
    rw [hmanifest]
    show ∀ batch ∈ (connection.close options ended).1.batches, AllHold batch.checks
    rw [hclosed.batches]
    exact captured_batches_valid hnumbered hclosed.bounded
  have hheartbeats : ∀ heartbeat ∈ captured.manifest.lastHeartbeatAt,
      captured.manifest.whileConnected heartbeat = true := by
    intro heartbeat hmem
    simpa [StreamManifestFields.whileConnected] using htimed.beating heartbeat hmem
  have hbusiness : ∀ instant ∈ captured.manifest.lastBusinessMessageAt,
      captured.manifest.whileConnected instant = true := by
    intro instant hmem
    have hreceived : captured.manifest.lastBusinessMessageAt =
        (chunks.flatMap Chunk.envelopes).getLast?.map (·.receivedAt) := by
      rw [hmanifest]
      exact hlast
    rw [hreceived] at hmem
    obtain ⟨envelope, hfound, rfl⟩ := Option.map_eq_some_iff.mp hmem
    have htook : envelope ∈ captured.taken := by
      rw [CapturedSession.taken, htaken]
      exact List.mem_of_getLast? hfound
    simpa [StreamManifestFields.whileConnected] using htimed.connected envelope htook
  have hterminal := htimed.terminal
  obtain ⟨hinterval, hscope⟩ := captured_scope_valid options connection
    (connection.close options ended)
  -- One goal for each check of the manifest, in their order.
  have hall : AllHold captured.manifest.checks := by
    simp only [StreamManifestFields.checks, allHold_cons, allHold_nil, Bool.and_eq_true,
      decide_eq_true_eq]
    refine ⟨?_, ?_, ?_, ?_, ?_, hterminal, ?_, all_of_optional hheartbeats, all_of_optional hbusiness,
      ?_, ?_, ?_, ?_, trivial⟩
    · rw [hmanifest]
      exact schemaVersion_known options
    · rw [hmanifest]
      exact bne_iff_ne.mpr hsession
    · rw [hmanifest]
      simp only [manifestOf]
      cases (connection.close options ended).2.failureType with
      | none => rfl
      | some name => simp [name.bounded]
    · rw [hmanifest]
      exact ⟨bne_iff_ne.mpr options.scopes_valid.1, options.scopes_valid.2.1⟩
    · rw [hmanifest, hscope]
      exact ⟨⟨⟨⟨rfl, List.all_eq_true.mpr fun _ _ => rfl⟩, options.scopes_valid.2.2⟩, hinterval⟩,
        rfl⟩
    · rw [hmanifest]
      exact hbeating.summary
    · rw [hmanifest]
      exact beq_self_eq_true _
    · rw [hmanifest]
      simp only [manifestOf, hclosed.batches, hlast, sum_messageCount]
      cases chunks with
      | nil => rfl
      | cons chunk chunks => simp [Chunk.envelopes]
    · rw [hmanifest]
      simp only [manifestOf, hclosed.batches, hlast, sum_messageCount]
      by_cases hsome : chunks = []
      · simp [hsome]
      · obtain ⟨hfirst, hfinal⟩ := summary_of_chunks (B := B) connection.sessionId
          connection.tradeDate hnumbered hsome
        have hfirst' := congrArg (Option.map (Nat.cast (R := Int))) hfirst
        have hfinal' := congrArg (Option.map (Nat.cast (R := Int))) hfinal
        rw [Option.map_map] at hfirst' hfinal'
        have htook : (chunks.flatMap Chunk.envelopes).getLast?.isSome = true := by
          obtain ⟨chunk, later, rfl⟩ := List.exists_cons_of_ne_nil hsome
          simp [Chunk.envelopes]
        refine Bool.or_eq_true_iff.mpr (.inr ?_)
        rw [Option.isSome_map, htook, Bool.and_true, Bool.and_eq_true, beq_iff_eq, beq_iff_eq]
        exact ⟨hfirst', hfinal'⟩
    · rw [hmanifest]
      exact hsound.summary
  refine ⟨⟨captured.manifest, hbatches, hall⟩, ?_⟩
  simp only [StreamManifest.modelValidate, ensure_of hbatches, ok_bind]
  exact validated_of hall

end MiniLakehouse
