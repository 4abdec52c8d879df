import MiniLakehouse.Capture.Segments
import MiniLakehouse.Capture.Stream

/-!
# What a capture records

Whatever the callbacks deliver between the steps of the loop, and wherever it ends: the batches
of a session cut what its observer has taken in into consecutive chunks, numbered from one on
without a gap (`capture_loses_nothing`).  A flush that raises leaves what it has not published
buffered, and the last flush publishes it.
-/

namespace MiniLakehouse

variable {B D : Type} [Hashing D]

/-- The envelopes that an observer is shown. -/
def ObserverCall.envelopes : ObserverCall D → List (StreamEnvelope D)
  | .ingest envelopes => envelopes
  | .connected _ _ | .advance _ | .disconnected _ _ => []

/-- What one batch is published of. -/
structure Chunk (D : Type) where
  first : StreamEnvelope D
  rest : List (StreamEnvelope D)
  publishedAt : Instant

def Chunk.envelopes (chunk : Chunk D) : List (StreamEnvelope D) := chunk.first :: chunk.rest

variable [CaptureFormat B D]

/-- The batch of a chunk and the object that holds it. -/
def Chunk.published (B : Type) [CaptureFormat B D] (sessionId : String) (tradeDate : Day)
    (chunk : Chunk D) : StreamBatchFields D × (StreamKey D × B) :=
  CaptureState.publishBatch sessionId tradeDate chunk.first chunk.rest chunk.publishedAt

namespace CaptureState

variable {sessionId : String} {tradeDate : Day} {options : StreamCaptureOptions D}
  {state state' : CaptureState B D} {chunks : List (Chunk D)}

/-- What has been recorded: published, buffered or still queued. -/
def recorded (chunks : List (Chunk D)) (state : CaptureState B D) : List (StreamEnvelope D) :=
  chunks.flatMap Chunk.envelopes ++ state.buffered ++ state.receiver.queue

/-- The chunks that a state has published, and how they go on. -/
structure Records (sessionId : String) (tradeDate : Day) (options : StreamCaptureOptions D)
    (state : CaptureState B D) (chunks : List (Chunk D)) : Prop where
  batches : state.batches = chunks.map fun chunk => (chunk.published B sessionId tradeDate).1
  objects : state.objects = chunks.map fun chunk => (chunk.published B sessionId tradeDate).2
  ingested : state.calls.flatMap ObserverCall.envelopes =
    chunks.flatMap Chunk.envelopes ++ state.buffered
  next : state.receiver.nextSequence = (state.recorded chunks).length + 1
  numbered : (state.recorded chunks).map (·.receiveSequence) =
    List.range' 1 (state.recorded chunks).length
  genuine : ∀ envelope ∈ state.recorded chunks, envelope.streamSessionId = sessionId ∧
    envelope.messageSha256 = sha256 (.str envelope.messageJson)
  last : state.receiver.lastBusinessMessageAt =
    (state.recorded chunks).getLast?.map (·.receivedAt)
  bounded : ∀ chunk ∈ chunks, chunk.envelopes.length ≤ options.batchSize

/-! ## Callbacks -/

omit [CaptureFormat B D] in
/-- What `record` does: it puts an envelope of the next sequence, or notes an error. -/
theorem record_cases (sessionId : String) (options : StreamCaptureOptions D)
    (receiver : Receiver D) (receivedAt : Instant) (message : SdkMessage) :
    (∃ name, receiver.record sessionId options receivedAt message =
        { receiver with errorType := some name }) ∨
      ∃ envelope : StreamEnvelope D, envelope.streamSessionId = sessionId ∧
        envelope.receiveSequence = receiver.nextSequence ∧ envelope.receivedAt = receivedAt ∧
        envelope.messageSha256 = sha256 (.str envelope.messageJson) ∧
        receiver.record sessionId options receivedAt message = { receiver with
          queue := receiver.queue ++ [envelope]
          nextSequence := receiver.nextSequence + 1
          lastBusinessMessageAt := some receivedAt } := by
  unfold Receiver.record
  cases message.messageJson with
  | error name => exact .inl ⟨name, rfl⟩
  | ok messageJson =>
      simp only [Receiver.envelopeOf]
      by_cases hvalid : sessionId ≠ "" ∧ 1 ≤ receiver.nextSequence ∧ message.messageType ≠ "" ∧
          2 ≤ messageJson.length
      · rw [dif_pos hvalid]
        by_cases hfull : options.queueSize ≤ receiver.queue.length
        · exact .inl ⟨_, if_pos hfull⟩
        · exact .inr ⟨_, rfl, rfl, rfl, rfl, if_neg hfull⟩
      · rw [dif_neg hvalid]
        exact .inl ⟨_, rfl⟩

/-- An error that is noted, and a heartbeat, record nothing. -/
theorem Records.receiver (h : Records sessionId tradeDate options state chunks)
    {receiver : Receiver D} (hqueue : receiver.queue = state.receiver.queue)
    (hnext : receiver.nextSequence = state.receiver.nextSequence)
    (hlast : receiver.lastBusinessMessageAt = state.receiver.lastBusinessMessageAt) :
    Records sessionId tradeDate options { state with receiver := receiver } chunks := by
  have hsame : recorded chunks { state with receiver := receiver } = state.recorded chunks := by
    simp only [recorded, hqueue]
  exact ⟨h.batches, h.objects, h.ingested, by rw [hsame]; exact hnext.trans h.next,
    by rw [hsame]; exact h.numbered, by rw [hsame]; exact h.genuine,
    by rw [hsame]; exact hlast.trans h.last, h.bounded⟩

/-- One call of a callback. -/
theorem Records.deliverOne (h : Records sessionId tradeDate options state chunks)
    (delivery : SdkCallback) : Records sessionId tradeDate options
      { state with receiver := state.receiver.deliver sessionId options delivery } chunks := by
  cases delivery with
  | heartbeat observedAt tick => exact h.receiver rfl rfl rfl
  | data receivedAt message =>
      rcases record_cases sessionId options state.receiver receivedAt message with ⟨name, hnoted⟩ | ⟨envelope, hsession, hsequence, hreceived, hsha, hput⟩
      · simp only [Receiver.deliver, hnoted]
        exact h.receiver rfl rfl rfl
      · simp only [Receiver.deliver, hput]
        have hmore : recorded chunks { state with receiver := { state.receiver with
            queue := state.receiver.queue ++ [envelope]
            nextSequence := state.receiver.nextSequence + 1
            lastBusinessMessageAt := some receivedAt } } = state.recorded chunks ++ [envelope] := by
          simp only [recorded, List.append_assoc]
        refine ⟨h.batches, h.objects, h.ingested, ?_, ?_, ?_, ?_, h.bounded⟩
        · rw [hmore, List.length_append]
          exact congrArg (· + 1) h.next
        · rw [hmore, List.map_append, h.numbered, List.length_append, List.length_singleton,
            List.range'_concat, List.map_singleton, hsequence, h.next]
          simp [Nat.add_comm]
        · rw [hmore]
          intro found hfound
          rcases List.mem_append.mp hfound with hfound | hfound
          · exact h.genuine found hfound
          · obtain rfl := List.mem_singleton.mp hfound
            exact ⟨hsession, hsha⟩
        · rw [hmore]
          simp [hreceived]

theorem Records.deliver (h : Records sessionId tradeDate options state chunks)
    (deliveries : List SdkCallback) :
    Records sessionId tradeDate options (state.deliver sessionId options deliveries) chunks := by
  induction deliveries generalizing state with
  | nil => exact h
  | cons delivery rest ih => exact ih (h.deliverOne delivery)

/-! ## The loop -/

/-- A drain shows the observer what it buffers. -/
theorem Records.drain (h : Records sessionId tradeDate options state chunks) :
    Records sessionId tradeDate options state.drain chunks := by
  have hsame : recorded chunks state.drain = state.recorded chunks := by
    simp [recorded, CaptureState.drain]
  refine ⟨h.batches, h.objects, ?_, by rw [hsame]; exact h.next, by rw [hsame]; exact h.numbered,
    by rw [hsame]; exact h.genuine, by rw [hsame]; exact h.last, h.bounded⟩
  simp only [CaptureState.drain]
  by_cases hempty : state.receiver.queue = []
  · simp [hempty, h.ingested]
  · simp [hempty, h.ingested, ObserverCall.envelopes]

/-- A call that shows no envelope. -/
theorem Records.called (h : Records sessionId tradeDate options state chunks)
    (call : ObserverCall D) (hcall : call.envelopes = []) :
    Records sessionId tradeDate options { state with calls := state.calls ++ [call] } chunks := by
  refine ⟨h.batches, h.objects, ?_, h.next, h.numbered, h.genuine, h.last, h.bounded⟩
  simp [h.ingested, hcall]

/-- A published batch takes its chunk from the front of what is buffered. -/
theorem Records.publish (h : Records sessionId tradeDate options state chunks)
    {first : StreamEnvelope D} {rest : List (StreamEnvelope D)} (publishedAt : Instant)
    {count : Nat} (htake : state.buffered.take count = first :: rest)
    (hcount : count ≤ options.batchSize) :
    Records sessionId tradeDate options { state with
      batches := state.batches ++ [(publishBatch (B := B) sessionId tradeDate first rest publishedAt).1]
      objects := state.objects ++ [(publishBatch (B := B) sessionId tradeDate first rest publishedAt).2]
      buffered := state.buffered.drop count } (chunks ++ [⟨first, rest, publishedAt⟩]) := by
  have hsplit : (chunks ++ [(⟨first, rest, publishedAt⟩ : Chunk D)]).flatMap Chunk.envelopes ++
      state.buffered.drop count = chunks.flatMap Chunk.envelopes ++ state.buffered := by
    rw [List.flatMap_append, List.append_assoc]
    congr 1
    simp only [List.flatMap_cons, List.flatMap_nil, List.append_nil, Chunk.envelopes]
    rw [← htake, List.take_append_drop]
  have hsame : recorded (chunks ++ [⟨first, rest, publishedAt⟩]) { state with
      batches := state.batches ++ [(publishBatch (B := B) sessionId tradeDate first rest publishedAt).1]
      objects := state.objects ++ [(publishBatch (B := B) sessionId tradeDate first rest publishedAt).2]
      buffered := state.buffered.drop count } = state.recorded chunks := by
    simp only [recorded, hsplit]
  refine ⟨?_, ?_, ?_, by rw [hsame]; exact h.next, by rw [hsame]; exact h.numbered,
    by rw [hsame]; exact h.genuine, by rw [hsame]; exact h.last, ?_⟩
  · rw [List.map_append, ← h.batches]
    rfl
  · rw [List.map_append, ← h.objects]
    rfl
  · rw [hsplit]
    exact h.ingested
  · intro chunk hchunk
    rcases List.mem_append.mp hchunk with hchunk | hchunk
    · exact h.bounded chunk hchunk
    · obtain rfl := List.mem_singleton.mp hchunk
      have hlength := congrArg List.length htake
      simp only [Chunk.envelopes, ← hlength, List.length_take]
      omega

/-- What a flush leaves: more chunks, and nothing buffered where it is forced and no batch
raises. -/
theorem Records.publishAll (force : Bool) (publishing : Nat → Publishing) (fuel index : Nat)
    (h : Records sessionId tradeDate options state chunks) :
    (∃ chunks', Records sessionId tradeDate options
      (CaptureState.publishAll sessionId tradeDate options force publishing fuel index state).1 chunks') ∧
    ((force = true ∧ state.buffered.length ≤ fuel ∧
        ∀ found, ∃ publishedAt, publishing found = .stored publishedAt) →
      (CaptureState.publishAll sessionId tradeDate options force publishing fuel index state).1.buffered = [] ∧
      (CaptureState.publishAll sessionId tradeDate options force publishing fuel index state).1.receiver =
        state.receiver) := by
  induction fuel generalizing state chunks index with
  | zero =>
      refine ⟨⟨chunks, h⟩, ?_⟩
      intro ⟨_, hlength, _⟩
      exact ⟨List.length_eq_zero_iff.mp (Nat.le_zero.mp hlength), rfl⟩
  | succ fuel ih =>
      unfold CaptureState.publishAll
      by_cases hdue : options.batchSize ≤ state.buffered.length ∨
          (force = true ∧ state.buffered ≠ [])
      · rw [if_pos hdue]
        have hpositive : 1 ≤ options.batchSize := options.buffers_valid.2.1
        cases htake : state.buffered.take (min state.buffered.length options.batchSize) with
        | nil =>
            refine ⟨⟨chunks, by simpa only [htake] using h⟩, ?_⟩
            intro _
            have hempty : state.buffered = [] := by
              have hlength := congrArg List.length htake
              simp only [List.length_take, List.length_nil] at hlength
              exact List.length_eq_zero_iff.mp (by omega)
            simp only [htake]
            exact ⟨hempty, trivial⟩
        | cons first rest =>
            simp only [htake]
            cases hpublishing : publishing index with
            | raised name =>
                refine ⟨⟨chunks, h⟩, ?_⟩
                intro ⟨_, _, hall⟩
                obtain ⟨publishedAt, hstored⟩ := hall index
                rw [hpublishing] at hstored
                cases hstored
            | stored publishedAt =>
                have hnext := h.publish publishedAt htake (by omega)
                obtain ⟨hrecords, hforced⟩ := ih (index + 1) hnext
                refine ⟨hrecords, ?_⟩
                intro ⟨hforce, hlength, hall⟩
                apply hforced
                refine ⟨hforce, ?_, hall⟩
                have hsome := congrArg List.length htake
                simp only [List.length_take, List.length_cons] at hsome
                simp only [List.length_drop]
                omega
      · rw [if_neg hdue]
        refine ⟨⟨chunks, h⟩, ?_⟩
        intro ⟨hforce, _, _⟩
        refine ⟨?_, rfl⟩
        by_contra hsome
        exact hdue (.inr ⟨hforce, hsome⟩)

theorem Records.flush (h : Records sessionId tradeDate options state chunks) (force : Bool)
    (flushing : Flushing) :
    (∃ chunks', Records sessionId tradeDate options
      (CaptureState.flush sessionId tradeDate options force flushing state).1 chunks') ∧
    ((force = true ∧ ∀ found, ∃ publishedAt, flushing.publishing found = .stored publishedAt) →
      (CaptureState.flush sessionId tradeDate options force flushing state).1.buffered = [] ∧
      (CaptureState.flush sessionId tradeDate options force flushing state).1.receiver = state.receiver) := by
  obtain ⟨hrecords, hforced⟩ := h.publishAll force flushing.publishing state.buffered.length 0
  unfold CaptureState.flush
  cases hall : CaptureState.publishAll sessionId tradeDate options force flushing.publishing
    state.buffered.length 0 state with
  | mk published raised =>
      rw [hall] at hrecords hforced
      obtain ⟨chunks', hrecords⟩ := hrecords
      have hdone : (force = true ∧ ∀ found, ∃ publishedAt,
          flushing.publishing found = .stored publishedAt) →
          published.buffered = [] ∧ published.receiver = state.receiver :=
        fun ⟨hforce, hstored⟩ => hforced ⟨hforce, le_refl _, hstored⟩
      cases raised with
      | some name => exact ⟨⟨chunks', hrecords⟩, hdone⟩
      | none =>
          cases flushing.spoolRaises with
          | some name => exact ⟨⟨chunks', hrecords⟩, hdone⟩
          | none => exact ⟨⟨chunks', ⟨hrecords.batches, hrecords.objects, hrecords.ingested,
              hrecords.next, hrecords.numbered, hrecords.genuine, hrecords.last,
              hrecords.bounded⟩⟩, hdone⟩

omit [CaptureFormat B D] in
/-- The checks of a pass touch what has been recorded nowhere. -/
theorem checkHealth_keeps (options : StreamCaptureOptions D) (startedTick : Rat) (turn : Turn) (state : CaptureState B D) :
    ∃ ready nextPingTick, (checkHealth options startedTick turn state).1 =
      { state with ready := ready, nextPingTick := nextPingTick } := by
  unfold checkHealth
  cases state.receiver.errorType with
  | some name => exact ⟨state.ready, state.nextPingTick, rfl⟩
  | none =>
      simp only
      split
      · exact ⟨state.ready, state.nextPingTick, rfl⟩
      · split
        · exact ⟨state.ready, state.nextPingTick, rfl⟩
        · split
          · exact ⟨_, state.nextPingTick, rfl⟩
          · split
            · exact ⟨_, state.nextPingTick, rfl⟩
            · split
              · exact ⟨_, state.nextPingTick, rfl⟩
              · split
                · cases turn.pingRaises with
                  | some name => exact ⟨_, state.nextPingTick, rfl⟩
                  | none => exact ⟨_, _, rfl⟩
                · exact ⟨_, state.nextPingTick, rfl⟩

theorem Records.checkHealth {startedTick : Rat} {turn : Turn}
    (h : Records sessionId tradeDate options state chunks) :
    Records sessionId tradeDate options
      (CaptureState.checkHealth options startedTick turn state).1 chunks := by
  obtain ⟨ready, nextPingTick, hkept⟩ := checkHealth_keeps options startedTick turn state
  rw [hkept]
  exact ⟨h.batches, h.objects, h.ingested, h.next, h.numbered, h.genuine, h.last, h.bounded⟩

theorem Records.flushDue (h : Records sessionId tradeDate options state chunks) (turn : Turn) :
    ∃ chunks', Records sessionId tradeDate options
      (CaptureState.flushDue sessionId tradeDate options turn state).1 chunks' := by
  unfold CaptureState.flushDue
  by_cases hdue : options.batchSize ≤ state.buffered.length ∨ (state.buffered ≠ [] ∧
      decide (options.flushSeconds ≤ turn.now - state.lastFlushTick) = true)
  · rw [if_pos hdue]
    exact (h.flush _ _).1
  · rw [if_neg hdue]
    exact ⟨chunks, h⟩

/-- **One pass of the loop** keeps the record, wherever it ends. -/
theorem Records.pass (h : Records sessionId tradeDate options state chunks) (startedTick : Rat)
    (turn : Turn) :
    ∃ chunks', Records sessionId tradeDate options
      (CaptureState.pass sessionId tradeDate options startedTick state turn).1 chunks' := by
  have hwaited := h.deliver turn.waited
  unfold CaptureState.pass
  cases turn.waitRaises with
  | some name => exact ⟨chunks, hwaited⟩
  | none =>
      have hobserved := hwaited.drain.called (.advance turn.observedAt) rfl
      obtain ⟨chunks', hflushed⟩ := hobserved.flushDue turn
      have hworked := hflushed.deliver turn.working
      refine ⟨chunks', ?_⟩
      simp only
      split
      · exact hworked
      · exact hworked.checkHealth

theorem Records.loop {startedTick : Rat} {turns : List Turn}
    {ended : CaptureState B D × Ending}
    (h : Records sessionId tradeDate options state chunks)
    (hloop : CaptureState.loop sessionId tradeDate options startedTick state turns = some ended) :
    ∃ chunks', Records sessionId tradeDate options ended.1 chunks' := by
  induction turns generalizing state chunks with
  | nil => cases hloop
  | cons turn turns ih =>
      unfold CaptureState.loop at hloop
      obtain ⟨chunks', hpass⟩ := h.pass startedTick turn
      cases hnext : CaptureState.pass sessionId tradeDate options startedTick state turn with
      | mk next ending =>
          rw [hnext] at hpass hloop
          cases ending with
          | some found =>
              obtain rfl := Option.some.inj hloop
              exact ⟨chunks', hpass⟩
          | none => exact ih hpass hloop

end CaptureState

/-! ## The session -/

namespace Connection

open CaptureState

variable {options : StreamCaptureOptions D} {connection : Connection}

theorem start_records : Records connection.sessionId connection.tradeDate options
    (connection.start options : CaptureState B D) [] := by
  refine ⟨rfl, rfl, rfl, rfl, rfl, ?_, rfl, ?_⟩
  · intro envelope hmem
    cases hmem
  · intro chunk hmem
    cases hmem

theorem stream_records {ended : CaptureState B D × Ending}
    (h : connection.stream options = some ended) :
    ∃ chunks, Records connection.sessionId connection.tradeDate options ended.1 chunks := by
  unfold stream at h
  cases hsubscribe : connection.subscribeRaises with
  | some name =>
      simp only [hsubscribe, Option.some.injEq] at h
      subst h
      exact ⟨[], start_records⟩
  | none =>
      simp only [hsubscribe] at h
      exact start_records.loop h

/-- Once the last flush has published all batches, all that has been recorded is published. -/
theorem close_records {ended : CaptureState B D × Ending} {chunks : List (Chunk D)}
    (h : Records connection.sessionId connection.tradeDate options ended.1 chunks)
    (hpublished : ∀ index, ∃ publishedAt,
      connection.closing.flushing.publishing index = .stored publishedAt) :
    ∃ chunks', Records connection.sessionId connection.tradeDate options
        (connection.close options ended).1 chunks' ∧
      (connection.close options ended).1.buffered = [] ∧
      (connection.close options ended).1.receiver.queue = [] := by
  have hdrained := (h.deliver connection.closing.late).drain
  obtain ⟨⟨chunks', hflushed⟩, hforced⟩ := hdrained.flush true
    connection.closing.flushing
  obtain ⟨hbuffered, hreceiver⟩ := hforced ⟨rfl, hpublished⟩
  refine ⟨chunks', hflushed, hbuffered, ?_⟩
  have hqueue := congrArg Receiver.queue hreceiver
  exact hqueue

end Connection

/-- The messages of published chunks. -/
theorem sum_messageCount {sessionId : String} {tradeDate : Day} (chunks : List (Chunk D)) :
    ((chunks.map fun chunk => (chunk.published B sessionId tradeDate).1).map
        (·.messageCount)).sum = (chunks.flatMap Chunk.envelopes).length := by
  induction chunks with
  | nil => rfl
  | cons chunk chunks ih =>
      rw [List.map_cons, List.map_cons, List.sum_cons, ih, List.flatMap_cons, List.length_append]
      rfl

open CaptureState Connection in
/-- What a capture leaves once the last flush has published its batches: all that has been
recorded is in its chunks. -/
theorem captureStream_closed {options : StreamCaptureOptions D} {connection : Connection}
    {captured : CapturedSession B D} (h : captureStream options connection = some captured)
    (hpublished : ∀ index, ∃ publishedAt,
      connection.closing.flushing.publishing index = .stored publishedAt) :
    ∃ (ended closed : CaptureState B D × Ending) (chunks : List (Chunk D)),
      connection.stream options = some ended ∧ closed = connection.close options ended ∧
      captured.manifestKey = .manifest connection.tradeDate connection.sessionId ∧
      captured.manifest = connection.manifestOf options closed ∧
      captured.objects =
        closed.1.objects ++ [(captured.manifestKey, CaptureFormat.manifestJson captured.manifest)] ∧
      captured.calls.flatMap ObserverCall.envelopes = chunks.flatMap Chunk.envelopes ∧
      closed.1.recorded chunks = chunks.flatMap Chunk.envelopes ∧
      Records connection.sessionId connection.tradeDate options closed.1 chunks := by
  unfold captureStream at h
  obtain ⟨ended, hstream, rfl⟩ := Option.map_eq_some_iff.mp h
  obtain ⟨chunks, hended⟩ := stream_records hstream
  obtain ⟨chunks', hclosed, hbuffered, hqueue⟩ := close_records hended hpublished
  refine ⟨ended, connection.close options ended, chunks', hstream, rfl, rfl, rfl, rfl, ?_, ?_,
    hclosed⟩
  · rw [List.flatMap_append, hclosed.ingested, hbuffered, List.append_nil]
    simp [disconnection, ObserverCall.envelopes]
  · simp only [recorded, hbuffered, hqueue, List.append_nil]

open CaptureState Connection in
/-- **A capture loses nothing.**  Whatever is delivered between the steps of the loop and
wherever it ends, once the last flush has published its batches: what the observer has taken in
is numbered from one on, the batches are consecutive chunks of it, none larger than a batch may
be, and the manifest, which is stored last, counts and closes with exactly these. -/
theorem capture_loses_nothing {options : StreamCaptureOptions D} {connection : Connection}
    {captured : CapturedSession B D} (h : captureStream options connection = some captured)
    (hpublished : ∀ index, ∃ publishedAt,
      connection.closing.flushing.publishing index = .stored publishedAt) :
    ∃ chunks : List (Chunk D),
      captured.calls.flatMap ObserverCall.envelopes = chunks.flatMap Chunk.envelopes ∧
      (chunks.flatMap Chunk.envelopes).map (·.receiveSequence) =
        List.range' 1 captured.manifest.messageCount ∧
      (∀ envelope ∈ chunks.flatMap Chunk.envelopes,
        envelope.streamSessionId = connection.sessionId ∧
          envelope.messageSha256 = sha256 (.str envelope.messageJson)) ∧
      captured.manifest.batches = chunks.map (fun chunk =>
        (chunk.published B connection.sessionId connection.tradeDate).1) ∧
      captured.objects = chunks.map (fun chunk =>
          (chunk.published B connection.sessionId connection.tradeDate).2) ++
        [(captured.manifestKey, CaptureFormat.manifestJson captured.manifest)] ∧
      captured.manifest.lastBusinessMessageAt =
        (chunks.flatMap Chunk.envelopes).getLast?.map (·.receivedAt) ∧
      ∀ chunk ∈ chunks, chunk.envelopes.length ≤ options.batchSize := by
  obtain ⟨_, closed, chunks, -, -, -, hmanifest, hobjects, htaken, hall, hclosed⟩ :=
    captureStream_closed h hpublished
  have hnumbered := hclosed.numbered
  have hgenuine := hclosed.genuine
  have hlast := hclosed.last
  rw [hall] at hnumbered hgenuine hlast
  have hcount : captured.manifest.messageCount = (chunks.flatMap Chunk.envelopes).length := by
    simp only [hmanifest, manifestOf, hclosed.batches, sum_messageCount]
  refine ⟨chunks, htaken, ?_, hgenuine, ?_, ?_, ?_, hclosed.bounded⟩
  · rw [hcount]
    exact hnumbered
  · rw [hmanifest]
    exact hclosed.batches
  · rw [hobjects, hclosed.objects]
  · rw [hmanifest]
    exact hlast

namespace Rehearsal

def captureOptions : StreamCaptureOptions Spelled where
  symbols := ["VIC", "VHM"]
  markets := []
  breadthMembership := none
  durationSeconds := 600
  heartbeatSeconds := 30
  staleAfterSeconds := 90
  flushSeconds := 30
  batchSize := 2
  queueSize := 10
  scopes_valid := by decide +kernel
  breadth_scoped := by simp
  durations_valid := by norm_num
  buffers_valid := by decide +kernel

/-- A quote of VIC, received some seconds into the day. -/
def captureQuote (second : Int) : SdkCallback :=
  .data (20700 * dayLength + seconds second)
    ⟨"QuoteMessage", some "VIC", none, none, none, none, .ok "\x7b\x7d"⟩

/-- The surroundings of flushes at one instant. -/
def captureFlushing (second : Int) : Flushing :=
  ⟨fun _ => .stored (20700 * dayLength + seconds second), none, 1⟩

/-- Two quotes fill a batch, one comes before the loop is stopped and one after it. -/
def captureConnection : Connection where
  sessionId := shortSession
  connectedAt := 20700 * dayLength + seconds 8100
  connectedTick := 0
  startedTick := 0
  subscribeRaises := none
  turns := [
    ⟨[.heartbeat (20700 * dayLength + seconds 8110) 1, captureQuote 8130, captureQuote 8131],
      none, 1, 20700 * dayLength + seconds 8132, captureFlushing 8133, [captureQuote 8134], false,
      none, none⟩,
    ⟨[], none, 2, 20700 * dayLength + seconds 8135, captureFlushing 8136, [], true, none, none⟩]
  closing := ⟨[captureQuote 8137], none, 20700 * dayLength + seconds 8138, captureFlushing 8139,
    20700 * dayLength + seconds 8140⟩

def captureResult : Option (CapturedSession String Spelled) :=
  captureStream captureOptions captureConnection

private theorem captureRehearsal_holds : (captureResult.any fun captured =>
    captured.manifest.messageCount == 4 && captured.manifest.batches.length == 2) = true := by
  decide +kernel

end Rehearsal

open Rehearsal in
/-- The rehearsed connection: four quotes in two batches. -/
theorem capture_loses_nothing_rehearsal : ∃ captured, captureResult = some captured ∧
    captured.manifest.batches.length = 2 ∧
    (captured.calls.flatMap ObserverCall.envelopes).map (·.receiveSequence) =
      List.range' 1 4 := by
  have hrehearsal := captureRehearsal_holds
  simp only [Option.any_eq_true, Bool.and_eq_true, beq_iff_eq] at hrehearsal
  obtain ⟨captured, hcaptured, hcount, hbatches⟩ := hrehearsal
  obtain ⟨chunks, hingested, hnumbered, -⟩ :=
    capture_loses_nothing hcaptured fun _ => ⟨_, rfl⟩
  refine ⟨captured, hcaptured, hbatches, ?_⟩
  rw [hingested, hnumbered, hcount]

end MiniLakehouse
