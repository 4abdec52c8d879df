import MiniLakehouse.Capture.Reader

/-!
# Capturing a stream

`capture_stream` (`capture/stream.py`): the callbacks of the SDK put envelopes into a bounded
queue, and the loop takes them out, shows them to an observer and publishes them in batches; the
terminal manifest is written last.

The callbacks run on a thread of the SDK.  A `Turn` is one pass of the loop with all that its
surroundings do in it: what the callbacks deliver up to its drain and then up to its health
check, the readings of the clocks, and what raises.  `StreamObserver` is the log of its calls; an
observer that raises is left out.
-/

namespace MiniLakehouse

/-! ## Options -/

/-- `StreamCaptureOptions` -/
structure StreamCaptureOptions (D : Type) [Hashing D] where
  symbols : List String
  markets : List String
  breadthMembership : Option (BreadthMembershipSnapshot D)
  durationSeconds : Rat
  heartbeatSeconds : Rat
  staleAfterSeconds : Rat
  flushSeconds : Rat
  batchSize : Nat
  queueSize : Nat
  scopes_valid : symbols ≠ [] ∧ areIdentifiers symbols = true ∧ areIdentifiers markets = true
  breadth_scoped : breadthMembership.isSome → markets ≠ []
  durations_valid : 0 < durationSeconds ∧ 0 < heartbeatSeconds ∧
    heartbeatSeconds < staleAfterSeconds
  buffers_valid : 0 < flushSeconds ∧ 1 ≤ batchSize ∧ batchSize ≤ maxStreamBatchMessages ∧
    batchSize ≤ queueSize

variable {B D : Type} [Hashing D]

/-- `schema_version` of a manifest -/
def StreamCaptureOptions.schemaVersion (options : StreamCaptureOptions D) : Nat :=
  if options.breadthMembership.isSome then 4 else if options.markets ≠ [] then 3 else 1

/-- `interval_symbols` -/
def StreamCaptureOptions.intervalSymbols (options : StreamCaptureOptions D) : List String :=
  sortedUnion options.symbols (options.breadthMembership.elim [] (·.symbols))

/-! ## Callbacks -/

/-- `type(error).__name__`, short enough for the `error_type` of a manifest. -/
structure ErrorName where
  text : String
  bounded : 1 ≤ text.length ∧ text.length ≤ 128

/-- What `record` reads of a message of the SDK; a field that is not a text is missing. -/
structure SdkMessage where
  /-- `type(message).__name__` -/
  messageType : String
  symbol : Option String
  market : Option String
  tradingTime : Option String
  intervalTime : Option String
  tradingDate : Option String
  /-- The canonical JSON of its public value, or the name of the error that is raised. -/
  messageJson : Except ErrorName String

/-- `_text_field`: the first field with a text in it. -/
def textField (fields : List (Option String)) : Option String :=
  (fields.filterMap id).find? (· ≠ "")

namespace SdkMessage

def identifier (message : SdkMessage) : Option String :=
  textField [message.symbol, message.market]

def sourceTimeText (message : SdkMessage) : Option String :=
  textField [message.tradingTime, message.intervalTime, message.tradingDate]

/-- The scope that a message is received in. -/
def context (markets : List String) (message : SdkMessage) : SubscriptionContext :=
  if message.messageType = "MarketStatusMessage" ∧ message.identifier.any markets.contains then
    .markets
  else .symbols

end SdkMessage

/-- What the SDK calls back with. -/
inductive SdkCallback where
  | data (receivedAt : Instant) (message : SdkMessage)
  | heartbeat (observedAt : Instant) (tick : Rat)

/-- `_Receiver` and the queue that it shares with the loop. -/
structure Receiver (D : Type) where
  queue : List (StreamEnvelope D)
  nextSequence : Nat
  errorType : Option ErrorName
  heartbeatCount : Nat
  lastHeartbeatAt : Option Instant
  lastBusinessMessageAt : Option Instant
  lastHeartbeatTick : Rat

namespace Receiver

/-- `StreamEnvelope(…)`; nothing where its validation raises. -/
def envelopeOf (sessionId : String) (markets : List String) (sequence : Nat)
    (receivedAt : Instant) (message : SdkMessage) (messageJson : String) :
    Option (StreamEnvelope D) :=
  if h : sessionId ≠ "" ∧ 1 ≤ sequence ∧ message.messageType ≠ "" ∧ 2 ≤ messageJson.length then
    some {
      streamSessionId := sessionId
      receiveSequence := sequence
      messageType := message.messageType
      subscriptionContext := message.context markets
      symbol := message.identifier
      sourceTimeText := message.sourceTimeText
      receivedAt := receivedAt
      messageJson := messageJson
      messageSha256 := sha256 (.str messageJson)
      envelope_valid := h }
  else none

/-- `record` -/
def record (sessionId : String) (options : StreamCaptureOptions D) (receiver : Receiver D)
    (receivedAt : Instant) (message : SdkMessage) : Receiver D :=
  match message.messageJson with
  | .error name => { receiver with errorType := some name }
  | .ok messageJson =>
      match envelopeOf sessionId options.markets receiver.nextSequence receivedAt message
        messageJson with
      | none => { receiver with errorType := some ⟨"ValidationError", by decide⟩ }
      | some envelope =>
          if options.queueSize ≤ receiver.queue.length then
            { receiver with errorType := some ⟨"QueueFull", by decide⟩ }
          else { receiver with
            queue := receiver.queue ++ [envelope]
            nextSequence := receiver.nextSequence + 1
            lastBusinessMessageAt := some receivedAt }

/-- One call of a callback. -/
def deliver (sessionId : String) (options : StreamCaptureOptions D) (receiver : Receiver D) :
    SdkCallback → Receiver D
  | .data receivedAt message => receiver.record sessionId options receivedAt message
  | .heartbeat observedAt tick => { receiver with
      heartbeatCount := receiver.heartbeatCount + 1
      lastHeartbeatAt := some observedAt
      lastHeartbeatTick := tick }

end Receiver

/-! ## The loop -/

/-- What a `StreamObserver` is called with. -/
inductive ObserverCall (D : Type) where
  | connected (streamSessionId : String) (connectedAt : Instant)
  | ingest (envelopes : List (StreamEnvelope D))
  | advance (observedAt : Instant)
  | disconnected (disconnectedAt : Instant) (unavailable : Bool)

/-- How a batch is published: it is stored and the clock is read, or something raises. -/
inductive Publishing where
  | stored (publishedAt : Instant)
  | raised (name : ErrorName)

/-- The surroundings of a flush: the batches that it publishes, the spool's drain, and the tick at
its end. -/
structure Flushing where
  publishing : Nat → Publishing
  spoolRaises : Option ErrorName
  tick : Rat

/-- The surroundings of one pass of the loop. -/
structure Turn where
  /-- Delivered up to the drain -/
  waited : List SdkCallback
  waitRaises : Option ErrorName
  now : Rat
  observedAt : Instant
  flushing : Flushing
  /-- Delivered after the drain and up to the health check -/
  working : List SdkCallback
  stopping : Bool
  readyRaises : Option ErrorName
  pingRaises : Option ErrorName

/-- Why the loop ends. -/
structure Ending where
  kind : StreamDisconnectKind
  failureType : Option ErrorName

def Ending.raised (name : ErrorName) : Ending := ⟨.captureError, some name⟩

/-- What the loop keeps. -/
structure CaptureState (B D : Type) where
  receiver : Receiver D
  buffered : List (StreamEnvelope D)
  batches : List (StreamBatchFields D)
  /-- The bodies that have been stored -/
  objects : List (StreamKey D × B)
  calls : List (ObserverCall D)
  lastFlushTick : Rat
  nextPingTick : Rat
  ready : Bool

/-- `_row` -/
def rowOf [CaptureFormat B D] (envelope : StreamEnvelope D) : CapturedRow D :=
  { envelope with apiVersion := ssiApiVersion, sdkVersion := CaptureFormat.sdkVersion B }

namespace CaptureState

variable [CaptureFormat B D]

section

variable (sessionId : String) (options : StreamCaptureOptions D)

omit [CaptureFormat B D] in
def deliver (state : CaptureState B D) (deliveries : List SdkCallback) : CaptureState B D :=
  { state with receiver := deliveries.foldl (Receiver.deliver sessionId options) state.receiver }

end

omit [Hashing D] [CaptureFormat B D] in
/-- `drain` -/
def drain (state : CaptureState B D) : CaptureState B D :=
  { state with
    receiver := { state.receiver with queue := [] }
    buffered := state.buffered ++ state.receiver.queue
    calls :=
      if state.receiver.queue = [] then state.calls
      else state.calls ++ [.ingest state.receiver.queue] }

/-- `_publish_batch`, once the body has been stored. -/
def publishBatch (sessionId : String) (tradeDate : Day) (first : StreamEnvelope D)
    (rest : List (StreamEnvelope D)) (publishedAt : Instant) :
    StreamBatchFields D × (StreamKey D × B) :=
  let body : B := CaptureFormat.compress ((first :: rest).map (rowOf (B := B)))
  let objectSha256 := CaptureFormat.digest body
  let lastSequence := ((first :: rest).getLast (by simp)).receiveSequence
  let objectKey := StreamKey.batch tradeDate sessionId first.receiveSequence lastSequence
    objectSha256
  ({
    batchId := batchIdentity sessionId first.receiveSequence lastSequence objectSha256
    firstReceiveSequence := first.receiveSequence
    lastReceiveSequence := lastSequence
    messageCount := (first :: rest).length
    objectKey := objectKey
    objectSha256 := objectSha256
    publishedAt := publishedAt }, (objectKey, body))

variable (sessionId : String) (tradeDate : Day) (options : StreamCaptureOptions D)

/-- The loop of `flush`; the fuel bounds its passes by the messages that are buffered. -/
def publishAll (force : Bool) (publishing : Nat → Publishing) :
    Nat → Nat → CaptureState B D → CaptureState B D × Option ErrorName
  | 0, _, state => (state, none)
  | fuel + 1, index, state =>
      if options.batchSize ≤ state.buffered.length ∨ (force = true ∧ state.buffered ≠ []) then
        let count := min state.buffered.length options.batchSize
        match state.buffered.take count with
        | [] => (state, none)
        | first :: rest =>
            match publishing index with
            | .raised name => (state, some name)
            | .stored publishedAt =>
                let published := publishBatch sessionId tradeDate first rest publishedAt
                publishAll force publishing fuel (index + 1) { state with
                  batches := state.batches ++ [published.1]
                  objects := state.objects ++ [published.2]
                  buffered := state.buffered.drop count }
      else (state, none)

/-- `flush`: what it leaves, and the name of what it raises. -/
def flush (force : Bool) (flushing : Flushing) (state : CaptureState B D) :
    CaptureState B D × Option ErrorName :=
  match publishAll sessionId tradeDate options force flushing.publishing state.buffered.length 0
    state with
  | (published, some name) => (published, some name)
  | (published, none) =>
      match flushing.spoolRaises with
      | some name => (published, some name)
      | none => ({ published with lastFlushTick := flushing.tick }, none)

/-- The flush of a pass, where a batch is full or the last flush is long enough ago. -/
def flushDue (turn : Turn) (state : CaptureState B D) : CaptureState B D × Option ErrorName :=
  let due := decide (options.flushSeconds ≤ turn.now - state.lastFlushTick)
  if options.batchSize ≤ state.buffered.length ∨ (state.buffered ≠ [] ∧ due = true) then
    flush sessionId tradeDate options due turn.flushing state
  else (state, none)

/-- The checks of a pass after its flush, in the order of the loop. -/
def checkHealth (startedTick : Rat) (turn : Turn) (state : CaptureState B D) :
    CaptureState B D × Option Ending :=
  match state.receiver.errorType with
  | some name => (state, some (.raised name))
  | none =>
      if options.staleAfterSeconds < turn.now - state.receiver.lastHeartbeatTick then
        (state, some ⟨.stale, some ⟨"HeartbeatTimeout", by decide⟩⟩)
      else
        let alive := decide (0 < state.receiver.heartbeatCount)
        match if alive && !state.ready then turn.readyRaises else none with
        | some name => (state, some (.raised name))
        | none =>
            let readied := { state with ready := state.ready || alive }
            let completed := decide (options.durationSeconds ≤ turn.now - startedTick)
            if (turn.stopping || completed) && !alive then
              (readied, some ⟨.stale, some ⟨"MissingHeartbeat", by decide⟩⟩)
            else if turn.stopping then (readied, some ⟨.shutdown, none⟩)
            else if completed then (readied, some ⟨.completed, none⟩)
            else if readied.nextPingTick ≤ turn.now then
              match turn.pingRaises with
              | some name => (readied, some (.raised name))
              | none =>
                  let passed := ⌊(turn.now - readied.nextPingTick) / options.heartbeatSeconds⌋ + 1
                  ({ readied with
                    nextPingTick := readied.nextPingTick + passed * options.heartbeatSeconds },
                    none)
            else (readied, none)

/-- One pass of the loop: nothing while it goes on. -/
def pass (startedTick : Rat) (state : CaptureState B D) (turn : Turn) :
    CaptureState B D × Option Ending :=
  let waited := state.deliver sessionId options turn.waited
  match turn.waitRaises with
  | some name => (waited, some (.raised name))
  | none =>
      let drained := waited.drain
      let flushed := flushDue sessionId tradeDate options turn
        { drained with calls := drained.calls ++ [.advance turn.observedAt] }
      let worked := flushed.1.deliver sessionId options turn.working
      match flushed.2 with
      | some name => (worked, some (.raised name))
      | none => checkHealth options startedTick turn worked

/-- The loop; nothing if it is still running after the last turn. -/
def loop (startedTick : Rat) : CaptureState B D → List Turn → Option (CaptureState B D × Ending)
  | _, [] => none
  | state, turn :: turns =>
      match pass sessionId tradeDate options startedTick state turn with
      | (next, some ending) => some (next, ending)
      | (next, none) => loop startedTick next turns

end CaptureState

/-! ## The session -/

/-- What is left to do once the loop has ended. -/
structure Closing where
  /-- Delivered after the last health check -/
  late : List SdkCallback
  disconnectRaises : Option ErrorName
  disconnectedAt : Instant
  flushing : Flushing
  publishedAt : Instant

/-- The surroundings of a connection. -/
structure Connection where
  sessionId : String
  connectedAt : Instant
  connectedTick : Rat
  startedTick : Rat
  subscribeRaises : Option ErrorName
  turns : List Turn
  closing : Closing

/-- What `capture_stream` leaves: its manifest, the objects that are stored, the manifest's own
last, and what the observer has been called with. -/
structure CapturedSession (B D : Type) [Hashing D] where
  manifestKey : StreamKey D
  manifest : StreamManifestFields D
  objects : List (StreamKey D × B)
  calls : List (ObserverCall D)

variable [CaptureFormat B D]

namespace Connection

/-- The state that the loop begins with. -/
def start (options : StreamCaptureOptions D) (connection : Connection) : CaptureState B D where
  receiver := ⟨[], 1, none, 0, none, none, connection.connectedTick⟩
  buffered := []
  batches := []
  objects := []
  calls := [.connected connection.sessionId connection.connectedAt]
  lastFlushTick := connection.startedTick
  nextPingTick := connection.startedTick + options.heartbeatSeconds
  ready := false

/-- The market date of the connection. -/
def tradeDate (connection : Connection) : Day := marketTimezone.date connection.connectedAt

/-- The subscriptions and the loop. -/
def stream (options : StreamCaptureOptions D) (connection : Connection) :
    Option (CaptureState B D × Ending) :=
  match connection.subscribeRaises with
  | some name => some (connection.start options, .raised name)
  | none => CaptureState.loop connection.sessionId connection.tradeDate options
      connection.startedTick (connection.start options) connection.turns

/-- The disconnection, the last drain and the last flush. -/
def close (options : StreamCaptureOptions D) (connection : Connection)
    (ended : CaptureState B D × Ending) : CaptureState B D × Ending :=
  let closing := connection.closing
  let drained := (ended.1.deliver connection.sessionId options closing.late).drain
  let disconnected := closing.disconnectRaises.elim ended.2 .raised
  let flushed := CaptureState.flush connection.sessionId connection.tradeDate options true
    closing.flushing drained
  (flushed.1, flushed.2.elim disconnected .raised)

/-- The manifest of a session that has been closed. -/
def manifestOf (options : StreamCaptureOptions D) (connection : Connection)
    (closed : CaptureState B D × Ending) : StreamManifestFields D where
  schemaVersion := options.schemaVersion
  streamSessionId := connection.sessionId
  symbols := options.symbols
  indices := []
  markets := options.markets
  intervalSymbols := if options.breadthMembership.isSome then options.intervalSymbols else []
  breadthMembership := options.breadthMembership
  connectedAt := connection.connectedAt
  disconnectedAt := connection.closing.disconnectedAt
  disconnectKind := closed.2.kind
  messageCount := (closed.1.batches.map (·.messageCount)).sum
  firstReceiveSequence := closed.1.batches.head?.map (·.firstReceiveSequence)
  lastReceiveSequence := closed.1.batches.getLast?.map (·.lastReceiveSequence)
  heartbeatCount := closed.1.receiver.heartbeatCount
  lastHeartbeatAt := closed.1.receiver.lastHeartbeatAt
  lastBusinessMessageAt := closed.1.receiver.lastBusinessMessageAt
  batchCount := closed.1.batches.length
  batches := closed.1.batches
  apiVersion := ssiApiVersion
  sdkVersion := CaptureFormat.sdkVersion B
  errorType := closed.2.failureType.map (·.text)
  publishedAt := connection.closing.publishedAt

/-- What the observer is told of the disconnection. -/
def disconnection (connection : Connection) (closed : CaptureState B D × Ending) :
    ObserverCall D :=
  .disconnected
    (if closed.2.kind = .stale then
      closed.1.receiver.lastHeartbeatAt.getD connection.connectedAt
    else connection.closing.disconnectedAt)
    (!closed.2.kind.isClean)

end Connection

/-- `capture_stream`; nothing if the loop is still running after the last turn. -/
def captureStream (options : StreamCaptureOptions D) (connection : Connection) :
    Option (CapturedSession B D) :=
  (connection.stream options).map fun ended =>
    let closed := connection.close options ended
    let manifest := connection.manifestOf options closed
    let manifestKey := StreamKey.manifest connection.tradeDate connection.sessionId
    { manifestKey := manifestKey
      manifest := manifest
      objects := closed.1.objects ++ [(manifestKey, CaptureFormat.manifestJson manifest)]
      calls := closed.1.calls ++ [connection.disconnection closed] }

end MiniLakehouse
