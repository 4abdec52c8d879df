import MiniLakehouse.Capture.Gap
import MiniLakehouse.Capture.Membership
import MiniLakehouse.Controls.Model
import MiniLakehouse.Library.Keyed
import MiniLakehouse.Library.Validation
import MiniLakehouse.Market.Events

/-!
# Reading a capture

`capture/reader.py`: a terminal manifest is validated once, then the rows of its batches are
read and verified one by one (`StreamSessionReader`); the segments of a market day are put in
order (`StreamDayReader`).

An object's key is what its text spells, and a body is bytes of any type: `CaptureFormat` says
what they spell.  A generator is the list of what it yields, if it yields all of it without
raising.
-/

namespace MiniLakehouse

/-! ## Objects -/

/-- The key of an object below `SSI_STREAM_RAW_PREFIX`; the session is the text of its part. -/
inductive StreamKey (D : Type) where
  /-- `trade_date=…/session=…/manifest.json` -/
  | manifest (tradeDate : Day) (session : String)
  /-- `trade_date=…/session=…/batches/…-…-….json.gz` -/
  | batch (tradeDate : Day) (session : String) (first last : Nat) (objectSha256 : D)
  | other (text : String)
  deriving DecidableEq

/-- `MAX_STREAM_BATCH_MESSAGES` -/
def maxStreamBatchMessages : Nat := 10000

/-- `SSI_API_VERSION` -/
def ssiApiVersion : String := "v3"

inductive StreamDisconnectKind where
  | completed
  | shutdown
  | stale
  | captureError
  deriving DecidableEq, Repr

/-- `disconnect_kind in {"completed", "shutdown"}` -/
def StreamDisconnectKind.isClean : StreamDisconnectKind → Bool
  | .completed | .shutdown => true
  | .stale | .captureError => false

/-- `StreamBatch`, before it is validated. -/
structure StreamBatchFields (D : Type) where
  batchId : D
  firstReceiveSequence : Nat
  lastReceiveSequence : Nat
  messageCount : Nat
  objectKey : StreamKey D
  objectSha256 : D
  publishedAt : Instant

/-- The constraints of the fields and `validate_sequence_span`. -/
def StreamBatchFields.checks {D : Type} (fields : StreamBatchFields D) : List (Check Raised) :=
  [⟨1 ≤ fields.firstReceiveSequence, .fieldError "first_receive_sequence"⟩,
    ⟨1 ≤ fields.lastReceiveSequence, .fieldError "last_receive_sequence"⟩,
    ⟨1 ≤ fields.messageCount && fields.messageCount ≤ maxStreamBatchMessages,
      .fieldError "message_count"⟩,
    ⟨(fields.lastReceiveSequence : Int) - fields.firstReceiveSequence + 1 ==
        (fields.messageCount : Int),
      .valueError "batch sequence span does not match message_count"⟩]

structure StreamBatch (D : Type) extends StreamBatchFields D where
  valid : AllHold toStreamBatchFields.checks

def StreamBatch.modelValidate {D : Type} (fields : StreamBatchFields D) :
    Except Raised (StreamBatch D) :=
  validated fields.checks fun valid => ⟨fields, valid⟩

/-! ## Manifest -/

/-- `StreamManifest`, before it is validated. -/
structure StreamManifestFields (D : Type) [Hashing D] where
  schemaVersion : Nat
  streamSessionId : String
  symbols : List String
  indices : List String
  markets : List String
  intervalSymbols : List String
  breadthMembership : Option (BreadthMembershipSnapshot D)
  connectedAt : Instant
  disconnectedAt : Instant
  disconnectKind : StreamDisconnectKind
  messageCount : Nat
  firstReceiveSequence : Option Int
  lastReceiveSequence : Option Int
  heartbeatCount : Nat
  lastHeartbeatAt : Option Instant
  lastBusinessMessageAt : Option Instant
  batchCount : Nat
  batches : List (StreamBatchFields D)
  apiVersion : String
  sdkVersion : String
  errorType : Option String
  publishedAt : Instant

/-- Distinct identifiers, each `value == value.strip().upper()`. -/
def areIdentifiers (values : List String) : Bool :=
  decide values.Nodup && values.all isUpperIdentifier

/-- `tuple(sorted(set(first) | set(second)))` -/
def sortedUnion (first second : List String) : List String :=
  sortOn (fun text : String => text) (first ++ second).dedup

namespace StreamManifestFields

variable {D : Type} [Hashing D] (fields : StreamManifestFields D)

/-- `expected_interval_symbols` -/
def expectedIntervalSymbols : List String :=
  fields.breadthMembership.elim [] fun membership =>
    sortedUnion fields.symbols membership.symbols

/-- `invalid_schema_scope` -/
def invalidSchemaScope : Bool :=
  ([1, 2, 3].contains fields.schemaVersion &&
      (fields.intervalSymbols != [] || fields.breadthMembership.isSome)) ||
    (fields.schemaVersion == 1 && (fields.indices != [] || fields.markets != [])) ||
    (fields.schemaVersion == 2 && (fields.indices == [] || fields.markets != [])) ||
    (fields.schemaVersion == 3 && fields.markets == []) ||
    (fields.schemaVersion == 4 &&
      (fields.markets == [] || fields.indices != [] || fields.breadthMembership.isNone ||
        fields.intervalSymbols != fields.expectedIntervalSymbols))

/-- An instant of the connection. -/
def whileConnected (instant : Instant) : Bool :=
  fields.connectedAt ≤ instant && instant ≤ fields.disconnectedAt

/-- The constraints of the fields and `validate_summary`. -/
def checks : List (Check Raised) :=
  [⟨[1, 2, 3, 4].contains fields.schemaVersion, .fieldError "schema_version"⟩,
    ⟨fields.streamSessionId != "", .fieldError "stream_session_id"⟩,
    ⟨fields.errorType.all fun text => 1 ≤ text.length && text.length ≤ 128,
      .fieldError "error_type"⟩,
    ⟨fields.symbols != [] && areIdentifiers fields.symbols,
      .valueError "symbols must contain unique uppercase identifiers"⟩,
    ⟨areIdentifiers fields.indices && fields.symbols.all (fun symbol => !fields.indices.contains symbol) &&
        areIdentifiers fields.markets && areIdentifiers fields.intervalSymbols &&
        !fields.invalidSchemaScope,
      .valueError "subscription scopes do not match the stream manifest schema"⟩,
    ⟨fields.connectedAt ≤ fields.disconnectedAt && fields.disconnectedAt ≤ fields.publishedAt,
      .valueError "terminal timestamps are not ordered"⟩,
    ⟨(fields.heartbeatCount == 0) == fields.lastHeartbeatAt.isNone,
      .valueError "heartbeat summary is inconsistent"⟩,
    ⟨fields.lastHeartbeatAt.all fields.whileConnected,
      .valueError "last heartbeat falls outside the connection"⟩,
    ⟨fields.lastBusinessMessageAt.all fields.whileConnected,
      .valueError "last business message falls outside the connection"⟩,
    ⟨fields.batchCount == fields.batches.length,
      .valueError "batch_count does not match batches"⟩,
    ⟨fields.messageCount != 0 || (fields.firstReceiveSequence.isNone &&
        fields.lastReceiveSequence.isNone && fields.lastBusinessMessageAt.isNone &&
        fields.batches.isEmpty),
      .valueError "empty session contains message lineage"⟩,
    ⟨fields.messageCount == 0 || (fields.firstReceiveSequence == some 1 &&
        fields.lastReceiveSequence == some (fields.messageCount : Int) &&
        fields.lastBusinessMessageAt.isSome),
      .valueError "message summary does not cover the terminal sequence"⟩,
    ⟨fields.disconnectKind.isClean == fields.errorType.isNone &&
        !(fields.disconnectKind.isClean && fields.heartbeatCount == 0),
      .valueError "terminal kind and error_type are inconsistent"⟩]

end StreamManifestFields

structure StreamManifest (D : Type) [Hashing D] extends StreamManifestFields D where
  batches_valid : ∀ batch ∈ toStreamManifestFields.batches, AllHold batch.checks
  valid : AllHold toStreamManifestFields.checks

variable {B D : Type} [Hashing D]

/-- `StreamManifest.model_validate`: the batches first, then what they are part of. -/
def StreamManifest.modelValidate (fields : StreamManifestFields D) :
    Except Raised (StreamManifest D) := do
  let ⟨batchesValid⟩ ← ensure (∀ batch ∈ fields.batches, AllHold batch.checks)
    (Raised.fieldError "batches")
  validated fields.checks fun valid => ⟨fields, batchesValid, valid⟩

/-! ## Rows -/

/-- `_CapturedRow` -/
structure CapturedRow (D : Type) extends StreamEnvelope D where
  apiVersion : String
  sdkVersion : String

/-- What the bytes of an object spell, and the version of the pinned SDK. -/
class CaptureFormat (B : Type) (D : outParam Type) [Hashing D] where
  /-- `sha256` of the bytes -/
  digest : B → D
  /-- `gzip.compress` of the canonical lines of rows -/
  compress : List (CapturedRow D) → B
  /-- The lines of `gzip.decompress(body)`, each with the row that it validates as, if it does;
  nothing where gzip raises. -/
  lines : B → Option (List (Option (CapturedRow D)))
  /-- `canonical_json` of a manifest -/
  manifestJson : StreamManifestFields D → B
  /-- `json.loads` of a manifest, if its fields have their types. -/
  manifestFields : B → Option (StreamManifestFields D)
  sdkVersion : String

/-- A session's identifier as `str(UUID(text))` spells it; nothing where `UUID` raises. -/
def uuidText (text : String) : Option String :=
  let digits := (text.toList.filter (· != '-')).map Char.toLower
  let isHex := fun c : Char => c.isDigit || ['a', 'b', 'c', 'd', 'e', 'f'].contains c
  if digits.length = 32 ∧ digits.all isHex then
    some (String.ofList (digits.take 8 ++ '-' :: (digits.drop 8).take 4 ++ '-' ::
      (digits.drop 12).take 4 ++ '-' :: (digits.drop 16).take 4 ++ '-' :: digits.drop 20))
  else none

/-- `_manifest_location`: the date, the session's part of the key and the session itself. -/
def manifestLocation : StreamKey D → Except Raised (Day × String × String)
  | .manifest tradeDate session =>
      match uuidText session with
      | some sessionId => .ok (tradeDate, session, sessionId)
      | none => .error (.runtimeError "unexpected SSI Stream manifest key")
  | .batch _ _ _ _ _ | .other _ =>
      .error (.runtimeError "unexpected SSI Stream manifest key")

omit [Hashing D] in
theorem manifestLocation_eq_ok {key : StreamKey D} {tradeDate : Day} {session sessionId : String} :
    manifestLocation key = .ok (tradeDate, session, sessionId) ↔
      key = .manifest tradeDate session ∧ uuidText session = some sessionId := by
  cases key with
  | manifest date text =>
      cases htext : uuidText text with
      | none =>
          simp only [manifestLocation, htext, reduceCtorEq, StreamKey.manifest.injEq, false_iff]
          intro ⟨⟨_, hsame⟩, hfound⟩
          rw [← hsame, htext] at hfound
          cases hfound
      | some found =>
          simp only [manifestLocation, htext, Except.ok.injEq, Prod.mk.injEq,
            StreamKey.manifest.injEq]
          constructor
          · intro ⟨hdate, hsame, hfound⟩
            exact ⟨⟨hdate, hsame⟩, by rw [← hsame, htext, hfound]⟩
          · intro ⟨⟨hdate, hsame⟩, hfound⟩
            rw [← hsame, htext] at hfound
            exact ⟨hdate, hsame, Option.some.inj hfound⟩
  | batch _ _ _ _ _ => simp [manifestLocation]
  | other _ => simp [manifestLocation]

/-- A result with the proof that it is the computation's. -/
def kept {ε α : Type} (result : Except ε α) : Except ε (PSigma fun value => result = .ok value) :=
  match result with
  | .ok value => .ok ⟨value, rfl⟩
  | .error raised => .error raised

theorem kept_of {ε α : Type} {result : Except ε α} {value : α} (h : result = .ok value) :
    kept result = .ok ⟨value, h⟩ := by
  subst h
  rfl

/-! ## One session -/

/-- `expected_id`: the digest that names a batch. -/
def batchIdentity (streamSessionId : String) (first last : Nat) (objectSha256 : D) : D :=
  sha256 (.arr [.str streamSessionId, .nat first, .nat last, .sha objectSha256])

/-- What `_validate_batches` keeps between two batches. -/
structure BatchCursor where
  expectedSequence : Nat
  observedCount : Nat
  previousPublishedAt : Instant

/-- One batch of `_validate_batches`. -/
def followBatch (tradeDate : Day) (session : String) (manifest : StreamManifest D)
    (cursor : BatchCursor) (batch : StreamBatchFields D) : Except Raised BatchCursor := do
  require (batch.firstReceiveSequence = cursor.expectedSequence ∧
      batch.objectKey = .batch tradeDate session batch.firstReceiveSequence
        batch.lastReceiveSequence batch.objectSha256 ∧
      batch.batchId = batchIdentity manifest.streamSessionId batch.firstReceiveSequence
        batch.lastReceiveSequence batch.objectSha256 ∧
      manifest.connectedAt ≤ batch.publishedAt ∧ batch.publishedAt ≤ manifest.publishedAt ∧
      cursor.previousPublishedAt ≤ batch.publishedAt)
    (Raised.runtimeError "SSI Stream batch lineage is inconsistent")
  return {
    expectedSequence := batch.lastReceiveSequence + 1
    observedCount := cursor.observedCount + batch.messageCount
    previousPublishedAt := batch.publishedAt }

/-- `_validate_batches` -/
def validateBatches (tradeDate : Day) (session : String) (manifest : StreamManifest D) :
    Except Raised Unit := do
  let cursor ← manifest.batches.foldlM (followBatch tradeDate session manifest)
    ⟨1, 0, manifest.connectedAt⟩
  require (cursor.observedCount = manifest.messageCount)
    (Raised.runtimeError "SSI Stream batches do not cover message_count")

/-- What the manifest of a session says of its key and of the pinned versions. -/
def IsLineage (tradeDate : Day) (sessionId sdkVersion : String) (manifest : StreamManifest D) :
    Prop :=
  manifest.streamSessionId = sessionId ∧
    marketTimezone.date manifest.connectedAt = tradeDate ∧
    manifest.apiVersion = ssiApiVersion ∧ manifest.sdkVersion = sdkVersion

instance (tradeDate : Day) (sessionId sdkVersion : String) (manifest : StreamManifest D) :
    Decidable (IsLineage tradeDate sessionId sdkVersion manifest) := by
  unfold IsLineage
  infer_instance

/-- The manifest of a body. -/
def readManifest [CaptureFormat B D] (body : B) : Except Raised (StreamManifest D) :=
  match CaptureFormat.manifestFields body with
  | none => .error (.runtimeError "invalid SSI Stream manifest")
  | some fields =>
      (StreamManifest.modelValidate fields).mapError fun _ =>
        .runtimeError "invalid SSI Stream manifest"

/-- `StreamSessionReader`; `store` is the `read_capture` of its store. -/
structure StreamSessionReader (B D : Type) [Hashing D] [CaptureFormat B D] where
  store : StreamKey D → Except Raised (Option B)
  prefetch : Nat
  tradeDate : Day
  /-- The session's part of `manifest_key` -/
  session : String
  manifest : StreamManifest D
  manifestSha256 : D
  prefetch_positive : 1 ≤ prefetch
  manifest_read : ∃ body : B, readManifest body = .ok manifest ∧
    CaptureFormat.digest body = manifestSha256
  lineage : ∃ sessionId, uuidText session = some sessionId ∧
    IsLineage tradeDate sessionId (CaptureFormat.sdkVersion B) manifest
  batches_follow : validateBatches tradeDate session manifest = .ok ()

namespace StreamSessionReader

variable [CaptureFormat B D]

/-- `StreamSessionReader.__init__` -/
def init (store : StreamKey D → Except Raised (Option B)) (manifestKey : StreamKey D)
    (prefetch : Nat) : Except Raised (StreamSessionReader B D) := do
  let ⟨positive⟩ ← ensure (1 ≤ prefetch) (Raised.valueError "prefetch must be positive")
  let ⟨(tradeDate, session, sessionId), hlocation⟩ ← kept (manifestLocation manifestKey)
  match ← store manifestKey with
  | none => throw (.runtimeError "SSI Stream manifest does not exist")
  | some body => do
      let ⟨manifest, hread⟩ ← kept (readManifest body)
      let ⟨lineage⟩ ← ensure (IsLineage tradeDate sessionId (CaptureFormat.sdkVersion B) manifest)
        (Raised.runtimeError "SSI Stream manifest lineage is inconsistent")
      let ⟨(), hbatches⟩ ← kept (validateBatches tradeDate session manifest)
      return {
        store := store
        prefetch := prefetch
        tradeDate := tradeDate
        session := session
        manifest := manifest
        manifestSha256 := CaptureFormat.digest body
        prefetch_positive := positive
        manifest_read := ⟨body, hread, rfl⟩
        lineage := ⟨sessionId, (manifestLocation_eq_ok.mp hlocation).2, lineage⟩
        batches_follow := hbatches }

variable (reader : StreamSessionReader B D)

/-- `covered_until`: the last instant backed by a healthy transport heartbeat. -/
def coveredUntil : Instant :=
  if reader.manifest.disconnectKind = .stale then
    reader.manifest.lastHeartbeatAt.getD reader.manifest.connectedAt
  else reader.manifest.disconnectedAt

/-- `_read_batch` -/
def readBatch (batch : StreamBatchFields D) : Except Raised B := do
  match ← reader.store batch.objectKey with
  | none => throw (.runtimeError "SSI Stream batch is missing or has checksum drift")
  | some body =>
      require (CaptureFormat.digest body = batch.objectSha256)
        (Raised.runtimeError "SSI Stream batch is missing or has checksum drift")
      return body

/-- The loop of `_batch_bodies`: a submitted read is its result; the oldest is yielded and one
more is submitted, as long as there is a batch. -/
def drainReads (read : StreamBatchFields D → Except Raised B) :
    List (StreamBatchFields D × Except Raised B) → List (StreamBatchFields D) →
    List (StreamBatchFields D × Except Raised B)
  | pending, [] => pending
  | [], _ :: _ => []
  | oldest :: pending, following :: batches =>
      oldest :: drainReads read (pending ++ [(following, read following)]) batches

/-- `_batch_bodies`: each batch with the outcome of its read. -/
def batchBodies : List (StreamBatchFields D × Except Raised B) :=
  drainReads reader.readBatch
    ((reader.manifest.batches.take reader.prefetch).map fun batch => (batch, reader.readBatch batch))
    (reader.manifest.batches.drop reader.prefetch)

/-- What `envelopes` keeps between two rows, and what it has yielded. -/
structure RowCursor (D : Type) where
  expectedSequence : Nat
  lastReceivedAt : Option Instant
  yielded : List (CapturedRow D)

/-- The symbol of a row is one that its session has subscribed to. -/
def inScope (manifest : StreamManifestFields D) (row : StreamEnvelope D) : Bool :=
  match row.subscriptionContext with
  | .symbols => row.symbol.all fun symbol =>
      (if row.messageType = "IntervalMessage" ∧ manifest.schemaVersion = 4 then
        manifest.intervalSymbols
      else manifest.symbols).contains symbol
  | .indices => row.symbol.any manifest.indices.contains
  | .markets => row.symbol.any manifest.markets.contains

/-- One row of `envelopes`. -/
def acceptRow (manifest : StreamManifest D) (batch : StreamBatchFields D) (cursor : RowCursor D)
    (line : Option (CapturedRow D)) : Except Raised (RowCursor D) := do
  match line with
  | none => throw (.runtimeError "invalid SSI Stream captured row")
  | some row =>
      require (row.streamSessionId = manifest.streamSessionId ∧
          row.receiveSequence = cursor.expectedSequence ∧
          row.apiVersion = manifest.apiVersion ∧ row.sdkVersion = manifest.sdkVersion ∧
          inScope manifest.toStreamManifestFields row.toStreamEnvelope = true ∧
          manifest.connectedAt ≤ row.receivedAt ∧ row.receivedAt ≤ manifest.disconnectedAt ∧
          (∀ last ∈ cursor.lastReceivedAt, last ≤ row.receivedAt) ∧
          row.receivedAt ≤ batch.publishedAt ∧
          sha256 (.str row.messageJson) = row.messageSha256)
        (Raised.runtimeError "SSI Stream captured row lineage is inconsistent")
      return {
        expectedSequence := cursor.expectedSequence + 1
        lastReceivedAt := some row.receivedAt
        yielded := cursor.yielded ++ [row] }

/-- One batch of `envelopes`. -/
def acceptBatch (manifest : StreamManifest D) (cursor : RowCursor D)
    (read : StreamBatchFields D × Except Raised B) : Except Raised (RowCursor D) := do
  let body ← read.2
  match CaptureFormat.lines body with
  | none => throw (.runtimeError "SSI Stream batch is not valid gzip")
  | some lines => do
      require (lines.length = read.1.messageCount)
        (Raised.runtimeError "SSI Stream batch row count is inconsistent")
      lines.foldlM (acceptRow manifest read.1) cursor

/-- `envelopes` -/
def envelopes : Except Raised (List (CapturedRow D)) := do
  let cursor ← reader.batchBodies.foldlM (acceptBatch reader.manifest) ⟨1, none, []⟩
  require (cursor.expectedSequence - 1 = reader.manifest.messageCount)
    (Raised.runtimeError "SSI Stream reader did not reach the terminal sequence")
  require (cursor.lastReceivedAt = reader.manifest.lastBusinessMessageAt)
    (Raised.runtimeError "SSI Stream last business receipt is inconsistent")
  return cursor.yielded

end StreamSessionReader

/-! ## One day -/

namespace StreamSessionReader

variable [CaptureFormat B D]

/-- The sort key of the segments of a day. -/
def order (reader : StreamSessionReader B D) : Instant ×ₗ Instant ×ₗ String :=
  toLex (reader.manifest.connectedAt,
    toLex (reader.manifest.disconnectedAt, reader.manifest.streamSessionId))

/-- `_breadth_scope` -/
def breadthScope (reader : StreamSessionReader B D) :
    List (String × MembershipStatus × List String) :=
  reader.manifest.breadthMembership.elim [] fun snapshot =>
    snapshot.memberships.map fun membership =>
      (membership.index, membership.status, membership.symbols)

/-- Two segments of one day and one subscription. -/
def SameLineage (reader first : StreamSessionReader B D) : Prop :=
  reader.tradeDate = first.tradeDate ∧ reader.manifest.symbols = first.manifest.symbols ∧
    reader.manifest.indices = first.manifest.indices ∧
    reader.manifest.markets = first.manifest.markets ∧
    reader.manifest.intervalSymbols = first.manifest.intervalSymbols ∧
    reader.breadthScope = first.breadthScope ∧
    reader.manifest.apiVersion = first.manifest.apiVersion ∧
    reader.manifest.sdkVersion = first.manifest.sdkVersion

instance (reader first : StreamSessionReader B D) : Decidable (reader.SameLineage first) := by
  unfold SameLineage
  infer_instance

end StreamSessionReader

/-- `StreamDayReader`: the ordered segments of one day. -/
structure StreamDayReader (B D : Type) [Hashing D] [CaptureFormat B D] where
  first : StreamSessionReader B D
  rest : List (StreamSessionReader B D)
  ordered : (first :: rest).Pairwise (fun previous current => previous.order ≤ current.order)
  sessions_unique : ((first :: rest).map (·.manifest.streamSessionId)).Nodup
  lineage : ∀ reader ∈ rest, reader.SameLineage first
  apart : (first :: rest).IsChain fun previous current =>
    previous.manifest.disconnectedAt ≤ current.manifest.connectedAt

namespace StreamDayReader

variable [CaptureFormat B D]

/-- `StreamDayReader.__init__` -/
def init (sessions : List (StreamSessionReader B D)) : Except Raised (StreamDayReader B D) :=
  match h : sortOn StreamSessionReader.order sessions with
  | [] => .error (.valueError "stream day requires at least one transport segment")
  | first :: rest => do
      let ⟨unique⟩ ← ensure ((first :: rest).map (·.manifest.streamSessionId)).Nodup
        (Raised.valueError "stream day contains duplicate transport segments")
      let ⟨lineage⟩ ← ensure (∀ reader ∈ rest, reader.SameLineage first)
        (Raised.valueError "stream day segment lineage is inconsistent")
      let ⟨apart⟩ ← ensure ((first :: rest).IsChain fun previous current =>
          previous.manifest.disconnectedAt ≤ current.manifest.connectedAt)
        (Raised.valueError "stream day transport segments overlap")
      return ⟨first, rest, h ▸ sortOn_pairwise StreamSessionReader.order sessions, unique,
        lineage, apart⟩

variable (day : StreamDayReader B D)

def sessions : List (StreamSessionReader B D) := day.first :: day.rest

def tradeDate : Day := day.first.tradeDate

def streamSessionIds : List String := day.sessions.map (·.manifest.streamSessionId)

/-- `evidence_sha256` -/
def evidenceSha256 : D :=
  sha256 (.list .sha (sortOn (fun digest : D => digest) (day.sessions.map (·.manifestSha256))))

def messageCount : Nat := (day.sessions.map (·.manifest.messageCount)).sum

def connectedAt : Instant := day.first.manifest.connectedAt

def disconnectedAt : Instant := (day.sessions.getLast (by simp [sessions])).manifest.disconnectedAt

def coveredUntil : Instant := (day.sessions.getLast (by simp [sessions])).coveredUntil

/-- The gap between two segments. -/
def gapBetween (previous current : StreamSessionReader B D) : Option StreamGap :=
  if h : previous.coveredUntil < current.manifest.connectedAt then some ⟨_, _, h⟩ else none

/-- `gaps` -/
def gaps : List StreamGap :=
  (day.sessions.zip day.rest).filterMap fun pair => gapBetween pair.1 pair.2

/-- One envelope of `envelopes`, after those that have been yielded. -/
def acceptEnvelope (yielded : List (CapturedRow D)) (envelope : CapturedRow D) :
    Except Raised (List (CapturedRow D)) := do
  require (∀ previous ∈ yielded.getLast?, previous.receivedAt ≤ envelope.receivedAt)
    (Raised.runtimeError "stream day receipt time regressed across segments")
  return yielded ++ [envelope]

/-- `envelopes` -/
def envelopes : Except Raised (List (CapturedRow D)) :=
  day.sessions.foldlM (fun yielded reader => do
    let rows ← reader.envelopes
    rows.foldlM acceptEnvelope yielded) []

end StreamDayReader

end MiniLakehouse
