import MiniLakehouse.Capture.Manifests
import MiniLakehouse.Capture.Store

/-!
# What is captured can be read

The objects that a capture has stored, read again by a reader (`captured_session_read_back`):
where the clocks agree and the messages are in scope, the reader accepts the session, and the
rows that it yields are the envelopes that the observer has taken in.
-/

namespace MiniLakehouse

variable {B D : Type} [Hashing D] [CaptureFormat B D]

/-- What a format writes is what it reads. -/
class LawfulCaptureFormat (B D : Type) [Hashing D] [CaptureFormat B D] : Prop where
  lines_compress : ∀ rows : List (CapturedRow D),
    CaptureFormat.lines (CaptureFormat.compress rows : B) = some (rows.map some)
  manifestFields_manifestJson : ∀ fields : StreamManifestFields D,
    CaptureFormat.manifestFields (CaptureFormat.manifestJson fields : B) = some fields

/-- The rows that a chunk is stored as. -/
def Chunk.rows (B : Type) [CaptureFormat B D] (chunk : Chunk D) : List (CapturedRow D) :=
  chunk.envelopes.map (rowOf (B := B))

/-! ## Batches -/

omit [CaptureFormat B D] in
theorem followBatch_of {tradeDate : Day} {session : String} {manifest : StreamManifest D}
    {cursor : BatchCursor} {batch : StreamBatchFields D}
    (hfirst : batch.firstReceiveSequence = cursor.expectedSequence)
    (hkey : batch.objectKey = .batch tradeDate session batch.firstReceiveSequence
      batch.lastReceiveSequence batch.objectSha256)
    (hid : batch.batchId = batchIdentity manifest.streamSessionId batch.firstReceiveSequence
      batch.lastReceiveSequence batch.objectSha256)
    (hconnected : manifest.connectedAt ≤ batch.publishedAt)
    (hpublished : batch.publishedAt ≤ manifest.publishedAt)
    (hprevious : cursor.previousPublishedAt ≤ batch.publishedAt) :
    followBatch tradeDate session manifest cursor batch = .ok ⟨batch.lastReceiveSequence + 1,
      cursor.observedCount + batch.messageCount, batch.publishedAt⟩ := by
  rw [followBatch, require_of ⟨hfirst, hkey, hid, hconnected, hpublished, hprevious⟩]
  rfl

/-- The chunks of numbered messages follow one another. -/
theorem followBatches {sessionId : String} {manifest : StreamManifest D}
    {chunks : List (Chunk D)} {previous : Instant} (tradeDate : Day)
    (before : List (StreamEnvelope D)) (hsession : manifest.streamSessionId = sessionId)
    (hnumbered : (before ++ chunks.flatMap Chunk.envelopes).map (·.receiveSequence) =
      List.range' 1 (before ++ chunks.flatMap Chunk.envelopes).length)
    (hordered : (previous :: chunks.map (·.publishedAt)).IsChain (· ≤ ·))
    (hpublished : ∀ chunk ∈ chunks, manifest.connectedAt ≤ chunk.publishedAt ∧
      chunk.publishedAt ≤ manifest.publishedAt) :
    ∃ last, (chunks.map fun chunk => (chunk.published B sessionId tradeDate).1).foldlM
        (followBatch tradeDate sessionId manifest) ⟨before.length + 1, before.length, previous⟩ =
      .ok ⟨(before ++ chunks.flatMap Chunk.envelopes).length + 1,
        (before ++ chunks.flatMap Chunk.envelopes).length, last⟩ := by
  induction chunks generalizing before previous with
  | nil => exact ⟨previous, by simp [pure, Except.pure]⟩
  | cons chunk chunks ih =>
      have hflat : before ++ (chunk :: chunks).flatMap Chunk.envelopes =
          before ++ (chunk.envelopes ++ chunks.flatMap Chunk.envelopes) := by
        rw [List.flatMap_cons]
      rw [hflat] at hnumbered ⊢
      obtain ⟨hfirst, hlast⟩ := batch_bounds (B := B) chunk sessionId tradeDate before
        (chunks.flatMap Chunk.envelopes) hnumbered
      have hchain := List.isChain_cons_cons.mp hordered
      obtain ⟨hconnected, hbefore⟩ := hpublished chunk List.mem_cons_self
      have hone : followBatch tradeDate sessionId manifest
          ⟨before.length + 1, before.length, previous⟩
          (chunk.published B sessionId tradeDate).1 =
          .ok ⟨(before ++ chunk.envelopes).length + 1, (before ++ chunk.envelopes).length,
            chunk.publishedAt⟩ := by
        rw [followBatch_of hfirst rfl (by rw [hsession]; rfl) hconnected hbefore hchain.1, hlast,
          List.length_append]
        rfl
      rw [← List.append_assoc] at hnumbered ⊢
      obtain ⟨last, hrest⟩ := ih (before ++ chunk.envelopes) hnumbered hchain.2
        (fun other hother => hpublished other (List.mem_cons_of_mem _ hother))
      refine ⟨last, ?_⟩
      rw [List.map_cons, List.foldlM_cons, hone, ok_bind]
      exact hrest

/-! ## Rows -/

namespace StreamSessionReader

omit [Hashing D] [CaptureFormat B D] in
/-- The first of numbered rows are numbered. -/
theorem Numbered.of_append {rows following : List (CapturedRow D)}
    (h : Numbered (rows ++ following)) : Numbered rows := by
  refine ⟨?_, (List.isChain_append.mp h.receipts).1⟩
  have hsequences := h.sequences
  rw [List.map_append, List.length_append, ← List.range'_append_1] at hsequences
  exact (List.append_inj hsequences (by simp)).1

/-- The cursor that has yielded some rows. -/
def RowCursor.after (yielded : List (CapturedRow D)) : RowCursor D :=
  ⟨yielded.length + 1, yielded.getLast?.map (·.receivedAt), yielded⟩

omit [CaptureFormat B D] in
/-- Verified rows, numbered on from those that have been yielded, are accepted. -/
theorem acceptRows {manifest : StreamManifest D} {batch : StreamBatchFields D}
    {yielded rows : List (CapturedRow D)} (hnumbered : Numbered (yielded ++ rows))
    (hverified : ∀ row ∈ rows, Verified manifest row)
    (hpublished : ∀ row ∈ rows, row.receivedAt ≤ batch.publishedAt) :
    (rows.map some).foldlM (acceptRow manifest batch) (RowCursor.after yielded) =
      .ok (RowCursor.after (yielded ++ rows)) := by
  induction rows generalizing yielded with
  | nil => simp [pure, Except.pure]
  | cons row rows ih =>
      have hsequence : row.receiveSequence = yielded.length + 1 :=
        sequence_of_split yielded rows hnumbered.sequences rfl
      have hlast : ∀ last ∈ (RowCursor.after yielded).lastReceivedAt, last ≤ row.receivedAt := by
        intro last hmem
        obtain ⟨previous, hprevious, rfl⟩ := Option.map_eq_some_iff.mp hmem
        exact (List.isChain_append.mp hnumbered.receipts).2.2 previous hprevious row rfl
      have hone : acceptRow manifest batch (RowCursor.after yielded) (some row) =
          .ok (RowCursor.after (yielded ++ [row])) := by
        refine acceptRow_eq_ok.mpr ⟨row, rfl, hverified row List.mem_cons_self, hsequence, hlast,
          hpublished row List.mem_cons_self, ?_⟩
        simp [RowCursor.after]
      rw [List.map_cons, List.foldlM_cons, hone, ok_bind, ih (by simpa using hnumbered)
        (fun other hother => hverified other (List.mem_cons_of_mem _ hother))
        (fun other hother => hpublished other (List.mem_cons_of_mem _ hother))]
      simp

/-- The stored batches of numbered rows are accepted one after the other. -/
theorem acceptBatches [LawfulCaptureFormat B D] {manifest : StreamManifest D}
    {sessionId : String} {tradeDate : Day} {read : StreamBatchFields D → Except Raised B}
    {chunks : List (Chunk D)} (yielded : List (CapturedRow D))
    (hnumbered : Numbered (yielded ++ chunks.flatMap (Chunk.rows B)))
    (hverified : ∀ row ∈ chunks.flatMap (Chunk.rows B), Verified manifest row)
    (hpublished : ∀ chunk ∈ chunks, ∀ row ∈ chunk.rows B, row.receivedAt ≤ chunk.publishedAt)
    (hread : ∀ chunk ∈ chunks, read (chunk.published B sessionId tradeDate).1 =
      .ok (CaptureFormat.compress (chunk.rows B))) :
    (chunks.map fun chunk => ((chunk.published B sessionId tradeDate).1,
        read (chunk.published B sessionId tradeDate).1)).foldlM (acceptBatch manifest)
      (RowCursor.after yielded) =
      .ok (RowCursor.after (yielded ++ chunks.flatMap (Chunk.rows B))) := by
  induction chunks generalizing yielded with
  | nil => simp [pure, Except.pure]
  | cons chunk chunks ih =>
      have hflat : yielded ++ (chunk :: chunks).flatMap (Chunk.rows B) =
          (yielded ++ chunk.rows B) ++ chunks.flatMap (Chunk.rows B) := by
        rw [List.flatMap_cons, List.append_assoc]
      rw [hflat] at hnumbered ⊢
      have hcount : ((chunk.rows B).map some).length =
          (chunk.published B sessionId tradeDate).1.messageCount := by
        simp [Chunk.rows, Chunk.envelopes, Chunk.published, CaptureState.publishBatch]
      have hprefix : Numbered (yielded ++ chunk.rows B) := hnumbered.of_append
      have hone : acceptBatch manifest (RowCursor.after yielded)
          ((chunk.published B sessionId tradeDate).1,
            read (chunk.published B sessionId tradeDate).1) =
          .ok (RowCursor.after (yielded ++ chunk.rows B)) := by
        simp only [acceptBatch, hread chunk List.mem_cons_self, ok_bind,
          LawfulCaptureFormat.lines_compress, require_of hcount]
        exact acceptRows hprefix (fun row hrow => hverified row (by simp [hrow]))
          (hpublished chunk List.mem_cons_self)
      rw [List.map_cons, List.foldlM_cons, hone, ok_bind]
      exact ih (yielded ++ chunk.rows B) hnumbered (fun row hrow => hverified row (by
          rw [List.flatMap_cons]
          exact List.mem_append_right _ hrow))
        (fun other hother => hpublished other (List.mem_cons_of_mem _ hother))
        (fun other hother => hread other (List.mem_cons_of_mem _ hother))

/-- A session whose manifest is accepted. -/
theorem init_of {store : StreamKey D → Except Raised (Option B)} {manifestKey : StreamKey D}
    {prefetch : Nat} {tradeDate : Day} {session sessionId : String} {body : B}
    {manifest : StreamManifest D} (hpositive : 1 ≤ prefetch)
    (hkey : manifestLocation manifestKey = .ok (tradeDate, session, sessionId))
    (hstored : store manifestKey = .ok (some body)) (hread : readManifest body = .ok manifest)
    (hlineage : IsLineage tradeDate sessionId (CaptureFormat.sdkVersion B) manifest)
    (hbatches : validateBatches tradeDate session manifest = .ok ()) :
    ∃ reader, init store manifestKey prefetch = .ok reader ∧ reader.store = store ∧
      reader.manifest = manifest := by
  simp only [init, ensure_of hpositive, kept_of hkey, hstored, kept_of hread, ensure_of hlineage,
    kept_of hbatches, ok_bind]
  exact ⟨_, rfl, rfl, rfl⟩

end StreamSessionReader

/-! ## The session -/

omit [CaptureFormat B D] in
theorem StreamManifest.modelValidate_fields {fields : StreamManifestFields D}
    {manifest : StreamManifest D} (h : StreamManifest.modelValidate fields = .ok manifest) :
    manifest.toStreamManifestFields = fields := by
  simp only [StreamManifest.modelValidate, bind_eq_ok, validated_eq_ok] at h
  obtain ⟨_, -, _, rfl⟩ := h
  rfl

/-- The messages of a chunk have the numbers of its batch. -/
theorem sequences_of_chunk {chunks : List (Chunk D)} (sessionId : String) (tradeDate : Day)
    (hnumbered : (chunks.flatMap Chunk.envelopes).map (·.receiveSequence) =
      List.range' 1 (chunks.flatMap Chunk.envelopes).length) {chunk : Chunk D}
    (hchunk : chunk ∈ chunks) {envelope : StreamEnvelope D} (hmem : envelope ∈ chunk.envelopes) :
    (chunk.published B sessionId tradeDate).1.firstReceiveSequence ≤ envelope.receiveSequence ∧
      envelope.receiveSequence ≤ (chunk.published B sessionId tradeDate).1.lastReceiveSequence := by
  obtain ⟨earlier, later, rfl⟩ := List.append_of_mem hchunk
  have hascending : (chunk.envelopes.map (·.receiveSequence)).Pairwise (· < ·) := by
    have hall := List.pairwise_lt_range' (s := 1)
      (n := ((earlier ++ chunk :: later).flatMap Chunk.envelopes).length)
    rw [← hnumbered] at hall
    refine hall.sublist (List.Sublist.map _ ?_)
    rw [List.flatMap_append, List.flatMap_cons]
    exact (List.sublist_append_left _ _).trans (List.sublist_append_right _ _)
  refine ⟨?_, ?_⟩
  · rcases List.mem_cons.mp hmem with rfl | hrest
    · exact le_refl _
    · exact ((List.pairwise_cons.mp hascending).1 _ (List.mem_map_of_mem hrest)).le
  · have hends : chunk.envelopes = chunk.envelopes.dropLast ++
        [chunk.envelopes.getLast (by simp [Chunk.envelopes])] :=
      (List.dropLast_concat_getLast _).symm
    rw [hends, List.map_append, List.pairwise_append] at hascending
    rw [hends] at hmem
    rcases List.mem_append.mp hmem with hbefore | hlast
    · exact (hascending.2.2 _ (List.mem_map_of_mem hbefore) _ (by
        rw [List.map_singleton]
        exact List.mem_singleton_self _)).le
    · rw [List.mem_singleton.mp hlast]
      exact le_refl _

open StreamSessionReader Connection CaptureState in
/-- **What has been captured can be read.**  Where the clocks of a session agree and its messages
are in scope, a reader over a store that has kept its objects accepts the session and yields
exactly the envelopes that the observer has taken in, whatever its window. -/
theorem captured_session_read_back [LawfulCaptureFormat B D] {options : StreamCaptureOptions D}
    {connection : Connection} {captured : CapturedSession B D}
    {store : StreamKey D → Except Raised (Option B)} {prefetch : Nat}
    (h : captureStream options connection = some captured)
    (hpublished : ∀ index, ∃ publishedAt,
      connection.closing.flushing.publishing index = .stored publishedAt)
    (hname : uuidText connection.sessionId = some connection.sessionId)
    (htimed : captured.Timed)
    (hscope : ∀ envelope ∈ captured.taken, inScope captured.manifest envelope = true)
    (hstored : ∀ object ∈ captured.objects, store object.1 = .ok (some object.2))
    (hpositive : 1 ≤ prefetch) :
    ∃ reader, StreamSessionReader.init store captured.manifestKey prefetch = .ok reader ∧
      reader.manifest.toStreamManifestFields = captured.manifest ∧
      reader.envelopes = .ok (captured.taken.map (rowOf (B := B))) := by
  have hsession : connection.sessionId ≠ "" := by
    intro hempty
    rw [hempty] at hname
    simp [uuidText] at hname
  obtain ⟨manifest, hvalid⟩ := captured_manifest_valid h hpublished hsession htimed
  obtain ⟨_, closed, chunks, -, -, hkey, hmanifest, hobjects, htaken, hall, hclosed⟩ :=
    captureStream_closed h hpublished
  have hfields := StreamManifest.modelValidate_fields hvalid
  have hbatches : manifest.batches = chunks.map fun chunk =>
      (chunk.published B connection.sessionId connection.tradeDate).1 := by
    rw [hfields, hmanifest]
    exact hclosed.batches
  have hnumbered := hclosed.numbered
  have hgenuine := hclosed.genuine
  rw [hall] at hnumbered hgenuine
  have htimes : captured.taken = chunks.flatMap Chunk.envelopes := htaken
  have hlineage : IsLineage connection.tradeDate connection.sessionId (CaptureFormat.sdkVersion B)
      manifest := by
    unfold IsLineage
    rw [hfields, hmanifest]
    exact ⟨rfl, rfl, rfl, rfl⟩
  have hbatch : ∀ chunk ∈ chunks,
      (chunk.published B connection.sessionId connection.tradeDate).1 ∈
        captured.manifest.batches := by
    intro chunk hchunk
    rw [← hfields, hbatches]
    exact List.mem_map_of_mem hchunk
  have hcount : (chunks.flatMap Chunk.envelopes).length = manifest.messageCount := by
    rw [hfields, hmanifest]
    simp only [manifestOf, hclosed.batches, sum_messageCount]
  have hconnected : captured.manifest.connectedAt = manifest.connectedAt := by rw [hfields]
  have hfollow : validateBatches connection.tradeDate connection.sessionId manifest = .ok () := by
    have hordered : (manifest.connectedAt :: chunks.map (·.publishedAt)).IsChain (· ≤ ·) := by
      have hchain := htimed.ordered
      rw [← hfields, hbatches, List.map_map] at hchain
      refine List.isChain_cons.mpr ⟨?_, hchain⟩
      intro publishedAt hmem
      obtain ⟨chunk, hchunk, rfl⟩ := List.mem_map.mp (List.mem_of_mem_head? hmem)
      exact hconnected ▸ (htimed.published _ (hbatch chunk hchunk)).1
    obtain ⟨last, hrun⟩ := followBatches (B := B) connection.tradeDate [] hlineage.1 hnumbered
      hordered fun chunk hchunk => by
        rw [hfields]
        exact htimed.published _ (hbatch chunk hchunk)
    rw [validateBatches, hbatches]
    simp only [List.length_nil, List.nil_append, zero_add] at hrun
    rw [hrun, ok_bind, require_of hcount]
  have hbody : readManifest (CaptureFormat.manifestJson captured.manifest : B) = .ok manifest := by
    rw [readManifest, LawfulCaptureFormat.manifestFields_manifestJson]
    simp only [hvalid]
    rfl
  obtain ⟨reader, hinit, hstore, hread⟩ := init_of hpositive
    (manifestLocation_eq_ok.mpr ⟨hkey, hname⟩)
    (hstored (captured.manifestKey, CaptureFormat.manifestJson captured.manifest) (by
      rw [hobjects]
      exact List.mem_append_right _ (List.mem_singleton_self _))) hbody hlineage hfollow
  refine ⟨reader, hinit, hread ▸ hfields, ?_⟩
  have hrows : chunks.flatMap (Chunk.rows B) = captured.taken.map (rowOf (B := B)) := by
    rw [htimes, List.map_flatMap]
    rfl
  have hreads : ∀ chunk ∈ chunks,
      reader.readBatch (chunk.published B connection.sessionId connection.tradeDate).1 =
        .ok (CaptureFormat.compress (chunk.rows B)) := by
    intro chunk hchunk
    refine readBatch_eq_ok.mpr ⟨?_, rfl⟩
    rw [hstore]
    refine hstored (chunk.published B connection.sessionId connection.tradeDate).2 ?_
    rw [hobjects, hclosed.objects]
    exact List.mem_append_left _ (List.mem_map_of_mem hchunk)
  have hnumberedRows : Numbered ([] ++ chunks.flatMap (Chunk.rows B)) := by
    rw [List.nil_append, hrows, htimes]
    refine ⟨?_, ?_⟩
    · rw [List.map_map, List.length_map]
      exact hnumbered
    · rw [List.isChain_map, ← htimes]
      exact htimed.received
  have hverified : ∀ row ∈ chunks.flatMap (Chunk.rows B), Verified manifest row := by
    intro row hrow
    rw [hrows] at hrow
    obtain ⟨envelope, henvelope, rfl⟩ := List.mem_map.mp hrow
    obtain ⟨hsession, hsha⟩ := hgenuine envelope (htimes ▸ henvelope)
    obtain ⟨hafter, hbefore⟩ := htimed.connected envelope henvelope
    refine ⟨hsession.trans hlineage.1.symm, hlineage.2.2.1.symm, hlineage.2.2.2.symm, ?_, ?_, ?_,
      hsha.symm⟩
    · rw [hfields]
      exact hscope envelope henvelope
    · rw [hfields]
      exact hafter
    · rw [hfields]
      exact hbefore
  have hafter : ∀ chunk ∈ chunks, ∀ row ∈ chunk.rows B, row.receivedAt ≤ chunk.publishedAt := by
    intro chunk hchunk row hrow
    obtain ⟨envelope, henvelope, rfl⟩ := List.mem_map.mp hrow
    have hin := sequences_of_chunk (B := B) connection.sessionId connection.tradeDate hnumbered
      hchunk henvelope
    exact htimed.after _ (hbatch chunk hchunk) envelope
      (htimes ▸ List.mem_flatMap.mpr ⟨chunk, hchunk, henvelope⟩) hin.1 hin.2
  have haccepted := acceptBatches [] hnumberedRows hverified hafter hreads
  rw [List.nil_append, hrows] at haccepted
  have hcounted : (RowCursor.after (captured.taken.map (rowOf (B := B)))).expectedSequence - 1 =
      manifest.messageCount := by
    simp [RowCursor.after, htimes, hcount]
  have hlast : (RowCursor.after (captured.taken.map (rowOf (B := B)))).lastReceivedAt =
      manifest.lastBusinessMessageAt := by
    have hclosedLast := hclosed.last
    rw [hall] at hclosedLast
    rw [hfields, hmanifest]
    refine Eq.trans ?_ hclosedLast.symm
    simp only [RowCursor.after, htimes, List.getLast?_map, Option.map_map]
    rfl
  rw [envelopes, batchBodies_eq, hread, hbatches, List.map_map]
  refine bind_eq_ok.mpr ⟨_, haccepted, ?_⟩
  rw [require_of hcounted, ok_bind, require_of hlast]
  rfl

namespace Rehearsal

/-- Bodies are what they spell. -/
inductive CapturedBody where
  | rows (rows : List (CapturedRow Spelled))
  | manifest (fields : StreamManifestFields Spelled)

instance bodyFormat : CaptureFormat CapturedBody Spelled where
  digest
    | .rows rows => sha256 (.list (fun row => .nat row.receiveSequence) rows)
    | .manifest fields => sha256 (.str fields.streamSessionId)
  compress := .rows
  lines
    | .rows rows => some (rows.map some)
    | .manifest _ => none
  manifestJson := .manifest
  manifestFields
    | .rows _ => none
    | .manifest fields => some fields
  sdkVersion := "2.0"

instance : LawfulCaptureFormat CapturedBody Spelled := ⟨fun _ => rfl, fun _ => rfl⟩

def bodyResult : Option (CapturedSession CapturedBody Spelled) :=
  captureStream captureOptions captureConnection

private def readBackRehearsal : Bool :=
  bodyResult.any fun captured =>
    decide (captured.taken.length = 4) && decide (captured.objects.map (·.1)).Nodup &&
      captured.taken.all (StreamSessionReader.inScope captured.manifest) &&
      decide captured.Timed

private theorem readBackRehearsal_holds : readBackRehearsal = true := by decide +kernel

end Rehearsal

open Rehearsal in
/-- The rehearsed connection, read from a bucket of its objects. -/
theorem captured_session_read_back_rehearsal :
    ∃ captured, ∃ reader : StreamSessionReader CapturedBody Spelled,
      bodyResult = some captured ∧ captured.taken.length = 4 ∧
      reader.envelopes = .ok (captured.taken.map (rowOf (B := CapturedBody))) := by
  have hrehearsal := readBackRehearsal_holds
  simp only [readBackRehearsal, Option.any_eq_true, Bool.and_eq_true, decide_eq_true_eq,
    List.all_eq_true] at hrehearsal
  obtain ⟨captured, hcaptured, ⟨⟨hlength, hkeys⟩, hscope⟩, htimed⟩ := hrehearsal
  have hname : uuidText captureConnection.sessionId = some captureConnection.sessionId := by
    decide +kernel
  obtain ⟨store, hstored⟩ : ∃ store : StreamKey Spelled → Except Raised (Option CapturedBody),
      ∀ object ∈ captured.objects, store object.1 = .ok (some object.2) :=
    ⟨fun key => .ok (Bucket.find ⟨captured.objects, hkeys⟩ key),
      fun _ hobject => congrArg Except.ok (Bucket.find_of_mem hobject)⟩
  obtain ⟨reader, -, -, hread⟩ := captured_session_read_back hcaptured (fun _ => ⟨_, rfl⟩) hname
    htimed hscope hstored (Nat.le_refl 1)
  exact ⟨captured, reader, hcaptured, hlength, hread⟩

end MiniLakehouse
