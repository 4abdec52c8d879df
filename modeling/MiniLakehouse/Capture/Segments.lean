import MiniLakehouse.Capture.Reader
import MiniLakehouse.Library.Checked

/-!
# Captured segments

What can be relied on once a capture has been read.  The rows of a session are numbered from
one on without a gap (`session_rows_sound`); those of a day have distinct positions, come in the
order of their receipt, and the outages of the transport are apart (`captured_day_sound`).  The
digest of a day's evidence is the digest of its rows: wherever they are read from, they are the
same (`evidence_pins_rows`).
-/

namespace MiniLakehouse

variable {B D : Type} [Hashing D] [CaptureFormat B D]

namespace StreamSessionReader

variable {reader : StreamSessionReader B D} {manifest : StreamManifest D}

/-! ## Prefetching -/

omit [Hashing D] [CaptureFormat B D] in
theorem drainReads_eq {read : StreamBatchFields D → Except Raised B}
    {pending : List (StreamBatchFields D × Except Raised B)}
    {batches : List (StreamBatchFields D)} (h : pending ≠ [] ∨ batches = []) :
    drainReads read pending batches = pending ++ batches.map fun batch => (batch, read batch) := by
  induction batches generalizing pending with
  | nil => cases pending <;> simp [drainReads]
  | cons following batches ih =>
      cases pending with
      | nil => simp at h
      | cons oldest pending =>
          rw [drainReads, ih (.inl (by simp))]
          simp

/-- Prefetching yields the batches in the order of the manifest. -/
theorem batchBodies_eq : reader.batchBodies =
    reader.manifest.batches.map fun batch => (batch, reader.readBatch batch) := by
  have hwindow : (reader.manifest.batches.take reader.prefetch).map
      (fun batch => (batch, reader.readBatch batch)) ≠ [] ∨
      reader.manifest.batches.drop reader.prefetch = [] := by
    by_cases hempty : reader.manifest.batches = []
    · exact .inr (by simp [hempty])
    · have hpositive := reader.prefetch_positive
      exact .inl (by simp [hempty]; omega)
  rw [batchBodies, drainReads_eq hwindow, ← List.map_append, List.take_append_drop]

theorem readBatch_eq_ok {batch : StreamBatchFields D} {body : B} :
    reader.readBatch batch = .ok body ↔
      reader.store batch.objectKey = .ok (some body) ∧
        CaptureFormat.digest body = batch.objectSha256 := by
  simp only [readBatch, bind_eq_ok]
  constructor
  · rintro ⟨found, hfound, h⟩
    cases found with
    | none => simp at h
    | some stored =>
        simp only [bind_eq_ok, require_eq_ok, pure_eq_ok] at h
        obtain ⟨_, hdigest, rfl⟩ := h
        exact ⟨hfound, hdigest⟩
  · rintro ⟨hfound, hdigest⟩
    exact ⟨some body, hfound, bind_eq_ok.mpr ⟨(), require_of hdigest, rfl⟩⟩

/-! ## Rows -/

/-- What a session vouches for in each of its rows. -/
structure Verified (manifest : StreamManifest D) (row : CapturedRow D) : Prop where
  session : row.streamSessionId = manifest.streamSessionId
  apiVersion : row.apiVersion = manifest.apiVersion
  sdkVersion : row.sdkVersion = manifest.sdkVersion
  scope : inScope manifest.toStreamManifestFields row.toStreamEnvelope = true
  connected : manifest.connectedAt ≤ row.receivedAt
  disconnected : row.receivedAt ≤ manifest.disconnectedAt
  digest : sha256 (.str row.messageJson) = row.messageSha256

/-- Rows numbered from one on, in the order of their receipt. -/
structure Numbered (rows : List (CapturedRow D)) : Prop where
  sequences : rows.map (·.receiveSequence) = List.range' 1 rows.length
  receipts : rows.IsChain fun previous current => previous.receivedAt ≤ current.receivedAt

/-- What has been yielded is what the cursor has counted. -/
structure RowCursor.Sound (manifest : StreamManifest D) (cursor : RowCursor D) : Prop where
  numbered : Numbered cursor.yielded
  expected : cursor.expectedSequence = cursor.yielded.length + 1
  last : cursor.lastReceivedAt = cursor.yielded.getLast?.map (·.receivedAt)
  verified : ∀ row ∈ cursor.yielded, Verified manifest row

omit [CaptureFormat B D] in
/-- What a row is accepted for, and what it does to the cursor. -/
theorem acceptRow_eq_ok {batch : StreamBatchFields D} {cursor cursor' : RowCursor D}
    {line : Option (CapturedRow D)} :
    acceptRow manifest batch cursor line = .ok cursor' ↔
      ∃ row, line = some row ∧ Verified manifest row ∧
        row.receiveSequence = cursor.expectedSequence ∧
        (∀ last ∈ cursor.lastReceivedAt, last ≤ row.receivedAt) ∧
        row.receivedAt ≤ batch.publishedAt ∧
        cursor' = ⟨cursor.expectedSequence + 1, some row.receivedAt, cursor.yielded ++ [row]⟩ := by
  unfold acceptRow
  cases line with
  | none => simp
  | some row =>
      simp only [bind_eq_ok, require_eq_ok, pure_eq_ok, Option.some.injEq]
      constructor
      · rintro ⟨_, ⟨hsession, hsequence, hapi, hsdk, hscope, hconnected, hdisconnected, hlast,
          hpublished, hdigest⟩, hcursor⟩
        exact ⟨row, rfl, ⟨hsession, hapi, hsdk, hscope, hconnected, hdisconnected, hdigest⟩,
          hsequence, hlast, hpublished, hcursor.symm⟩
      · rintro ⟨found, hsame, hverified, hsequence, hlast, hpublished, hcursor⟩
        subst hsame
        exact ⟨(), ⟨hverified.session, hsequence, hverified.apiVersion, hverified.sdkVersion,
          hverified.scope, hverified.connected, hverified.disconnected, hlast, hpublished,
          hverified.digest⟩, hcursor.symm⟩

omit [CaptureFormat B D] in
theorem RowCursor.Sound.acceptRow {batch : StreamBatchFields D} {cursor cursor' : RowCursor D}
    {line : Option (CapturedRow D)} (h : cursor.Sound manifest)
    (haccept : StreamSessionReader.acceptRow manifest batch cursor line = .ok cursor') :
    cursor'.Sound manifest := by
  obtain ⟨row, -, hverified, hsequence, hlast, -, rfl⟩ := acceptRow_eq_ok.mp haccept
  refine ⟨⟨?_, ?_⟩, by simp [h.expected], by simp, ?_⟩
  · rw [List.map_append, h.numbered.sequences, List.map_singleton, hsequence, h.expected,
      List.length_append, List.length_singleton, List.range'_concat]
    simp [Nat.add_comm]
  · refine List.isChain_append.mpr ⟨h.numbered.receipts, List.isChain_singleton row, ?_⟩
    intro previous hprevious current hcurrent
    obtain rfl : row = current := by simpa using hcurrent
    apply hlast
    rw [h.last, Option.mem_def.mp hprevious]
    rfl
  · intro found hfound
    rcases List.mem_append.mp hfound with hfound | hfound
    · exact h.verified found hfound
    · obtain rfl := List.mem_singleton.mp hfound
      exact hverified

theorem RowCursor.Sound.acceptBatch {read : StreamBatchFields D × Except Raised B}
    {cursor cursor' : RowCursor D} (h : cursor.Sound manifest)
    (haccept : StreamSessionReader.acceptBatch manifest cursor read = .ok cursor') :
    cursor'.Sound manifest := by
  simp only [StreamSessionReader.acceptBatch, bind_eq_ok] at haccept
  obtain ⟨body, -, haccept⟩ := haccept
  cases hlines : CaptureFormat.lines body with
  | none => simp [hlines] at haccept
  | some lines =>
      simp only [hlines, bind_eq_ok] at haccept
      obtain ⟨_, -, haccept⟩ := haccept
      exact foldlM_prefix_invariant (I := fun _ cursor => cursor.Sound manifest) h
        (fun _ _ _ _ hsound hrow => hsound.acceptRow hrow) haccept

omit [CaptureFormat B D] in
theorem RowCursor.sound_start : RowCursor.Sound manifest ⟨1, none, []⟩ := by
  refine ⟨⟨rfl, List.isChain_nil⟩, rfl, rfl, ?_⟩
  intro row hrow
  cases hrow

/-- **The rows of a session** are numbered from one to the number of its messages, each is one
that its manifest vouches for, and the last one is the last business message. -/
theorem session_rows_sound {rows : List (CapturedRow D)} (h : reader.envelopes = .ok rows) :
    rows.length = reader.manifest.messageCount ∧ Numbered rows ∧
      (∀ row ∈ rows, Verified reader.manifest row) ∧
      rows.getLast?.map (·.receivedAt) = reader.manifest.lastBusinessMessageAt := by
  simp only [envelopes, bind_eq_ok, require_eq_ok, pure_eq_ok] at h
  obtain ⟨cursor, hcursor, _, hcount, _, hlast, rfl⟩ := h
  have hsound := foldlM_prefix_invariant (I := fun _ cursor => cursor.Sound reader.manifest)
    RowCursor.sound_start (fun _ _ _ _ hsound hbatch => hsound.acceptBatch hbatch) hcursor
  rw [hsound.expected, Nat.add_sub_cancel] at hcount
  exact ⟨hcount, hsound.numbered, hsound.verified, hsound.last.symm.trans hlast⟩

end StreamSessionReader

/-! ## Outages -/

namespace StreamManifest

omit [CaptureFormat B D] in
theorem terminal_ordered (manifest : StreamManifest D) :
    manifest.connectedAt ≤ manifest.disconnectedAt ∧
      manifest.disconnectedAt ≤ manifest.publishedAt := by
  have hvalid := manifest.valid
  simp only [StreamManifestFields.checks, allHold_cons, Bool.and_eq_true, decide_eq_true_eq]
    at hvalid
  exact hvalid.2.2.2.2.2.1

omit [CaptureFormat B D] in
theorem heartbeat_connected (manifest : StreamManifest D) :
    ∀ heartbeat ∈ manifest.lastHeartbeatAt,
      manifest.connectedAt ≤ heartbeat ∧ heartbeat ≤ manifest.disconnectedAt := by
  have hvalid := manifest.valid
  simp only [StreamManifestFields.checks, allHold_cons] at hvalid
  have hheartbeat := hvalid.2.2.2.2.2.2.2.1
  intro heartbeat hmem
  rw [Option.mem_def.mp hmem] at hheartbeat
  simpa [StreamManifestFields.whileConnected] using hheartbeat

end StreamManifest

namespace StreamSessionReader

theorem coveredUntil_connected (reader : StreamSessionReader B D) :
    reader.manifest.connectedAt ≤ reader.coveredUntil ∧
      reader.coveredUntil ≤ reader.manifest.disconnectedAt := by
  have hordered := reader.manifest.terminal_ordered.1
  unfold coveredUntil
  by_cases hstale : reader.manifest.disconnectKind = .stale
  · rw [if_pos hstale]
    cases hheartbeat : reader.manifest.lastHeartbeatAt with
    | none => exact ⟨le_refl _, hordered⟩
    | some heartbeat => exact reader.manifest.heartbeat_connected heartbeat hheartbeat
  · rw [if_neg hstale]
    exact ⟨hordered, le_refl _⟩

end StreamSessionReader

namespace StreamDayReader

/-- The gaps of segments that follow one another. -/
def gapsOf (readers : List (StreamSessionReader B D)) : List StreamGap :=
  (readers.zip readers.tail).filterMap fun pair => gapBetween pair.1 pair.2

theorem gapBetween_eq_some {previous current : StreamSessionReader B D} {gap : StreamGap} :
    gapBetween previous current = some gap ↔
      gap.startedAt = previous.coveredUntil ∧ gap.endedAt = current.manifest.connectedAt := by
  unfold gapBetween
  by_cases hapart : previous.coveredUntil < current.manifest.connectedAt
  · rw [dif_pos hapart]
    constructor
    · intro hgap
      obtain rfl := Option.some.inj hgap
      exact ⟨rfl, rfl⟩
    · rintro ⟨hstarted, hended⟩
      cases gap
      simp_all
  · rw [dif_neg hapart]
    constructor
    · intro hgap
      cases hgap
    · rintro ⟨hstarted, hended⟩
      exact absurd (hstarted ▸ hended ▸ gap.positive) hapart

/-- The gaps after a segment start once it has been covered, and one ends before another starts. -/
theorem gapsOf_apart {first : StreamSessionReader B D} {rest : List (StreamSessionReader B D)}
    (h : (first :: rest).IsChain fun previous current =>
      previous.manifest.disconnectedAt ≤ current.manifest.connectedAt) :
    (∀ gap ∈ gapsOf (first :: rest), first.coveredUntil ≤ gap.startedAt) ∧
      (gapsOf (first :: rest)).Pairwise fun earlier later => earlier.endedAt ≤ later.startedAt := by
  induction rest generalizing first with
  | nil => simp [gapsOf]
  | cons next rest ih =>
      obtain ⟨hapart, hchain⟩ := List.isChain_cons_cons.mp h
      obtain ⟨hlater, hpairwise⟩ := ih hchain
      have hcovered : first.coveredUntil ≤ next.manifest.connectedAt :=
        first.coveredUntil_connected.2.trans hapart
      have hnext : ∀ gap ∈ gapsOf (next :: rest), next.manifest.connectedAt ≤ gap.startedAt :=
        fun gap hgap => next.coveredUntil_connected.1.trans (hlater gap hgap)
      have hgaps : gapsOf (first :: next :: rest) =
          (gapBetween first next).toList ++ gapsOf (next :: rest) := by
        simp only [gapsOf, List.tail_cons, List.zip_cons_cons, List.filterMap_cons]
        cases gapBetween first next <;> rfl
      rw [hgaps]
      constructor
      · intro gap hgap
        rcases List.mem_append.mp hgap with hgap | hgap
        · have hbetween := gapBetween_eq_some.mp (Option.mem_toList.mp hgap)
          exact hbetween.1.ge
        · exact hcovered.trans (hnext gap hgap)
      · refine List.pairwise_append.mpr ⟨?_, hpairwise, ?_⟩
        · cases gapBetween first next <;> simp
        · intro earlier hearlier later hmem
          have hbetween := gapBetween_eq_some.mp (Option.mem_toList.mp hearlier)
          exact hbetween.2.le.trans (hnext later hmem)

variable {day : StreamDayReader B D}

theorem gaps_apart :
    day.gaps.Pairwise fun earlier later => earlier.endedAt ≤ later.startedAt :=
  (gapsOf_apart day.apart).2

/-! ## The rows of a day -/

/-- The rows of a day are those of its sessions, one after another. -/
theorem envelopes_eq_ok {rows : List (CapturedRow D)} (h : day.envelopes = .ok rows) :
    ∃ rowss, List.Forall₂ (fun reader found => reader.envelopes = .ok found) day.sessions rowss ∧
      rows = rowss.flatten ∧
      rows.IsChain fun previous current => previous.receivedAt ≤ current.receivedAt := by
  refine foldlM_prefix_invariant (I := fun done yielded => ∃ rowss,
    List.Forall₂ (fun reader found => StreamSessionReader.envelopes reader = .ok found) done rowss ∧
      yielded = rowss.flatten ∧
      yielded.IsChain fun previous current => previous.receivedAt ≤ current.receivedAt)
    ⟨[], .nil, rfl, List.isChain_nil⟩ ?_ h
  intro done reader yielded yielded' hyielded hstep
  obtain ⟨rowss, hrowss, hflatten, hchain⟩ := hyielded
  simp only [bind_eq_ok] at hstep
  obtain ⟨found, hfound, hstep⟩ := hstep
  have haccepted := foldlM_prefix_invariant (I := fun rows accepted =>
    accepted = yielded ++ rows ∧
      accepted.IsChain fun previous current => previous.receivedAt ≤ current.receivedAt)
    ⟨(List.append_nil yielded).symm, hchain⟩ ?_ hstep
  · obtain ⟨hsame, hordered⟩ := haccepted
    refine ⟨rowss ++ [found], List.rel_append hrowss (.cons hfound .nil), ?_, hordered⟩
    rw [hsame, hflatten, List.flatten_append, List.flatten_singleton]
  · intro rows row accepted accepted' haccepted hrow
    obtain ⟨hsame, hordered⟩ := haccepted
    simp only [acceptEnvelope, bind_eq_ok, require_eq_ok, pure_eq_ok] at hrow
    obtain ⟨_, hlast, rfl⟩ := hrow
    refine ⟨by rw [hsame, List.append_assoc], ?_⟩
    refine List.isChain_append.mpr ⟨hordered, List.isChain_singleton row, ?_⟩
    intro previous hprevious current hcurrent
    obtain rfl : row = current := by simpa using hcurrent
    exact hlast previous hprevious

/-- The rows of one of several sessions with distinct identifiers. -/
theorem filter_session {readers : List (StreamSessionReader B D)}
    {rowss : List (List (CapturedRow D))}
    (hrowss : List.Forall₂ (fun reader found => reader.envelopes = .ok found) readers rowss)
    (hunique : (readers.map (·.manifest.streamSessionId)).Nodup)
    {reader : StreamSessionReader B D} (hreader : reader ∈ readers) :
    ∃ found, reader.envelopes = .ok found ∧
      rowss.flatten.filter (fun row => row.streamSessionId == reader.manifest.streamSessionId) =
        found := by
  induction hrowss with
  | nil => cases hreader
  | @cons first found readers rowss hfirst hrest ih =>
      rw [List.map_cons, List.nodup_cons] at hunique
      obtain ⟨hfresh, hunique⟩ := hunique
      have hown : ∀ row ∈ found, row.streamSessionId = first.manifest.streamSessionId :=
        fun row hrow => ((StreamSessionReader.session_rows_sound hfirst).2.2.1 row hrow).session
      rw [List.flatten_cons, List.filter_append]
      by_cases hsame : reader.manifest.streamSessionId = first.manifest.streamSessionId
      · obtain rfl : reader = first := by
          rcases List.mem_cons.mp hreader with rfl | hmem
          · rfl
          · rw [← hsame] at hfresh
            exact absurd (List.mem_map_of_mem hmem) hfresh
        refine ⟨found, hfirst, ?_⟩
        have hothers : rowss.flatten.filter
            (fun row => row.streamSessionId == reader.manifest.streamSessionId) = [] := by
          rw [List.filter_eq_nil_iff]
          intro row hrow
          obtain ⟨rows, hrows, hrow⟩ := List.mem_flatten.mp hrow
          obtain ⟨other, hother, hread⟩ := exists_of_mem_forall₂ hrest hrows
          have hsession := ((StreamSessionReader.session_rows_sound hread).2.2.1 row hrow).session
          intro heq
          apply hfresh
          rw [← beq_iff_eq.mp heq, hsession]
          exact List.mem_map_of_mem hother
        rw [hothers, List.append_nil, List.filter_eq_self]
        intro row hrow
        simp [hown row hrow]
      · have hmem : reader ∈ readers := by
          rcases List.mem_cons.mp hreader with rfl | hmem
          · exact absurd rfl hsame
          · exact hmem
        obtain ⟨rows, hrows, hfilter⟩ := ih hunique hmem
        refine ⟨rows, hrows, ?_⟩
        have hnone : found.filter
            (fun row => row.streamSessionId == reader.manifest.streamSessionId) = [] := by
          rw [List.filter_eq_nil_iff]
          intro row hrow heq
          exact hsame ((beq_iff_eq.mp heq).symm.trans (hown row hrow))
        rw [hnone, List.nil_append, hfilter]

/-- A row of a day is one of a session that vouches for it. -/
theorem exists_session {readers : List (StreamSessionReader B D)}
    {rowss : List (List (CapturedRow D))}
    (hrowss : List.Forall₂ (fun reader found => reader.envelopes = .ok found) readers rowss)
    {row : CapturedRow D} (hrow : row ∈ rowss.flatten) :
    ∃ reader ∈ readers, StreamSessionReader.Verified reader.manifest row := by
  obtain ⟨rows, hrows, hrow⟩ := List.mem_flatten.mp hrow
  obtain ⟨reader, hreader, hread⟩ := exists_of_mem_forall₂ hrowss hrows
  exact ⟨reader, hreader, (StreamSessionReader.session_rows_sound hread).2.2.1 row hrow⟩

/-- A row between two segments that follow one another is one of the first, received after the
last heartbeat of a stale transport. -/
theorem received_in_gap {first : StreamSessionReader B D} {rest : List (StreamSessionReader B D)}
    (h : (first :: rest).IsChain fun previous current =>
      previous.manifest.disconnectedAt ≤ current.manifest.connectedAt)
    {gap : StreamGap} (hgap : gap ∈ gapsOf (first :: rest)) {reader : StreamSessionReader B D}
    (hreader : reader ∈ first :: rest) {receivedAt : Instant}
    (hconnected : reader.manifest.connectedAt ≤ receivedAt)
    (hdisconnected : receivedAt ≤ reader.manifest.disconnectedAt)
    (hstarted : gap.startedAt < receivedAt) (hended : receivedAt < gap.endedAt) :
    reader.manifest.disconnectKind = .stale ∧ reader.coveredUntil = gap.startedAt := by
  induction rest generalizing first with
  | nil => simp [gapsOf] at hgap
  | cons next rest ih =>
      obtain ⟨hapart, hchain⟩ := List.isChain_cons_cons.mp h
      have hconnections : ∀ later ∈ next :: rest,
          next.manifest.connectedAt ≤ later.manifest.connectedAt := by
        have hpairwise : (next :: rest).Pairwise fun previous current =>
            previous.manifest.connectedAt ≤ current.manifest.connectedAt := by
          refine List.isChain_iff_pairwise.mp (hchain.imp ?_)
          intro previous current hfollows
          exact previous.manifest.terminal_ordered.1.trans hfollows
        intro later hlater
        rcases List.mem_cons.mp hlater with rfl | hlater
        · exact le_refl _
        · exact List.rel_of_pairwise_cons hpairwise hlater
      have hgaps : gapsOf (first :: next :: rest) =
          (gapBetween first next).toList ++ gapsOf (next :: rest) := by
        simp only [gapsOf, List.tail_cons, List.zip_cons_cons, List.filterMap_cons]
        cases gapBetween first next <;> rfl
      rw [hgaps] at hgap
      rcases List.mem_append.mp hgap with hgap | hlaterGap
      · obtain ⟨hstart, hend⟩ := gapBetween_eq_some.mp (Option.mem_toList.mp hgap)
        rcases List.mem_cons.mp hreader with rfl | hlater
        · refine ⟨?_, hstart.symm⟩
          by_contra hclean
          have hcovered : reader.coveredUntil = reader.manifest.disconnectedAt := if_neg hclean
          rw [hstart, hcovered] at hstarted
          exact absurd hstarted (not_lt.mpr hdisconnected)
        · rw [hend] at hended
          exact absurd ((hconnections reader hlater).trans hconnected) (not_le.mpr hended)
      · rcases List.mem_cons.mp hreader with rfl | hlater
        · have hafter := (gapsOf_apart hchain).1 gap hlaterGap
          have hnext := next.coveredUntil_connected.1.trans hafter
          exact absurd (hdisconnected.trans (hapart.trans hnext)) (not_le.mpr hstarted)
        · exact ih hchain hlaterGap hlater

/-- **A captured day** that has been read to its end is complete and in order.  Of each segment
it has the messages one to the last, their positions are distinct, and they come in the order of
their receipt; outages are apart, and what was received in one came over a stale transport after
its last heartbeat. -/
theorem captured_day_sound {rows : List (CapturedRow D)} (h : day.envelopes = .ok rows) :
    rows.length = day.messageCount ∧
      (∀ reader ∈ day.sessions, (rows.filter fun row =>
          row.streamSessionId == reader.manifest.streamSessionId).map (·.receiveSequence) =
        List.range' 1 reader.manifest.messageCount) ∧
      (rows.map fun row => row.toStreamEnvelope.position).Nodup ∧
      (rows.Pairwise fun earlier later => earlier.receivedAt ≤ later.receivedAt) ∧
      (∀ row ∈ rows, ∃ reader ∈ day.sessions,
        StreamSessionReader.Verified reader.manifest row) ∧
      (day.gaps.Pairwise fun earlier later => earlier.endedAt ≤ later.startedAt) ∧
      ∀ gap ∈ day.gaps, ∀ row ∈ rows, gap.startedAt < row.receivedAt →
        row.receivedAt < gap.endedAt → ∃ reader ∈ day.sessions,
          row.streamSessionId = reader.manifest.streamSessionId ∧
            reader.manifest.disconnectKind = .stale ∧ reader.coveredUntil = gap.startedAt := by
  obtain ⟨rowss, hrowss, rfl, hchain⟩ := envelopes_eq_ok h
  have hsessions : ∀ reader ∈ day.sessions, (rowss.flatten.filter fun row =>
      row.streamSessionId == reader.manifest.streamSessionId).map (·.receiveSequence) =
        List.range' 1 reader.manifest.messageCount := by
    intro reader hreader
    obtain ⟨found, hfound, hfilter⟩ := filter_session hrowss day.sessions_unique hreader
    obtain ⟨hlength, hnumbered, -, -⟩ := StreamSessionReader.session_rows_sound hfound
    rw [hfilter, hnumbered.sequences, hlength]
  refine ⟨?_, hsessions, ?_, ?_, fun row hrow => exists_session hrowss hrow, gaps_apart, ?_⟩
  · rw [List.length_flatten, messageCount]
    congr 1
    refine map_eq_of_forall₂ (hrowss.imp ?_)
    intro reader found hfound
    exact (StreamSessionReader.session_rows_sound hfound).1
  · have hpairs : (rowss.flatten.map fun row =>
        (row.streamSessionId, row.receiveSequence)).Nodup := by
      apply nodup_pairs_of_ascending (fun row : CapturedRow D => row.streamSessionId)
      intro session
      by_cases hknown : ∃ reader ∈ day.sessions, reader.manifest.streamSessionId = session
      · obtain ⟨reader, hreader, rfl⟩ := hknown
        rw [hsessions reader hreader]
        exact List.pairwise_lt_range'
      · have hnone : (rowss.flatten.filter fun row => row.streamSessionId == session) = [] := by
          rw [List.filter_eq_nil_iff]
          intro row hrow hsame
          obtain ⟨reader, hreader, hverified⟩ := exists_session hrowss hrow
          exact hknown ⟨reader, hreader, hverified.session.symm.trans (beq_iff_eq.mp hsame)⟩
        rw [hnone]
        exact List.Pairwise.nil
    apply List.Nodup.of_map fun position : EventPosition =>
      (position.streamSessionId, position.receiveSequence)
    rw [List.map_map]
    exact hpairs
  · exact List.isChain_iff_pairwise.mp hchain
  · intro gap hgap row hrow hstarted hended
    obtain ⟨reader, hreader, hverified⟩ := exists_session hrowss hrow
    obtain ⟨hstale, hcovered⟩ := received_in_gap day.apart hgap hreader hverified.connected
      hverified.disconnected hstarted hended
    exact ⟨reader, hreader, hverified.session, hstale, hcovered⟩

end StreamDayReader

/-! ## Evidence -/

variable {left right : StreamSessionReader B D}

/-- The bytes of a manifest pin what is read of its session, whatever store it is read from. -/
theorem StreamSessionReader.rows_of_manifest
    (hdigest : Function.Injective (CaptureFormat.digest : B → D))
    (hsame : left.manifest = right.manifest) {rows rows' : List (CapturedRow D)}
    (hleft : left.envelopes = .ok rows) (hright : right.envelopes = .ok rows') : rows = rows' := by
  simp only [envelopes, batchBodies_eq, bind_eq_ok, require_eq_ok, pure_eq_ok] at hleft hright
  obtain ⟨cursor, hcursor, _, -, _, -, rfl⟩ := hleft
  obtain ⟨cursor', hcursor', _, -, _, -, rfl⟩ := hright
  rw [← hsame] at hcursor'
  have hpairs : List.Forall₂ (fun (first second : StreamBatchFields D × Except Raised B) =>
      first.1 = second.1 ∧ ∀ body body', first.2 = .ok body → second.2 = .ok body' → body = body')
      (left.manifest.batches.map fun batch => (batch, left.readBatch batch))
      (left.manifest.batches.map fun batch => (batch, right.readBatch batch)) := by
    rw [List.forall₂_map_left_iff, List.forall₂_map_right_iff, List.forall₂_same]
    intro batch _
    refine ⟨rfl, fun body body' hbody hbody' => hdigest ?_⟩
    rw [(readBatch_eq_ok.mp hbody).2, (readBatch_eq_ok.mp hbody').2]
  have hequal : cursor = cursor' := by
    refine foldlM_lockstep (R := fun first second => first = second) ?_ rfl hpairs hcursor hcursor'
    intro first second read read' next next' hfirst hreads hnext hnext'
    subst hfirst
    obtain ⟨hbatch, hbodies⟩ := hreads
    simp only [acceptBatch, bind_eq_ok] at hnext hnext'
    obtain ⟨body, hbody, hnext⟩ := hnext
    obtain ⟨body', hbody', hnext'⟩ := hnext'
    obtain rfl := hbodies body body' hbody hbody'
    rw [← hbatch] at hnext'
    exact Except.ok.inj (hnext.symm.trans hnext')
  rw [hequal]

/-- Sessions whose manifests have the same bytes have the same manifest. -/
theorem StreamSessionReader.manifest_of_sha256
    (hdigest : Function.Injective (CaptureFormat.digest : B → D))
    (h : left.manifestSha256 = right.manifestSha256) : left.manifest = right.manifest := by
  obtain ⟨body, hread, hsha⟩ := left.manifest_read
  obtain ⟨body', hread', hsha'⟩ := right.manifest_read
  obtain rfl := hdigest (hsha.trans (h.trans hsha'.symm))
  exact Except.ok.inj (hread.symm.trans hread')

namespace StreamDayReader

/-- Ordered segments are determined by the digests of their manifests. -/
theorem manifests_of_sha256s (hdigest : Function.Injective (CaptureFormat.digest : B → D))
    {first second : List (StreamSessionReader B D)}
    (hfirst : first.Pairwise fun previous current => previous.order ≤ current.order)
    (hsecond : second.Pairwise fun previous current => previous.order ≤ current.order)
    (hunique : (first.map (·.manifest.streamSessionId)).Nodup)
    (hperm : (first.map (·.manifestSha256)).Perm (second.map (·.manifestSha256))) :
    List.Forall₂ (fun left right => left.manifest = right.manifest) first second := by
  have hshas : List.Forall₂ (fun sha (reader : StreamSessionReader B D) =>
      reader.manifestSha256 = sha) (second.map (·.manifestSha256)) second := by
    rw [List.forall₂_map_left_iff, List.forall₂_same]
    exact fun _ _ => rfl
  obtain ⟨third, hthird, hsame⟩ := List.perm_comp_forall₂ hperm hshas
  have hmanifests : List.Forall₂ (fun left right => left.manifest = right.manifest) first third :=
    (List.forall₂_map_left_iff.mp hthird).imp fun left right hsha =>
      StreamSessionReader.manifest_of_sha256 hdigest hsha.symm
  have hsorted : third.Pairwise fun previous current => previous.order ≤ current.order := by
    have horders : third.map (·.order) = first.map (·.order) :=
      map_eq_of_forall₂ (hmanifests.imp fun left right hmanifest => by
        simp only [StreamSessionReader.order, hmanifest])
    rw [← List.pairwise_map (f := StreamSessionReader.order) (R := (· ≤ ·))] at hfirst ⊢
    rwa [horders]
  have hids : (third.map (·.manifest.streamSessionId)).Nodup := by
    have hsessions : third.map (·.manifest.streamSessionId) =
        first.map (·.manifest.streamSessionId) :=
      map_eq_of_forall₂ (hmanifests.imp fun left right hmanifest => by rw [hmanifest])
    rwa [hsessions]
  have hthirdSecond : third = second := by
    refine hsame.eq_of_pairwise ?_ hsorted hsecond
    intro left right hleft hright hle hge
    have horder : left.order = right.order := le_antisymm hle hge
    have hid : left.manifest.streamSessionId = right.manifest.streamSessionId := by
      have hpair := congrArg ofLex (congrArg Prod.snd (congrArg ofLex horder))
      exact congrArg Prod.snd hpair
    exact eq_of_key_eq (fun reader : StreamSessionReader B D => reader.manifest.streamSessionId)
      hids hleft (hsame.mem_iff.mpr hright) hid
  rwa [hthirdSecond] at hmanifests

/-- What lies between segments is said by their manifests. -/
theorem gapsOf_of_manifests {first second : List (StreamSessionReader B D)}
    (h : List.Forall₂ (fun left right => left.manifest = right.manifest) first second) :
    gapsOf first = gapsOf second := by
  induction h with
  | nil => rfl
  | @cons left right first second hhead hrest ih =>
      cases hrest with
      | nil => rfl
      | @cons next next' first second hnext hrest =>
          have hbetween : gapBetween left next = gapBetween right next' := by
            have hcovered : left.coveredUntil = right.coveredUntil := by
              simp only [StreamSessionReader.coveredUntil, hhead]
            apply Option.ext
            intro gap
            rw [gapBetween_eq_some, gapBetween_eq_some, hcovered, hnext]
          simp only [gapsOf, List.tail_cons, List.zip_cons_cons, List.filterMap_cons, hbetween]
            at ih ⊢
          rw [ih]

/-- **The digest of a day's evidence pins its rows.**  Two days with one `evidence_sha256`,
wherever they are read from, have the same rows and the same gaps. -/
theorem evidence_pins_rows (hdigest : Function.Injective (CaptureFormat.digest : B → D))
    (hfree : CollisionFree D) {day day' : StreamDayReader B D}
    (hevidence : day.evidenceSha256 = day'.evidenceSha256) {rows rows' : List (CapturedRow D)}
    (hrows : day.envelopes = .ok rows) (hrows' : day'.envelopes = .ok rows') :
    rows = rows' ∧ day.gaps = day'.gaps ∧ day.streamSessionIds = day'.streamSessionIds := by
  have hsorted := (Json.list_inj Json.sha_injective) (hfree hevidence)
  have hperm : (day.sessions.map (·.manifestSha256)).Perm (day'.sessions.map (·.manifestSha256)) :=
    (sortOn_perm _ _).symm.trans ((List.Perm.of_eq hsorted).trans (sortOn_perm _ _))
  have hmanifests := manifests_of_sha256s hdigest day.ordered day'.ordered day.sessions_unique hperm
  refine ⟨?_, gapsOf_of_manifests hmanifests, ?_⟩
  · obtain ⟨rowss, hread, rfl, -⟩ := envelopes_eq_ok hrows
    obtain ⟨rowss', hread', rfl, -⟩ := envelopes_eq_ok hrows'
    congr 1
    clear hrows hrows'
    change List.Forall₂ _ day.sessions day'.sessions at hmanifests
    generalize day.sessions = first at hread hmanifests
    generalize day'.sessions = second at hread' hmanifests
    induction hmanifests generalizing rowss rowss' with
    | nil =>
        cases hread
        cases hread'
        rfl
    | cons hhead _ ih =>
        cases hread with
        | cons hfound hread =>
            cases hread' with
            | cons hfound' hread' =>
                rw [StreamSessionReader.rows_of_manifest hdigest hhead hfound hfound',
                  ih _ _ hread hread']
  · exact (map_eq_of_forall₂ (hmanifests.imp fun left right hmanifest => by rw [hmanifest])).symm

end StreamDayReader

namespace Rehearsal

def shortSession : String := "00000000-0000-4000-8000-000000000001"

/-- A captured quote of VIC. -/
def capturedRow (sequence : Nat) (second : Int) (h : 1 ≤ sequence) : CapturedRow Spelled where
  streamSessionId := shortSession
  receiveSequence := sequence
  messageType := "QuoteMessage"
  subscriptionContext := .symbols
  symbol := some "VIC"
  sourceTimeText := none
  receivedAt := 20700 * dayLength + seconds second
  messageJson := "\x7b\x7d"
  messageSha256 := sha256 (.str "\x7b\x7d")
  envelope_valid := ⟨by decide, h, by decide, by decide⟩
  apiVersion := ssiApiVersion
  sdkVersion := "2.0"

def capturedRows : List (CapturedRow Spelled) :=
  [capturedRow 1 8130 Nat.one_pos, capturedRow 2 8131 Nat.two_pos]

/-- The only batch of the session. -/
def capturedBatch : StreamBatchFields Spelled where
  batchId := batchIdentity shortSession 1 2 (Spelled.ofJson (.str "1,2"))
  firstReceiveSequence := 1
  lastReceiveSequence := 2
  messageCount := 2
  objectKey := .batch 20700 shortSession 1 2 (Spelled.ofJson (.str "1,2"))
  objectSha256 := Spelled.ofJson (.str "1,2")
  publishedAt := 20700 * dayLength + seconds 8140

def capturedManifest : StreamManifestFields Spelled where
  schemaVersion := 1
  streamSessionId := shortSession
  symbols := ["VIC", "VHM"]
  indices := []
  markets := []
  intervalSymbols := []
  breadthMembership := none
  connectedAt := 20700 * dayLength + seconds 8100
  disconnectedAt := 20700 * dayLength + seconds 8200
  disconnectKind := .completed
  messageCount := 2
  firstReceiveSequence := some 1
  lastReceiveSequence := some 2
  heartbeatCount := 1
  lastHeartbeatAt := some (20700 * dayLength + seconds 8110)
  lastBusinessMessageAt := some (20700 * dayLength + seconds 8131)
  batchCount := 1
  batches := [capturedBatch]
  apiVersion := ssiApiVersion
  sdkVersion := "2.0"
  errorType := none
  publishedAt := 20700 * dayLength + seconds 8201

/-- Bodies are texts: rows are spelled by their numbers, a manifest by its session. -/
instance textFormat : CaptureFormat String Spelled where
  digest text := Spelled.ofJson (.str text)
  compress rows := ",".intercalate (rows.map fun row => toString row.receiveSequence)
  lines text := if text = "1,2" then some (capturedRows.map some) else none
  manifestJson fields := "manifest of " ++ fields.streamSessionId
  manifestFields text :=
    if text = "manifest of " ++ shortSession then some capturedManifest else none
  sdkVersion := "2.0"

/-- A store of the two objects. -/
def capturedStore (key : StreamKey Spelled) : Except Raised (Option String) :=
  if key = .manifest 20700 shortSession then
    .ok (some ("manifest of " ++ shortSession))
  else if key = capturedBatch.objectKey then .ok (some "1,2")
  else .ok none

/-- The day of the session, read with a window of some batches. -/
def capturedDay (prefetch : Nat) : Except Raised (StreamDayReader String Spelled) := do
  let reader ← StreamSessionReader.init capturedStore (.manifest 20700 shortSession) prefetch
  StreamDayReader.init [reader]

private def dayRehearsal : Bool :=
  (capturedDay 1).toOption.any fun day => (capturedDay 8).toOption.any fun day' =>
    day.envelopes.toOption.any fun rows => day'.envelopes.toOption.any fun rows' =>
      rows.length == 2 && rows'.length == 2 && decide (day.evidenceSha256 = day'.evidenceSha256)

private theorem dayRehearsal_holds : dayRehearsal = true := by decide +kernel

end Rehearsal

open Rehearsal in
/-- The rehearsed day, whose two rows are read. -/
theorem captured_day_sound_rehearsal : ∃ day rows, capturedDay 1 = .ok day ∧
    day.envelopes = .ok rows ∧ rows.length = 2 ∧ day.messageCount = 2 ∧
    (rows.map fun row => row.toStreamEnvelope.position).Nodup := by
  have hrehearsal := dayRehearsal_holds
  simp only [dayRehearsal, Option.any_eq_true, Bool.and_eq_true, beq_iff_eq] at hrehearsal
  obtain ⟨day, hday, _, -, rows, hrows, _, -, ⟨hlength, -⟩, -⟩ := hrehearsal
  have hread := toOption_eq_some.mp hrows
  obtain ⟨hcount, -, hpositions, -⟩ := StreamDayReader.captured_day_sound hread
  exact ⟨day, rows, toOption_eq_some.mp hday, hread, hlength, hcount.symm.trans hlength,
    hpositions⟩

open Rehearsal in
/-- The rehearsed day, read with a window of one batch and of eight. -/
theorem evidence_pins_rows_rehearsal : ∃ day day' rows rows', capturedDay 1 = .ok day ∧
    capturedDay 8 = .ok day' ∧ day.envelopes = .ok rows ∧ day'.envelopes = .ok rows' ∧
    rows.length = 2 ∧ rows = rows' ∧ day.gaps = day'.gaps := by
  have hrehearsal := dayRehearsal_holds
  simp only [dayRehearsal, Option.any_eq_true, Bool.and_eq_true, beq_iff_eq, decide_eq_true_eq]
    at hrehearsal
  obtain ⟨day, hday, day', hday', rows, hrows, rows', hrows', ⟨hlength, -⟩, hevidence⟩ := hrehearsal
  have hread := toOption_eq_some.mp hrows
  have hread' := toOption_eq_some.mp hrows'
  have hdigest : Function.Injective (CaptureFormat.digest : String → Spelled) :=
    fun _ _ h => Json.str_injective (Spelled.ofJson_injective h)
  obtain ⟨hsame, hgaps, -⟩ := StreamDayReader.evidence_pins_rows hdigest collisionFree_spelled
    hevidence hread hread'
  exact ⟨day, day', rows, rows', toOption_eq_some.mp hday, toOption_eq_some.mp hday', hread,
    hread', hlength, hsame, hgaps⟩

end MiniLakehouse
