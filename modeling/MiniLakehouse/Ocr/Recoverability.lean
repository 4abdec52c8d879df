import MiniLakehouse.Ocr.Publication

/-!
# Recoverability of OCR publication

What is left of `process_arxiv_document` wherever its runs are cut off.  The row of a document
names a location where its manifest and every file of it are stored, at every moment.  A run
that is not cut off publishes what it has extracted exactly where nothing else is stored at the
keys of its files: the location is that of the document, the PDF and the configuration, not
that of the content, so that another output of the same processing collides with what a run has
left there.
-/

namespace MiniLakehouse.Ocr

variable {D : Type} [ContentHash D]

/-! ## What extraction leaves -/

/-- The files of a manifest, and the manifest itself, are among the files of a tree. -/
structure Carries (tree : ExtractedTree) (manifest : OcrDocumentManifest D) : Prop where
  recorded : ∀ artifact ∈ manifest.files, ∃ body,
    (pathParts artifact.relativePath, body) ∈ tree.files ∧ body.length = artifact.sizeBytes ∧
      ContentHash.digest body = artifact.sha256
  manifest : ([documentManifestPath], canonicalJsonBytes manifest.modelDump) ∈ tree.files
  once : (tree.files.map Prod.fst).Nodup

/-- What an output must be to be extracted for a job. -/
structure ExtractedFor (job : OcrJob D) (result : OcrOutput D) (tree : ExtractedTree) : Prop where
  document : result.documentId = job.documentId
  identity : result.processingId = processingId job.documentId result.pdfSha256 job.configHash
  reused : result.state = .reused → ∃ reuse ∈ job.reuse,
    result.processingId = reuse.processingId ∧ result.manifestSha256 = reuse.manifestSha256
  succeeded : result.state = .succeeded → ∃ manifest : OcrDocumentManifest D,
    canonicalJsonSha256 manifest.modelDump = result.manifestSha256 ∧
      manifest.documentId = result.documentId ∧ manifest.processingId = result.processingId ∧
      Carries tree manifest

theorem ExtractedTree.mem_of_read {tree : ExtractedTree} {path : List String} {body : Bytes}
    (h : tree.read path = some body) : (path, body) ∈ tree.files := by
  obtain ⟨file, hfile, rfl⟩ := Option.map_eq_some_iff.mp h
  have hpath : file.1 = path := by simpa using List.find?_some hfile
  rw [← hpath]
  exact List.mem_of_find?_eq_some hfile

/-- No file of a manifest has the path of the manifest. -/
theorem manifestPath_not_mem (manifest : OcrDocumentManifest D) :
    [documentManifestPath] ∉ manifest.files.map fun file => pathParts file.relativePath := by
  intro hmem
  obtain ⟨artifact, hartifact, hpath⟩ := List.mem_map.mp hmem
  have hdocument := manifest.isDocumentPath hartifact
  rw [hpath] at hdocument
  rcases hdocument with hpages | helements | ⟨directory, name, -, hparts⟩
  · revert hpages
    decide
  · revert helements
    decide
  · cases hparts

section Extraction

variable [Gzip] [TarZst]

omit [TarZst] in
/-- The tree of a validated document carries its manifest once that is written. -/
theorem carries_written {tree written : ExtractedTree} {manifest : OcrDocumentManifest D}
    {limit : Nat} (hsafe : tree.Safe)
    (htracked : ∀ file ∈ tree.files,
      file.1 ∈ manifest.files.map fun file => pathParts file.relativePath)
    (hvalid : validateDocument tree manifest (canonicalJsonBytes manifest.modelDump) limit = .ok ())
    (hwritten : writeManifest tree (canonicalJsonBytes manifest.modelDump) = .ok written) :
    Carries written manifest := by
  obtain ⟨-, hdocument⟩ := validateDocument_cases tree manifest limit htracked
  obtain ⟨pages, hreaches, -⟩ := hdocument.mp hvalid
  unfold writeManifest at hwritten
  split at hwritten
  · cases hwritten
  · obtain rfl := Except.ok.inj hwritten
    refine ⟨?_, List.mem_append_right _ (List.mem_singleton.mpr rfl), ?_⟩
    · intro artifact hartifact
      obtain ⟨body, hbody, hsize, hdigest⟩ := hreaches.recorded artifact hartifact
      exact ⟨body, List.mem_append_left _ (ExtractedTree.mem_of_read hbody), hsize, hdigest⟩
    · rw [List.map_append]
      apply List.Nodup.append hsafe.written_once (List.nodup_singleton _)
      intro path hpath hmanifest
      obtain ⟨file, hfile, rfl⟩ := List.mem_map.mp hpath
      have hmem := htracked file hfile
      rw [List.mem_singleton.mp hmanifest] at hmem
      exact manifestPath_not_mem manifest hmem

/-- **What is extracted belongs to its job.** -/
theorem extractOcrOutput_extracted {output : OutputDirectory} {job : OcrJob D}
    {result : OcrOutput D} {tree : ExtractedTree}
    (h : extractOcrOutput output job = .ok (result, tree)) : ExtractedFor job result tree := by
  unfold extractOcrOutput at h
  obtain ⟨⟨found, archive⟩, -, h⟩ := bind_eq_ok.mp h
  dsimp only at h
  obtain ⟨hdocument, h⟩ := require_bind_eq_ok.mp h
  obtain ⟨hidentity, h⟩ := require_bind_eq_ok.mp h
  obtain ⟨checked, hlineage, h⟩ := bind_eq_ok.mp h
  obtain ⟨extracted, hextracted, h⟩ := bind_eq_ok.mp h
  obtain ⟨⟨htracked, -⟩, h⟩ := require_bind_eq_ok.mp h
  have hsafe : extracted.Safe := by
    have hall := (extract_safe archive job.limits.maxOutputBytes).1
    unfold extractedTree at hextracted
    cases hfailure : (extract archive job.limits.maxOutputBytes).2 with
    | some error =>
        rw [hfailure] at hextracted
        cases hextracted
    | none =>
        rw [hfailure] at hextracted
        obtain rfl := Except.ok.inj hextracted
        exact hall
  have hvalid := found.valid
  simp only [OcrOutputFields.checks, allHold_cons, decide_eq_true_eq] at hvalid
  obtain ⟨-, -, -, -, hnew, hmanifest, hlineages, hchecksum, -⟩ := hvalid
  have hresult : found = result := by
    cases hfound : found.manifest with
    | none =>
        rw [hfound] at h
        exact congrArg Prod.fst (Except.ok.inj h)
    | some manifest =>
        rw [hfound] at h
        dsimp only at h
        obtain ⟨valid, -, h⟩ := bind_eq_ok.mp h
        obtain ⟨written, -, h⟩ := bind_eq_ok.mp h
        exact congrArg Prod.fst (Except.ok.inj h)
  subst hresult
  refine ⟨hdocument, by rw [hidentity, hdocument], ?_, ?_⟩
  · intro hstate
    simp only [lineageChecks, hstate, require_eq_ok] at hlineage
    cases hreuse : job.reuse with
    | none =>
        rw [hreuse] at hlineage
        cases hlineage
    | some reuse =>
        rw [hreuse, Option.any_some, decide_eq_true_eq] at hlineage
        exact ⟨reuse, rfl, hlineage.2.2.2.1, hlineage.2.2.2.2⟩
  · intro hstate
    obtain ⟨manifest, hfound⟩ := Option.isSome_iff_exists.mp (hmanifest.resolve_left (not_not.mpr hstate))
    rw [hfound] at h hlineages hchecksum htracked
    simp only [Option.all_some, decide_eq_true_eq] at hlineages hchecksum
    obtain ⟨valid, hvalidated, h⟩ := bind_eq_ok.mp h
    obtain ⟨written, hwritten, h⟩ := bind_eq_ok.mp h
    obtain ⟨-, rfl⟩ := Prod.mk.inj (Except.ok.inj h)
    exact ⟨manifest, hchecksum, hlineages.1, hlineages.2.2.2.2,
      carries_written hsafe htracked hvalidated hwritten⟩

end Extraction

/-! ## What is stored -/

/-- A content of a digest and a size is stored. -/
def Stored (w : OcrWorld D) (key : ObjectKey D) (sha256 : D) (size : Nat) : Prop :=
  ∃ object, w.objects key = some object ∧ ContentHash.digest object.body = sha256 ∧
    object.body.length = size

/-- A manifest of a digest is stored at a location, and every file of it. -/
def Kept (w : OcrWorld D) (uri : ArtifactUri D) (manifestSha256 : D) : Prop :=
  ∃ manifest : OcrDocumentManifest D, canonicalJsonSha256 manifest.modelDump = manifestSha256 ∧
    manifest.documentId = uri.documentId ∧ manifest.processingId = uri.processingId ∧
    Stored w ⟨uri, [documentManifestPath]⟩ manifestSha256
      (canonicalJsonBytes manifest.modelDump).length ∧
    ∀ file ∈ manifest.files,
      Stored w ⟨uri, pathParts file.relativePath⟩ file.sha256 file.sizeBytes

/-- The row of a document names the location of its processing, where its manifest is stored and
every file of it. -/
structure Published (w : OcrWorld D) (row : OcrDocument D) : Prop where
  location : row.artifactUri = ⟨row.arxivId, row.processingId⟩
  stored : Kept w row.artifactUri row.manifestSha256

/-- The lineage that a row records is one that a job accepts. -/
structure Identified (row : OcrDocument D) : Prop where
  processing : row.processingId = processingId row.arxivId row.pdfSha256 row.configHash
  sized : 1 ≤ row.pdfSizeBytes ∧ 1 ≤ row.pageCount

/-- What every run keeps: objects are recorded with their digest, and a document has at most one
row, which is published. -/
structure Sound (w : OcrWorld D) : Prop where
  honest : ∀ key object, w.objects key = some object →
    object.sha256 = ContentHash.digest object.body
  single : (w.documents.map fun row => row.arxivId).Nodup
  published : ∀ row ∈ w.documents, Published w row ∧ Identified row

/-- The tables are the same, and every object is still stored. -/
structure Grown (w w' : OcrWorld D) : Prop where
  papers : w'.papers = w.papers
  documents : w'.documents = w.documents
  objects : ∀ key object, w.objects key = some object → w'.objects key = some object

omit [ContentHash D] in
theorem Grown.refl (w : OcrWorld D) : Grown w w := ⟨rfl, rfl, fun _ _ h => h⟩

omit [ContentHash D] in
theorem Grown.trans {w w' w'' : OcrWorld D} (h : Grown w w') (h' : Grown w' w'') : Grown w w'' :=
  ⟨h'.papers.trans h.papers, h'.documents.trans h.documents,
    fun key object hobject => h'.objects key object (h.objects key object hobject)⟩

theorem Stored.mono {w w' : OcrWorld D} {key : ObjectKey D} {sha256 : D} {size : Nat}
    (hobjects : ∀ key object, w.objects key = some object → w'.objects key = some object)
    (h : Stored w key sha256 size) : Stored w' key sha256 size := by
  obtain ⟨object, hobject, hdigest, hsize⟩ := h
  exact ⟨object, hobjects key object hobject, hdigest, hsize⟩

theorem Kept.mono {w w' : OcrWorld D} {uri : ArtifactUri D} {manifestSha256 : D}
    (hobjects : ∀ key object, w.objects key = some object → w'.objects key = some object)
    (h : Kept w uri manifestSha256) : Kept w' uri manifestSha256 := by
  obtain ⟨manifest, hchecksum, hdocument, hprocessing, hmanifest, hfiles⟩ := h
  exact ⟨manifest, hchecksum, hdocument, hprocessing, hmanifest.mono hobjects,
    fun file hfile => (hfiles file hfile).mono hobjects⟩

theorem Published.mono {w w' : OcrWorld D} {row : OcrDocument D}
    (hobjects : ∀ key object, w.objects key = some object → w'.objects key = some object)
    (h : Published w row) : Published w' row := ⟨h.location, h.stored.mono hobjects⟩

/-- Objects that are added keep a world sound. -/
theorem Sound.grown {w w' : OcrWorld D} (h : Sound w) (hgrown : Grown w w')
    (hhonest : ∀ key object, w'.objects key = some object →
      object.sha256 = ContentHash.digest object.body) : Sound w' := by
  refine ⟨hhonest, by rw [hgrown.documents]; exact h.single, ?_⟩
  intro row hrow
  rw [hgrown.documents] at hrow
  obtain ⟨hpublished, hidentified⟩ := h.published row hrow
  exact ⟨hpublished.mono hgrown.objects, hidentified⟩

/-- Storing at a new key keeps what is stored. -/
theorem Grown.store {w : OcrWorld D} {key : ObjectKey D} (hfresh : w.objects key = none)
    (object : StoredObject D) : Grown w (w.store key object) := by
  refine ⟨rfl, rfl, ?_⟩
  intro other found hfound
  have hother : other ≠ key := by
    rintro rfl
    rw [hfresh] at hfound
    cases hfound
  rw [OcrWorld.store_objects, if_neg hother]
  exact hfound

/-- Storing a content with its digest keeps a world sound. -/
theorem Sound.store {w : OcrWorld D} (h : Sound w) {key : ObjectKey D}
    (hfresh : w.objects key = none) (body : Bytes) :
    Sound (w.store key ⟨body, ContentHash.digest body⟩) := by
  apply h.grown (Grown.store hfresh _)
  intro other found hfound
  by_cases hother : other = key
  · rw [OcrWorld.store_objects, if_pos hother] at hfound
    obtain rfl := Option.some.inj hfound
    rfl
  · rw [OcrWorld.store_objects, if_neg hother] at hfound
    exact h.honest other found hfound

/-- The row of a published document replaces the one before it. -/
theorem Sound.upsert {w : OcrWorld D} (h : Sound w) {row : OcrDocument D}
    (hpublished : Published w row) (hidentified : Identified row) :
    Sound (storeAnswer (.upsert row) w).1 := by
  have hobjects : ∀ key object, w.objects key = some object →
      (storeAnswer (.upsert row) w).1.objects key = some object := fun _ _ hobject => hobject
  refine ⟨h.honest, ?_, ?_⟩
  · simp only [storeAnswer, List.map_append, List.map_cons, List.map_nil]
    apply List.Nodup.append (h.single.sublist (List.filter_sublist.map _)) (List.nodup_singleton _)
    intro arxivId hmem hnew
    obtain ⟨other, hother, rfl⟩ := List.mem_map.mp hmem
    have hne := (List.mem_filter.mp hother).2
    rw [List.mem_singleton] at hnew
    simp [hnew] at hne
  · intro other hother
    rcases List.mem_append.mp hother with hother | hother
    · obtain ⟨hpublished, hidentified⟩ := h.published other (List.mem_filter.mp hother).1
      exact ⟨hpublished.mono hobjects, hidentified⟩
    · rw [List.mem_singleton.mp hother]
      exact ⟨hpublished.mono hobjects, hidentified⟩

/-! ## Every moment of a run -/

/-- A call changes the world as the store does. -/
def StoreStep (op : StoreOp D) (w w' : OcrWorld D) (reply : op.Reply) : Prop :=
  storeAnswer op w = (w', reply)

theorem secures_call {C : OcrWorld D → Prop} {op : StoreOp D}
    {Q : Except Raised op.Reply → OcrWorld D → Prop} {w : OcrWorld D} :
    Secures StoreStep C Q op.perform w ↔
      C w ∧ C (storeAnswer op w).1 ∧ Q (.ok (storeAnswer op w).2) (storeAnswer op w).1 := by
  constructor
  · intro h
    exact ⟨h.1, h.2 _ _ rfl⟩
  · intro h
    refine ⟨h.1, ?_⟩
    intro w' reply hstep
    obtain ⟨rfl, rfl⟩ := Prod.mk.inj hstep
    exact h.2

/-- What a run has left before it writes the row. -/
def Uploads (start w : OcrWorld D) : Prop := Grown start w ∧ Sound w

/-- One file: it is stored afterwards, unless the run stops. -/
theorem publishFile_secures {w : OcrWorld D} (hsound : Sound w) (key : ObjectKey D) (body : Bytes) :
    Secures StoreStep (Uploads w) (fun result w' => result = .ok () →
      Stored w' key (ContentHash.digest body) body.length) (ArxivOcrStore.publishFile key body) w := by
  have hhere : Uploads w w := ⟨Grown.refl w, hsound⟩
  unfold ArxivOcrStore.publishFile
  rw [secures_bind, secures_call]
  refine ⟨hhere, hhere, ?_⟩
  cases hfound : w.objects key with
  | none =>
      have hreply : (storeAnswer (.headObject key) w).2 = none := by simp [storeAnswer, hfound]
      rw [hreply]
      refine secures_call.mpr ⟨hhere, ⟨Grown.store hfound _, hsound.store hfound body⟩, ?_⟩
      intro _
      exact ⟨_, if_pos rfl, rfl, rfl⟩
  | some object =>
      have hreply : (storeAnswer (.headObject key) w).2 = some (object.sha256, object.body.length) := by
        simp [storeAnswer, hfound]
      rw [hreply]
      simp only [proceeds_ok]
      split
      · next hsame =>
          refine ⟨hhere, fun _ => ⟨object, hfound, ?_, hsame.2⟩⟩
          rw [← hsound.honest key object hfound, hsame.1]
      · exact ⟨hhere, fun hraised => absurd hraised (by simp)⟩

/-- The files of a directory are stored after the loop, unless it stops. -/
theorem publishFiles_secures (uri : ArtifactUri D) (files : List (List String × Bytes))
    {w : OcrWorld D} (hsound : Sound w) :
    Secures StoreStep (Uploads w) (fun result w' => result = .ok () → ∀ file ∈ files,
      Stored w' ⟨uri, file.1⟩ (ContentHash.digest file.2) file.2.length)
      (ArxivOcrStore.publishFiles uri files) w := by
  induction files generalizing w with
  | nil => exact ⟨⟨Grown.refl w, hsound⟩, fun _ file hfile => absurd hfile List.not_mem_nil⟩
  | cons file files ih =>
      obtain ⟨path, body⟩ := file
      unfold ArxivOcrStore.publishFiles
      rw [secures_bind]
      apply (publishFile_secures hsound ⟨uri, path⟩ body).imp
      case hcrash => exact fun w' hw' => hw'
      case hpost =>
        intro result w' hw' hstored
        cases result with
        | error error => exact fun hraised => absurd hraised (by simp)
        | ok u =>
            rw [proceeds_ok]
            apply (ih hw'.2).imp
            case hcrash => exact fun last hlast => ⟨hw'.1.trans hlast.1, hlast.2⟩
            case hpost =>
              intro result last hlast hrest hresult other hother
              rcases List.mem_cons.mp hother with rfl | hother
              · exact (hstored rfl).mono hlast.1.objects
              · exact hrest hresult other hother

/-- Reading the paper changes nothing. -/
theorem paper_secures {C : OcrWorld D → Prop} {Q : Except Raised (Paper D) → OcrWorld D → Prop}
    {w : OcrWorld D} (documentId : String) (hcrash : C w) (hpost : ∀ result, Q result w) :
    Secures StoreStep C Q (ArxivOcrStore.paper documentId) w := by
  unfold ArxivOcrStore.paper
  rw [secures_bind, secures_call]
  refine ⟨hcrash, hcrash, ?_⟩
  rw [proceeds_ok]
  split
  · exact ⟨hcrash, hpost _⟩
  · exact ⟨hcrash, hpost _⟩

/-- Reading the row of a document finds one of its rows. -/
theorem document_secures {C : OcrWorld D → Prop}
    {Q : Except Raised (Option (OcrDocument D)) → OcrWorld D → Prop} {w : OcrWorld D}
    (documentId : String) (hcrash : C w) (hraised : ∀ error, Q (.error error) w)
    (hfound : ∀ existing, (∀ row ∈ existing, row ∈ w.documents ∧ row.arxivId = documentId) →
      Q (.ok existing) w) :
    Secures StoreStep C Q (ArxivOcrStore.document documentId) w := by
  unfold ArxivOcrStore.document
  rw [secures_bind, secures_call]
  refine ⟨hcrash, hcrash, ?_⟩
  rw [proceeds_ok]
  split
  · exact ⟨hcrash, hfound none fun row hrow => absurd hrow (Option.not_mem_none row)⟩
  · next row hrow =>
      refine ⟨hcrash, hfound (some row) ?_⟩
      intro other hother
      obtain rfl := Option.some.inj hother
      have hrows : w.documents.filter (·.arxivId = documentId) = [row] := hrow
      have hmem : row ∈ w.documents.filter (·.arxivId = documentId) := by
        rw [hrows]
        exact List.mem_singleton.mpr rfl
      simpa using hmem
  · exact ⟨hcrash, hraised _⟩

/-- The lineage that a job is given is that of the row. -/
theorem reuseOf_ok {config : OcrConfig} {existing : Option (OcrDocument D)}
    {reuse : Option (OcrReuseReference D)} (h : reuseOf config existing = .ok reuse) :
    ∀ reference ∈ reuse, ∃ row ∈ existing, reference.processingId = row.processingId ∧
      reference.manifestSha256 = row.manifestSha256 := by
  intro reference hreference
  cases existing with
  | none =>
      obtain rfl := Except.ok.inj h
      exact absurd hreference (Option.not_mem_none _)
  | some row =>
      unfold reuseOf at h
      dsimp only at h
      split at h
      · unfold OcrReuseReference.modelValidate at h
        rw [← bind_pure_comp] at h
        simp only [bind_eq_ok, pure_eq_ok] at h
        obtain ⟨found, ⟨counted, -, rfl⟩, rfl⟩ := h
        obtain rfl := Option.some.inj hreference
        exact ⟨row, rfl, rfl, rfl⟩
      · obtain rfl := Except.ok.inj h
        exact absurd hreference (Option.not_mem_none _)

theorem OcrConfig.job_ok {config : OcrConfig} {documentId : String} {sourceRecordSha256 : D}
    {pdfUrl : String} {reuse : Option (OcrReuseReference D)} {job : OcrJob D}
    (h : config.job documentId sourceRecordSha256 pdfUrl reuse = .ok job) :
    job.documentId = documentId ∧ job.configHash = config.configurationHash ∧ job.reuse = reuse := by
  unfold OcrConfig.job at h
  simp only [bind_eq_ok, pure_eq_ok] at h
  obtain ⟨document, -, secure, -, identified, -, rfl⟩ := h
  exact ⟨rfl, rfl, rfl⟩

section Runs

variable [Gzip] [TarZst] {documentId : String} {config : OcrConfig} {paper : Paper D}
  {existing : Option (OcrDocument D)} {reuse : Option (OcrReuseReference D)} {job : OcrJob D}
  {result : OcrOutput D} {tree : ExtractedTree} {w w' : OcrWorld D}

omit [Gzip] [TarZst] in
/-- The files of a tree that carries a manifest are stored under a location. -/
theorem kept_of_carries {manifest : OcrDocumentManifest D} {uri : ArtifactUri D}
    (hdocument : manifest.documentId = uri.documentId)
    (hprocessing : manifest.processingId = uri.processingId) (hcarries : Carries tree manifest)
    (hstored : ∀ file ∈ tree.files,
      Stored w ⟨uri, file.1⟩ (ContentHash.digest file.2) file.2.length) :
    Kept w uri (canonicalJsonSha256 manifest.modelDump) := by
  have hmanifest := hstored ([documentManifestPath], canonicalJsonBytes manifest.modelDump)
    hcarries.manifest
  dsimp only at hmanifest
  refine ⟨manifest, rfl, hdocument, hprocessing, ?_, ?_⟩
  · unfold canonicalJsonSha256
    exact hmanifest
  intro file hfile
  obtain ⟨body, hbody, hsize, hdigest⟩ := hcarries.recorded file hfile
  have hwritten := hstored _ hbody
  rw [hsize, hdigest] at hwritten
  exact hwritten

omit [Gzip] [TarZst] in
/-- What a row is about to name is kept, when the files are stored or it names those of the row
before it. -/
theorem kept_of_extracted (hsound : Sound w) (hgrown : Grown w w')
    (hexisting : ∀ row ∈ existing, row ∈ w.documents ∧ row.arxivId = documentId)
    (hreuse : reuseOf config existing = .ok reuse) (hlineage : job.reuse = reuse)
    (hdocument : job.documentId = documentId) (hextracted : ExtractedFor job result tree)
    (hstored : result.state = .succeeded → ∀ file ∈ tree.files,
      Stored w' ⟨⟨documentId, result.processingId⟩, file.1⟩ (ContentHash.digest file.2)
        file.2.length) :
    Kept w' ⟨documentId, result.processingId⟩ result.manifestSha256 := by
  cases hstate : result.state with
  | succeeded =>
      obtain ⟨manifest, hchecksum, hmanifest, hprocessing, hcarries⟩ := hextracted.succeeded hstate
      have hresult : manifest.documentId = documentId :=
        hmanifest.trans (hextracted.document.trans hdocument)
      rw [← hchecksum]
      exact kept_of_carries hresult hprocessing hcarries (hstored hstate)
  | reused =>
      obtain ⟨reference, hreference, hprocessing, hchecksum⟩ := hextracted.reused hstate
      rw [hlineage] at hreference
      obtain ⟨row, hrow, hrowProcessing, hrowChecksum⟩ := reuseOf_ok hreuse reference hreference
      obtain ⟨hmem, hid⟩ := hexisting row hrow
      obtain ⟨hlocation, hkept⟩ := (hsound.published row hmem).1
      rw [hlocation, hid, ← hrowProcessing, ← hprocessing, ← hrowChecksum, ← hchecksum] at hkept
      exact hkept.mono hgrown.objects

omit [Gzip] [TarZst] in
/-- The row that is written is published, and its lineage is one that the next job accepts. -/
theorem newDocument_published (hjob : job.documentId = documentId)
    (hconfig : job.configHash = config.configurationHash) (hextracted : ExtractedFor job result tree)
    (hkept : Kept w ⟨documentId, result.processingId⟩ result.manifestSha256) (now : Instant) :
    Published w (newDocument documentId config paper result now) ∧
      Identified (newDocument documentId config paper result now) := by
  have hvalid := result.valid
  simp only [OcrOutputFields.checks, allHold_cons, decide_eq_true_eq] at hvalid
  have hidentity := hextracted.identity
  rw [hjob, hconfig] at hidentity
  exact ⟨⟨rfl, hkept⟩, hidentity, hvalid.2.2.1, hvalid.2.2.2.1⟩

omit [Gzip] [TarZst] in
/-- The row is written last: it is one whose files are stored. -/
theorem publish_secures {row : OcrDocument D} (hsound : Sound w)
    (hrow : ∀ w', Grown w w' → (result.state = .succeeded → ∀ file ∈ tree.files,
      Stored w' ⟨row.artifactUri, file.1⟩ (ContentHash.digest file.2) file.2.length) →
      Published w' row ∧ Identified row) :
    Secures StoreStep Sound (fun _ _ => True) (ArxivOcrStore.publish row tree result) w := by
  have hupsert : ∀ w', Grown w w' → Sound w' → (result.state = .succeeded → ∀ file ∈ tree.files,
      Stored w' ⟨row.artifactUri, file.1⟩ (ContentHash.digest file.2) file.2.length) →
      Secures StoreStep Sound (fun _ _ => True) (StoreOp.upsert row).perform w' := by
    intro w' hgrown hsound' hstored
    obtain ⟨hpublished, hidentified⟩ := hrow w' hgrown hstored
    exact secures_call.mpr ⟨hsound', hsound'.upsert hpublished hidentified, trivial⟩
  unfold ArxivOcrStore.publish
  split
  · next hstate =>
      rw [secures_bind]
      apply (publishFiles_secures row.artifactUri _ hsound).imp
      case hcrash => exact fun w' hw' => hw'.2
      case hpost =>
        intro outcome w' hw' hstored
        cases outcome with
        | error error => exact trivial
        | ok u =>
            apply hupsert w' hw'.1 hw'.2
            intro _ file hfile
            exact hstored rfl file (mem_sortOn.mpr hfile)
  · next hstate =>
      exact hupsert w (Grown.refl w) hsound fun hsucceeded => absurd hsucceeded hstate

/-- **Every moment of a run is sound.** -/
theorem processArxivDocument_secures (documentId : String) (config : OcrConfig)
    (modal : OcrJob D → Except Raised OutputDirectory) (now : Instant) (hsound : Sound w) :
    Secures StoreStep Sound (fun _ _ => True) (processArxivDocument documentId config modal now) w := by
  unfold processArxivDocument
  rw [secures_bind, secures_attempt]
  apply paper_secures documentId hsound
  intro found
  rw [proceeds_ok, secures_bind, secures_lift]
  refine ⟨hsound, ?_⟩
  cases found with
  | error error => exact trivial
  | ok paper =>
      rw [Except.mapError, proceeds_ok]
      split
      · exact ⟨hsound, trivial⟩
      · rw [secures_bind]
        apply document_secures documentId hsound (fun _ => trivial)
        intro existing hexisting
        rw [proceeds_ok]
        split
        · exact ⟨hsound, trivial⟩
        · rw [secures_bind, secures_lift]
          refine ⟨hsound, ?_⟩
          cases hreuse : reuseOf config existing with
          | error error => exact trivial
          | ok reuse =>
              rw [proceeds_ok, secures_bind, secures_lift]
              refine ⟨hsound, ?_⟩
              cases hjob : config.job documentId paper.sourceRecordSha256 paper.pdfUrl reuse with
              | error error => exact trivial
              | ok job =>
                  rw [proceeds_ok, secures_bind, secures_lift]
                  refine ⟨hsound, ?_⟩
                  cases modal job with
                  | error error => exact trivial
                  | ok output =>
                      rw [proceeds_ok, secures_bind, secures_lift]
                      refine ⟨hsound, ?_⟩
                      cases hextracted : extractOcrOutput output job with
                      | error error => exact trivial
                      | ok extracted =>
                          obtain ⟨result, tree⟩ := extracted
                          obtain ⟨hdocument, hconfig, hlineage⟩ := OcrConfig.job_ok hjob
                          have hfor := extractOcrOutput_extracted hextracted
                          rw [proceeds_ok]
                          dsimp only
                          rw [secures_bind]
                          apply (publish_secures hsound ?_).imp (fun _ hw' => hw')
                          · intro outcome w' hw' _
                            cases outcome with
                            | error error => exact trivial
                            | ok u => exact ⟨hw', trivial⟩
                          · intro w' hgrown hstored
                            have hkept := kept_of_extracted hsound hgrown hexisting hreuse hlineage
                              hdocument hfor hstored
                            exact newDocument_published hdocument hconfig hfor hkept now

/-! ## Histories -/

/-- Papers are harvested, and documents processed with any configuration, any outputs and any
clock, wherever the runs are cut off. -/
inductive OcrHistory : OcrWorld D → Prop
  | start (papers : List (Paper D)) : OcrHistory ⟨papers, [], fun _ => none⟩
  | harvest {w : OcrWorld D} (papers : List (Paper D)) (h : OcrHistory w) :
      OcrHistory { w with papers := papers }
  | run {w w' : OcrWorld D} (documentId : String) (config : OcrConfig)
      (modal : OcrJob D → Except Raised OutputDirectory) (now : Instant) (h : OcrHistory w)
      (hrun : Visits StoreStep (processArxivDocument documentId config modal now) w w') :
      OcrHistory w'

/-- Every reachable world is sound. -/
theorem OcrHistory.sound {w : OcrWorld D} (h : OcrHistory w) : Sound w := by
  induction h with
  | start papers =>
      refine ⟨?_, List.nodup_nil, ?_⟩
      · intro key object hobject
        cases hobject
      · intro row hrow
        exact absurd hrow List.not_mem_nil
  | @harvest w papers _ ih =>
      have hobjects : ∀ key object, w.objects key = some object →
          { w with papers := papers }.objects key = some object := fun _ _ hobject => hobject
      refine ⟨ih.honest, ih.single, ?_⟩
      intro row hrow
      obtain ⟨hpublished, hidentified⟩ := ih.published row hrow
      exact ⟨hpublished.mono hobjects, hidentified⟩
  | run documentId config modal now _ hrun ih =>
      exact (processArxivDocument_secures documentId config modal now ih).visits hrun

end Runs

/-! ## Runs that are not cut off -/

/-- What is stored at the key of a file, if anything, is recorded with its digest and its size. -/
def Agrees (w : OcrWorld D) (uri : ArtifactUri D) (file : List String × Bytes) : Prop :=
  ∀ object, w.objects ⟨uri, file.1⟩ = some object →
    object.sha256 = ContentHash.digest file.2 ∧ object.body.length = file.2.length

theorem storeAnswer_step (op : StoreOp D) (w : OcrWorld D) :
    StoreStep op w (storeAnswer op w).1 (storeAnswer op w).2 := rfl

/-- The answer to `head_object`. -/
theorem headObject_run (w : OcrWorld D) (key : ObjectKey D) :
    (StoreOp.headObject key).perform.run storeAnswer w =
      (.ok ((w.objects key).map fun object => (object.sha256, object.body.length)), w) := rfl

/-- A file that agrees is published, and no other object changes. -/
theorem publishFile_agrees {w : OcrWorld D} {uri : ArtifactUri D} {file : List String × Bytes}
    (h : Agrees w uri file) : ∃ w',
      (ArxivOcrStore.publishFile ⟨uri, file.1⟩ file.2).run storeAnswer w = (.ok (), w') ∧
        ∀ key, key ≠ ⟨uri, file.1⟩ → w'.objects key = w.objects key := by
  unfold ArxivOcrStore.publishFile
  rw [Prog.run_bind_ok (headObject_run w _)]
  cases hfound : w.objects ⟨uri, file.1⟩ with
  | none =>
      refine ⟨w.store ⟨uri, file.1⟩ ⟨file.2, ContentHash.digest file.2⟩, rfl, ?_⟩
      intro key hkey
      rw [OcrWorld.store_objects, if_neg hkey]
  | some object =>
      refine ⟨w, ?_, fun _ _ => rfl⟩
      simp only [Option.map_some]
      rw [if_pos (h object hfound)]
      rfl

/-- A file that does not agree collides, and nothing changes. -/
theorem publishFile_collides {w : OcrWorld D} {uri : ArtifactUri D} {file : List String × Bytes}
    (h : ¬Agrees w uri file) :
    (ArxivOcrStore.publishFile ⟨uri, file.1⟩ file.2).run storeAnswer w =
      (.error (artifactCollision ⟨uri, file.1⟩), w) := by
  unfold Agrees at h
  push Not at h
  obtain ⟨object, hfound, hother⟩ := h
  unfold ArxivOcrStore.publishFile
  rw [Prog.run_bind_ok (headObject_run w _), hfound]
  simp only [Option.map_some]
  rw [if_neg fun hsame => hother hsame.1 hsame.2]
  rfl

/-- **The loop over the files goes through exactly where all of them agree.** -/
theorem publishFiles_run (uri : ArtifactUri D) (files : List (List String × Bytes))
    (hpaths : (files.map Prod.fst).Nodup) (w : OcrWorld D) :
    ((∀ file ∈ files, Agrees w uri file) ∧
      ∃ w', (ArxivOcrStore.publishFiles uri files).run storeAnswer w = (.ok (), w')) ∨
    ∃ file ∈ files, ¬Agrees w uri file ∧ ∃ w',
      (ArxivOcrStore.publishFiles uri files).run storeAnswer w =
        (.error (artifactCollision ⟨uri, file.1⟩), w') := by
  induction files generalizing w with
  | nil => exact .inl ⟨fun file hfile => absurd hfile List.not_mem_nil, w, rfl⟩
  | cons first files ih =>
      obtain ⟨hfirst, hrest⟩ := List.nodup_cons.mp hpaths
      by_cases hagrees : Agrees w uri first
      · obtain ⟨w₁, hpublished, hothers⟩ := publishFile_agrees hagrees
        have hnext : (ArxivOcrStore.publishFiles uri (first :: files)).run storeAnswer w =
            (ArxivOcrStore.publishFiles uri files).run storeAnswer w₁ := Prog.run_bind_ok hpublished
        have hkeys : ∀ file ∈ files, Agrees w₁ uri file ↔ Agrees w uri file := by
          intro file hfile
          have hkey : (⟨uri, file.1⟩ : ObjectKey D) ≠ ⟨uri, first.1⟩ := by
            intro hsame
            exact hfirst ((ObjectKey.mk.inj hsame).2 ▸ List.mem_map_of_mem hfile)
          unfold Agrees
          rw [hothers _ hkey]
        rw [hnext]
        rcases ih hrest w₁ with ⟨hall, hrun⟩ | ⟨file, hfile, hcollides, hrun⟩
        · refine .inl ⟨?_, hrun⟩
          intro file hfile
          rcases List.mem_cons.mp hfile with rfl | hfile
          · exact hagrees
          · exact (hkeys file hfile).mp (hall file hfile)
        · refine .inr ⟨file, List.mem_cons_of_mem _ hfile, ?_, hrun⟩
          rwa [← hkeys file hfile]
      · exact .inr ⟨first, List.mem_cons_self, hagrees, w,
          Prog.run_bind_error (publishFile_collides hagrees)⟩

/-- The row of a document, if it has one. -/
def OcrWorld.document (w : OcrWorld D) (documentId : String) : Option (OcrDocument D) :=
  w.documents.find? (·.arxivId = documentId)

section Recovery

variable [Gzip] [TarZst]

/-- A document is to be processed, and its OCR succeeds. -/
structure Succeeds (w : OcrWorld D) (documentId : String) (config : OcrConfig)
    (modal : OcrJob D → Except Raised OutputDirectory) (paper : Paper D) (result : OcrOutput D)
    (tree : ExtractedTree) : Prop where
  found : w.papers.filter (·.arxivId = documentId) = [paper]
  kept : paper.isDeleted = false
  pending : ∀ row ∈ w.document documentId, isPublished config paper row = false
  extracted : ∃ reuse job output, reuseOf config (w.document documentId) = .ok reuse ∧
    config.job documentId paper.sourceRecordSha256 paper.pdfUrl reuse = .ok job ∧
    modal job = .ok output ∧ extractOcrOutput output job = .ok (result, tree)

variable {documentId : String} {config : OcrConfig}
  {modal : OcrJob D → Except Raised OutputDirectory} {paper : Paper D} {result : OcrOutput D}
  {tree : ExtractedTree} {w : OcrWorld D}

omit [Gzip] [TarZst] in
theorem paper_run (h : w.papers.filter (·.arxivId = documentId) = [paper]) :
    (ArxivOcrStore.paper documentId).attempt.run storeAnswer w = (.ok (.ok paper), w) := by
  have hscan : (StoreOp.scanPapers documentId).perform.run storeAnswer w =
      (.ok (w.papers.filter (·.arxivId = documentId)), w) := rfl
  apply Prog.run_attempt
  unfold ArxivOcrStore.paper
  rw [Prog.run_bind_ok hscan, h]
  rfl

omit [Gzip] [TarZst] in
theorem document_run (h : Sound w) :
    (ArxivOcrStore.document documentId).run storeAnswer w = (.ok (w.document documentId), w) := by
  have hscan : (StoreOp.scanDocuments documentId).perform.run storeAnswer w =
      (.ok (w.documents.filter (·.arxivId = documentId)), w) := rfl
  have hrows : w.documents.filter (·.arxivId = documentId) = (w.document documentId).toList :=
    filter_key_eq_find? h.single documentId
  unfold ArxivOcrStore.document
  rw [Prog.run_bind_ok hscan, hrows]
  cases w.document documentId with
  | none => rfl
  | some row => rfl

/-- A run whose OCR succeeds comes to its publication. -/
theorem process_of_publish (hsound : Sound w)
    (h : Succeeds w documentId config modal paper result tree) (now : Instant)
    {P : StoreProg D (ArtifactUri D × D) → OcrWorld D → Prop}
    (hseq : ∀ {β : Type} {program : StoreProg D β} {f : β → StoreProg D (ArtifactUri D × D)}
      {a : β} {w w' : OcrWorld D}, program.run storeAnswer w = (.ok a, w') → P (f a) w' →
      P (program >>= f) w)
    (hpublish : P (do
      ArxivOcrStore.publish (newDocument documentId config paper result now) tree result
      pure (⟨documentId, result.processingId⟩, result.processingId)) w) :
    P (processArxivDocument documentId config modal now) w := by
  obtain ⟨reuse, job, output, hreuse, hjob, hmodal, hextracted⟩ := h.extracted
  have hcurrent : (w.document documentId).filter (isPublished config paper) = none := by
    apply Option.filter_eq_none_iff.mpr
    intro row hrow
    simp [h.pending row hrow]
  have hlift : ∀ {β : Type} (a : β) {f : β → StoreProg D (ArtifactUri D × D)}, P (f a) w →
      P (Prog.lift (.ok a) >>= f) w := fun _ _ hnext => hseq rfl hnext
  unfold processArxivDocument
  apply hseq (paper_run h.found)
  apply hlift paper
  rw [h.kept]
  simp only [Bool.false_eq_true, if_false]
  apply hseq (document_run hsound)
  rw [hcurrent]
  simp only
  rw [hreuse]
  apply hlift reuse
  rw [hjob]
  apply hlift job
  rw [hmodal]
  apply hlift output
  rw [hextracted]
  apply hlift (result, tree)
  exact hpublish

/-- The run returns the location of the processing, and its row is published. -/
def Publishes (w : OcrWorld D) (documentId : String) (config : OcrConfig)
    (modal : OcrJob D → Except Raised OutputDirectory) (paper : Paper D) (result : OcrOutput D)
    (now : Instant) : Prop :=
  ∃ w', (processArxivDocument documentId config modal now).run storeAnswer w =
      (.ok (⟨documentId, result.processingId⟩, result.processingId), w') ∧
    newDocument documentId config paper result now ∈ w'.documents ∧
    Published w' (newDocument documentId config paper result now)

/-- The run fails at a file. -/
def Collides (w : OcrWorld D) (documentId : String) (config : OcrConfig)
    (modal : OcrJob D → Except Raised OutputDirectory) (result : OcrOutput D) (now : Instant)
    (file : List String × Bytes) : Prop :=
  ∃ w', (processArxivDocument documentId config modal now).run storeAnswer w =
    (.error (artifactCollision ⟨⟨documentId, result.processingId⟩, file.1⟩), w')

omit [Gzip] [TarZst] in
/-- The files of an extracted tree have different paths. -/
theorem ExtractedFor.paths {job : OcrJob D} (h : ExtractedFor job result tree)
    (hstate : result.state = .succeeded) :
    ((sortOn Prod.fst tree.files).map Prod.fst).Nodup := by
  obtain ⟨manifest, -, -, -, hcarries⟩ := h.succeeded hstate
  exact ((sortOn_perm _ _).map Prod.fst).nodup_iff.mpr hcarries.once

/-- What a run whose OCR succeeds comes to is what its publication comes to. -/
theorem process_run (hsound : Sound w)
    (h : Succeeds w documentId config modal paper result tree) {now : Instant}
    {outcome : Except Raised (ArtifactUri D × D) × OcrWorld D}
    (hrun : Prog.run storeAnswer (do
      ArxivOcrStore.publish (newDocument documentId config paper result now) tree result
      pure (⟨documentId, result.processingId⟩, result.processingId)) w = outcome) :
    (processArxivDocument documentId config modal now).run storeAnswer w = outcome := by
  apply process_of_publish hsound h now (P := fun program w => program.run storeAnswer w = outcome)
  · intro β program f a w w' hpart hrest
    rw [Prog.run_bind_ok hpart, hrest]
  · exact hrun

omit [Gzip] [TarZst] in
theorem mem_upsert (w : OcrWorld D) (row : OcrDocument D) :
    row ∈ (storeAnswer (.upsert row) w).1.documents :=
  List.mem_append_right _ (List.mem_singleton.mpr rfl)

/-- A run that has written its row has published it. -/
theorem publishes_of_run (hsound : Sound w)
    (h : Succeeds w documentId config modal paper result tree) {now : Instant} {w' : OcrWorld D}
    (hrun : (ArxivOcrStore.publish (newDocument documentId config paper result now) tree
      result).run storeAnswer w = (.ok (), w'))
    (hrow : newDocument documentId config paper result now ∈ w'.documents) :
    Publishes w documentId config modal paper result now := by
  have hprocess : (processArxivDocument documentId config modal now).run storeAnswer w =
      (.ok (⟨documentId, result.processingId⟩, result.processingId), w') := by
    apply process_run hsound h
    rw [Prog.run_bind_ok hrun]
    rfl
  have hreturns : Returns StoreStep (processArxivDocument documentId config modal now) w _ _ :=
    Prog.run_returns storeAnswer_step
  have hlast := (processArxivDocument_secures documentId config modal now hsound).visits
    hreturns.visits
  rw [hprocess] at hlast
  exact ⟨w', hprocess, hrow, (hlast.published _ hrow).1⟩

/-- **A run whose OCR succeeds publishes, or collides with another content.** -/
theorem publishes_or_collides (hsound : Sound w)
    (h : Succeeds w documentId config modal paper result tree) (now : Instant) :
    ((result.state = .reused ∨ ∀ file ∈ tree.files, Agrees w ⟨documentId, result.processingId⟩ file) ∧
      Publishes w documentId config modal paper result now) ∨
    (result.state = .succeeded ∧ ∃ file ∈ tree.files,
      ¬Agrees w ⟨documentId, result.processingId⟩ file ∧
      Collides w documentId config modal result now file) := by
  obtain ⟨reuse, job, output, hreuse, hjob, hmodal, hextracted⟩ := h.extracted
  have hfor := extractOcrOutput_extracted hextracted
  cases hstate : result.state with
  | reused =>
      have hrun : (ArxivOcrStore.publish (newDocument documentId config paper result now) tree
          result).run storeAnswer w =
            (.ok (), (storeAnswer (.upsert (newDocument documentId config paper result now)) w).1) := by
        unfold ArxivOcrStore.publish
        rw [if_neg (by simp [hstate])]
        rfl
      exact .inl ⟨.inl rfl, publishes_of_run hsound h hrun (mem_upsert w _)⟩
  | succeeded =>
      have hpublish : ArxivOcrStore.publish (newDocument documentId config paper result now) tree
          result = (do
            ArxivOcrStore.publishFiles ⟨documentId, result.processingId⟩ (sortOn Prod.fst tree.files)
            (StoreOp.upsert (newDocument documentId config paper result now)).perform) := by
        unfold ArxivOcrStore.publish
        rw [if_pos hstate]
        rfl
      rcases publishFiles_run ⟨documentId, result.processingId⟩ _ (hfor.paths hstate) w with
        ⟨hall, w₁, hrun⟩ | ⟨file, hfile, hcollides, w₁, hrun⟩
      · have hwritten : (ArxivOcrStore.publish (newDocument documentId config paper result now) tree
            result).run storeAnswer w =
              (.ok (), (storeAnswer (.upsert (newDocument documentId config paper result now)) w₁).1) := by
          rw [hpublish, Prog.run_bind_ok hrun]
          rfl
        exact .inl ⟨.inr fun file hfile => hall file (mem_sortOn.mpr hfile),
          publishes_of_run hsound h hwritten (mem_upsert w₁ _)⟩
      · refine .inr ⟨rfl, file, mem_sortOn.mp hfile, hcollides, w₁, ?_⟩
        apply process_run hsound h
        rw [hpublish]
        exact Prog.run_bind_error (Prog.run_bind_error hrun)

omit [Gzip] [TarZst] in
theorem OcrConfig.job_of {config : OcrConfig} {documentId pdfUrl : String}
    {reuse : Option (OcrReuseReference D)} (hdocument : isTextOfLength 1 255 documentId = true)
    (hsecure : "https://".toList.isPrefixOf pdfUrl.toList = true)
    (hidentified : ∀ reference ∈ reuse, reference.processingId =
      processingId documentId reference.pdfSha256 config.configurationHash)
    (sourceRecordSha256 : D) :
    ∃ job, config.job documentId sourceRecordSha256 pdfUrl reuse = .ok job := by
  unfold OcrConfig.job
  rw [ensure_of hdocument, ok_bind, ensure_of hsecure, ok_bind, ensure_of hidentified, ok_bind]
  exact ⟨_, rfl⟩

omit [Gzip] [TarZst] in
/-- A sound world gives every job a lineage that it accepts. -/
theorem job_composed (hsound : Sound w) (documentId : String) (config : OcrConfig) :
    ∃ reuse, reuseOf config (w.document documentId) = .ok reuse ∧
      ∀ sourceRecordSha256 pdfUrl, isTextOfLength 1 255 documentId = true →
        "https://".toList.isPrefixOf pdfUrl.toList = true →
        ∃ job, config.job documentId sourceRecordSha256 pdfUrl reuse = .ok job := by
  have hnone : ∀ sourceRecordSha256 : D, ∀ pdfUrl, isTextOfLength 1 255 documentId = true →
      "https://".toList.isPrefixOf pdfUrl.toList = true →
      ∃ job, config.job documentId sourceRecordSha256 pdfUrl none = .ok job := by
    intro sourceRecordSha256 pdfUrl hdocument hsecure
    exact OcrConfig.job_of hdocument hsecure
      (fun reference hreference => absurd hreference (Option.not_mem_none reference)) _
  cases hfound : w.document documentId with
  | none => exact ⟨none, rfl, hnone⟩
  | some row =>
      have hrow : row ∈ w.documents := List.mem_of_find?_eq_some hfound
      have hid : row.arxivId = documentId := by simpa using List.find?_some hfound
      obtain ⟨hprocessing, hsized⟩ := (hsound.published row hrow).2
      unfold reuseOf
      dsimp only
      by_cases hconfig : row.configHash = config.configurationHash
      · rw [if_pos hconfig]
        unfold OcrReuseReference.modelValidate
        rw [ensure_of hsized]
        refine ⟨some _, rfl, ?_⟩
        intro sourceRecordSha256 pdfUrl hdocument hsecure
        apply OcrConfig.job_of hdocument hsecure
        intro reference hreference
        obtain rfl := Option.some.inj hreference
        rw [hid, hconfig] at hprocessing
        exact hprocessing
      · rw [if_neg hconfig]
        exact ⟨none, rfl, hnone⟩

end Recovery

namespace Rehearsal

variable [Gzip]

def config (limits : OcrLimits) : OcrConfig :=
  ⟨"1", "1", limits, ⟨"model", "main"⟩, ⟨"layout", "main"⟩, .obj []⟩

def paper : Paper Bytes where
  arxivId := "2401.00001"
  oaiIdentifier := "oai:arXiv.org:2401.00001"
  title := none
  abstract := none
  licenseUri := none
  doi := none
  journalRef := none
  comments := none
  createdDate := none
  updatedDate := none
  oaiDatestamp := 0
  pdfUrl := "https://arxiv.org/pdf/2401.00001"
  isDeleted := false
  sourceRecordSha256 := [1]

/-- A store with the paper, and nothing published. -/
def harvested : OcrWorld Bytes := ⟨[paper], [], fun _ => none⟩

def location : ArtifactUri Bytes := ⟨"2401.00001", processing⟩

/-- What the client extracts for a content. -/
def extracted (content : String) : ExtractedTree :=
  publishedTree (sampleDirectory (Gzip.compress (bundleText (bundle content)))
      (Gzip.compress (elementLines [element content])))
    (manifest (Gzip.compress (bundleText (bundle content)))
      (Gzip.compress (elementLines [element content])))

/-- The elements come first. -/
theorem sortOn_extracted (content : String) : ∃ rest, sortOn Prod.fst (extracted content).files =
    (pathParts elementsPath, Gzip.compress (elementLines [element content])) :: rest := by
  have hfirst : pathParts elementsPath ≤ pathParts visualizationPath := by decide
  have hthird : pathParts visualizationPath ≤ [documentManifestPath] := by decide
  have hpages : ¬pathParts pageMarkdownBundlePath ≤ [documentManifestPath] := by decide
  unfold extracted publishedTree documentTree
  rw [wholeMembers_files, sortedFiles_sample]
  simp [sampleFiles, placed, sortOn, hfirst, hthird, hpages]

/-- Limits within which the document is extracted. -/
def room (content : String) : Nat :=
  size (Gzip.compress (bundleText (bundle content)))
    (Gzip.compress (elementLines [element content])) + (bundleText (bundle content)).length

omit [Gzip] in
theorem job_config (limits : OcrLimits) :
    (config limits).job "2401.00001" [1] "https://arxiv.org/pdf/2401.00001" none =
      .ok (job limits) := by
  have hdocument : isTextOfLength 1 255 "2401.00001" = true := by decide
  have hsecure : "https://".toList.isPrefixOf "https://arxiv.org/pdf/2401.00001".toList = true := by
    decide
  have hidentified := no_reuse fun reference => reference.processingId =
    processingId "2401.00001" reference.pdfSha256 (config limits).configurationHash
  unfold OcrConfig.job
  rw [ensure_of hdocument, ok_bind, ensure_of hsecure, ok_bind, ensure_of hidentified, ok_bind]
  rfl

/-- The document is extracted within limits that leave room. -/
theorem extractOcrOutput_sample {content : String} (hcontent : content ≠ "") {extra : Nat}
    (hroom : room content ≤ extra) : ∃ output result,
      extractOcrOutput output (job (limits extra)) = .ok (result, extracted content) ∧
        result.state = .succeeded ∧ result.processingId = processing := by
  have hextra : extra ≤ (limits extra).maxOutputBytes := Nat.le_add_left _ _
  have hsize : size (Gzip.compress (bundleText (bundle content)))
      (Gzip.compress (elementLines [element content])) ≤ (limits extra).maxOutputBytes :=
    (Nat.le_add_right _ _).trans (hroom.trans hextra)
  have hlength : (bundleText (bundle content)).length ≤ (limits extra).maxOutputBytes :=
    (Nat.le_add_left _ _).trans (hroom.trans hextra)
  have hprocessed := processed hcontent (limits extra) hsize
  obtain ⟨output, hcommit⟩ := committed (Gzip.compress (bundleText (bundle content)))
    (Gzip.compress (elementLines [element content])) (limits extra) "2026-01-01T00:00:00Z"
  obtain ⟨elements, pages, ⟨hlayout, hbundle⟩, hdocument⟩ := processDocument_ok hprocessed
  obtain ⟨hlayout', hbundle'⟩ := writes hcontent (limits extra)
  obtain rfl := Except.ok.inj (hlayout.symm.trans hlayout')
  obtain rfl := Except.ok.inj (hbundle.symm.trans hbundle')
  obtain ⟨result, hvalidated, hcommitted⟩ := commitOutput_ok hcommit
  have hmembers : 3 ≤ maxMembers := by decide
  have hlineage := Except.ok.inj hcommitted.lineage
  refine ⟨output, result, ?_, hcommitted.state, (Prod.mk.inj hlineage).1.symm⟩
  exact (extractOcrOutput_committed hdocument rfl hvalidated hcommitted _).mpr
    ⟨⟨no_reuse _, hmembers, hlength⟩, rfl⟩

/-- Two contents have different elements. -/
theorem elements_ne {first second : String} (h : first ≠ second) :
    Gzip.compress (elementLines [element first]) ≠ Gzip.compress (elementLines [element second]) := by
  intro hsame
  have hdelivered := congrArg Gzip.decompress hsame
  rw [Gzip.decompress_compress, Gzip.decompress_compress] at hdelivered
  have hlines := congrArg GzipStream.delivered hdelivered
  dsimp only at hlines
  rw [elementLines_eq, elementLines_eq, List.flatMap_singleton, List.flatMap_singleton] at hlines
  have hread := validateJson_elementLine (element first)
  rw [hlines, validateJson_elementLine] at hread
  have helement : element second = element first := Except.ok.inj hread
  exact h (congrArg (fun element => element.textContent) helement).symm

section Sample

variable {content : String} {extra : Nat} {output : OutputDirectory} {result : OcrOutput Bytes}
  {w : OcrWorld Bytes}

/-- The OCR of the document succeeds wherever the paper is there and has no row. -/
theorem succeeds (hextracted : extractOcrOutput output (job (limits extra)) = .ok (result, extracted content))
    (hpapers : w.papers = [paper]) (hdocuments : w.documents = []) :
    Succeeds w "2401.00001" (config (limits extra)) (fun _ => .ok output) paper result
      (extracted content) := by
  have hdocument : w.document "2401.00001" = none := by
    rw [OcrWorld.document, hdocuments]
    rfl
  refine ⟨?_, rfl, ?_, none, job (limits extra), output, ?_, job_config (limits extra), rfl, hextracted⟩
  · rw [hpapers]
    rfl
  · intro row hrow
    rw [hdocument] at hrow
    exact absurd hrow (Option.not_mem_none row)
  · rw [hdocument]
    rfl

/-- The first upload of a content, after which its run is cut off. -/
def interrupted (content : String) : OcrWorld Bytes :=
  harvested.store ⟨location, pathParts elementsPath⟩
    ⟨Gzip.compress (elementLines [element content]),
      ContentHash.digest (Gzip.compress (elementLines [element content]))⟩

theorem interrupted_tables (content : String) : (interrupted content).papers = [paper] ∧
    (interrupted content).documents = [] := ⟨rfl, rfl⟩

theorem interrupted_object : (interrupted content).objects ⟨location, pathParts elementsPath⟩ =
    some ⟨Gzip.compress (elementLines [element content]),
      ContentHash.digest (Gzip.compress (elementLines [element content]))⟩ := by
  rw [interrupted, OcrWorld.store_objects, if_pos rfl]

theorem interrupted_history (hcontent : content ≠ "") : OcrHistory (interrupted content) := by
  obtain ⟨output, result, hextracted, hstate, hprocessing⟩ :=
    extractOcrOutput_sample hcontent (le_refl (room content))
  have hstart : OcrHistory harvested := .start [paper]
  have hsucceeds := succeeds hextracted (w := harvested) rfl rfl
  obtain ⟨rest, hfiles⟩ := sortOn_extracted content
  apply hstart.run "2401.00001" (config (limits (room content))) (fun _ => .ok output) 0
  apply process_of_publish hstart.sound hsucceeds 0
    (P := fun program w => Visits StoreStep program w (interrupted content))
  · intro β program f a w w' hpart hrest
    exact visits_bind_ok storeAnswer_step hpart hrest
  · apply Visits.bind
    unfold ArxivOcrStore.publish
    rw [if_pos hstate, hfiles]
    apply Visits.bind
    unfold ArxivOcrStore.publishFiles
    apply Visits.bind
    have hrun : (ArxivOcrStore.publishFile ⟨location, pathParts elementsPath⟩
        (Gzip.compress (elementLines [element content]))).run storeAnswer harvested =
          (.ok (), interrupted content) := by
      unfold ArxivOcrStore.publishFile
      rw [Prog.run_bind_ok (headObject_run harvested _)]
      rfl
    have hreturns : Returns StoreStep (ArxivOcrStore.publishFile ⟨location, pathParts elementsPath⟩
        (Gzip.compress (elementLines [element content]))) harvested _ _ :=
      Prog.run_returns storeAnswer_step
    rw [hrun] at hreturns
    have huri : (newDocument "2401.00001" (config (limits (room content))) paper result 0).artifactUri =
        location := congrArg (ArtifactUri.mk "2401.00001") hprocessing
    rw [huri]
    exact hreturns.visits

/-- Another content collides with what was left, and leaves it as it is. -/
theorem interrupted_collides {first : String} (hfirst : first ≠ "") (hother : first ≠ content)
    (hextracted : extractOcrOutput output (job (limits extra)) = .ok (result, extracted content))
    (hstate : result.state = .succeeded) (hprocessing : result.processingId = processing)
    (now : Instant) :
    (processArxivDocument "2401.00001" (config (limits extra)) (fun _ => .ok output) now).run
      storeAnswer (interrupted first) =
        (.error (artifactCollision ⟨location, pathParts elementsPath⟩), interrupted first) := by
  have hsucceeds := succeeds hextracted (interrupted_tables first).1 (interrupted_tables first).2
  obtain ⟨rest, hfiles⟩ := sortOn_extracted content
  have huri : (newDocument "2401.00001" (config (limits extra)) paper result now).artifactUri =
      location := congrArg (ArtifactUri.mk "2401.00001") hprocessing
  have hdisagrees : ¬Agrees (interrupted first) location
      (pathParts elementsPath, Gzip.compress (elementLines [element content])) := by
    intro hagrees
    have hsame := (hagrees _ interrupted_object).1
    exact elements_ne hother (spelled_distinct hsame)
  have hfile := publishFile_collides hdisagrees
  dsimp only at hfile
  apply process_run (interrupted_history hfirst).sound hsucceeds
  unfold ArxivOcrStore.publish
  rw [if_pos hstate, hfiles, huri]
  unfold ArxivOcrStore.publishFiles
  exact Prog.run_bind_error (Prog.run_bind_error (Prog.run_bind_error hfile))

end Sample

end Rehearsal

end MiniLakehouse.Ocr
