import MiniLakehouse.Ocr.Extraction

/-!
# Rejected outputs

Which errors leave the readers of an output.  A result, an archive or a compressed content
that is malformed is rejected with one of the two errors that the callers handle, except where
the code handles too little: a truncated content of the elements, a content that zlib refuses,
a member with a null byte in its path, and a directory in the place of the manifest.
-/

namespace MiniLakehouse.Ocr

variable {α β : Type}

/-! ## Errors that are not typed -/

/-- A result fails with typed errors only. -/
def FailsTyped (result : Except Raised α) : Prop :=
  ∀ error, result = .error error → error.isTyped = true

/-- An error that the callers do not handle leaves. -/
def Escapes (result : Except Raised α) : Prop :=
  ∃ error, result = .error error ∧ error.isTyped = false

theorem failsTyped_iff {result : Except Raised α} : FailsTyped result ↔ ¬Escapes result := by
  simp [FailsTyped, Escapes]

@[simp] theorem escapes_ok (value : α) : ¬Escapes (.ok value) := by simp [Escapes]

@[simp] theorem escapes_error {error : Raised} :
    Escapes (.error error : Except Raised α) ↔ error.isTyped = false := by
  simp [Escapes]

theorem escapes_bind {x : Except Raised α} {f : α → Except Raised β} :
    Escapes (x >>= f) ↔ Escapes x ∨ ∃ value, x = .ok value ∧ Escapes (f value) := by
  cases x with
  | error error => simp [Escapes, bind, Except.bind]
  | ok value => simp [Escapes, bind, Except.bind]

@[simp] theorem escapes_pure (value : α) : ¬Escapes (pure value : Except Raised α) :=
  escapes_ok value

theorem escapes_require {p : Prop} [Decidable p] {error : Raised} (h : error.isTyped = true) :
    ¬Escapes (require p error) := by
  unfold require
  split
  · exact escapes_ok _
  · simp [h]

/-- A typed check in front of the rest. -/
theorem escapes_require_bind {p : Prop} [Decidable p] {error : Raised} {f : Unit → Except Raised α}
    (h : error.isTyped = true) : Escapes (require p error >>= f) ↔ p ∧ Escapes (f ()) := by
  rw [escapes_bind]
  constructor
  · intro hescapes
    rcases hescapes with hrequire | ⟨checked, hchecked, hrest⟩
    · exact absurd hrequire (escapes_require h)
    · exact ⟨require_eq_ok.mp hchecked, hrest⟩
  · exact fun hboth => .inr ⟨(), require_of hboth.1, hboth.2⟩

theorem escapes_mapError {x : Except Raised α} {handle : Raised → Raised}
    (h : ∀ error, (handle error).isTyped = true) : ¬Escapes (x.mapError handle) := by
  cases x with
  | ok value => simp [Except.mapError]
  | error error => simp [Except.mapError, h error]

section Readers

variable {D : Type} [ContentHash D] [Gzip]

/-! ## Pages -/

/-- The content is refused by zlib before it exceeds the limit. -/
def PagesRefused (source : Bytes) (limit : Nat) : Prop :=
  (∃ message, (Gzip.decompress source).failure = some (.zlibError message)) ∧
    (Gzip.decompress source).delivered.length ≤ limit

omit [Gzip] in
/-- What was read is a bundle, or is rejected with the error of bundles. -/
theorem pagesOf_cases (payload : Bytes) (limit : Nat) :
    (∃ bundle, pagesOf payload limit = .ok bundle ∧ payload.length ≤ limit ∧
      validateJson OcrPageMarkdownBundle.modelValidate payload = .ok bundle) ∨
    ∃ message, pagesOf payload limit = .error (.invalidPageMarkdownBundle message) ∧
      ¬(payload.length ≤ limit ∧
        ∃ bundle, validateJson OcrPageMarkdownBundle.modelValidate payload = .ok bundle) := by
  unfold pagesOf
  by_cases hsize : payload.length ≤ limit
  · rw [require_of hsize, ok_bind]
    cases validateJson OcrPageMarkdownBundle.modelValidate payload with
    | error error => exact .inr ⟨_, rfl, by simp⟩
    | ok bundle => exact .inl ⟨bundle, rfl, hsize, rfl⟩
  · rw [require, if_neg hsize]
    exact .inr ⟨_, rfl, fun hboth => hsize hboth.1⟩

omit [Gzip] in
theorem escapes_pagesOf (payload : Bytes) (limit : Nat) : ¬Escapes (pagesOf payload limit) := by
  rcases pagesOf_cases payload limit with ⟨bundle, hbundle, -⟩ | ⟨message, hmessage, -⟩
  · rw [hbundle]
    exact escapes_ok bundle
  · rw [hmessage]
    simp [Raised.isTyped]

theorem escapes_readPageMarkdownBundle (source : Bytes) (limit : Nat) :
    Escapes (readPageMarkdownBundle source limit) ↔ PagesRefused source limit := by
  unfold readPageMarkdownBundle PagesRefused
  rw [escapes_bind]
  unfold readBounded
  by_cases hlimit : limit < (Gzip.decompress source).delivered.length
  · rw [if_pos hlimit]
    constructor
    · intro hescapes
      rcases hescapes with hescapes | ⟨payload, -, hescapes⟩
      · exact absurd hescapes (escapes_ok _)
      · exact absurd hescapes (escapes_pagesOf payload limit)
    · exact fun hboth => absurd hboth.2 (not_le.mpr hlimit)
  · rw [if_neg hlimit]
    have hwithin := not_lt.mp hlimit
    cases hfailure : (Gzip.decompress source).failure with
    | none => simp [escapes_pagesOf]
    | some failure =>
        cases failure with
        | badGzipFile message => simp [bundleFailure, Raised.isTyped]
        | eofError message => simp [bundleFailure, Raised.isTyped]
        | zlibError message => simp [bundleFailure, Raised.isTyped, hwithin]

/-! ## Elements -/

/-- Lines that are elements, from a count of bytes on. -/
def ElementLines (D : Type) [ContentHash D] (limit consumed : Nat) (lines : List Bytes) : Prop :=
  consumed + (lines.map List.length).sum ≤ limit ∧ ∀ line ∈ lines, ∃ element,
    validateJson (OcrElement.modelValidate (D := D)) line = .ok element

omit [Gzip] in
/-- Lines are read, or rejected with a typed error. -/
theorem readElementLines_cases (limit : Nat) (lines : List Bytes) (number consumed : Nat)
    (h : consumed ≤ limit) :
    ¬Escapes (readElementLines (D := D) limit number consumed lines) ∧
      ((∃ elements, readElementLines (D := D) limit number consumed lines = .ok elements) ↔
        ElementLines D limit consumed lines) := by
  induction lines generalizing number consumed with
  | nil => exact ⟨escapes_ok _, by simp [readElementLines, ElementLines, h]⟩
  | cons line lines ih =>
      rw [readElementLines]
      by_cases hline : consumed + line.length ≤ limit
      case neg =>
        rw [escapes_require_bind (by rfl)]
        refine ⟨fun hboth => hline hboth.1, ?_⟩
        simp only [require, if_neg hline, ElementLines, List.map_cons, List.sum_cons]
        refine iff_of_false ?_ ?_
        · intro hread
          obtain ⟨elements, hread⟩ := hread
          cases hread
        · exact fun hlines => hline (by omega)
      case pos =>
        obtain ⟨hrest, hiff⟩ := ih (number + 1) (consumed + line.length) hline
        rw [require_of hline, ok_bind]
        cases helement : validateJson (OcrElement.modelValidate (D := D)) line with
        | error error =>
            refine ⟨by simp [Except.mapError, bind, Except.bind, Raised.isTyped], ?_⟩
            refine iff_of_false ?_ ?_
            · intro hread
              obtain ⟨elements, hread⟩ := hread
              cases hread
            · intro hlines
              obtain ⟨element, hvalid⟩ := hlines.2 line List.mem_cons_self
              rw [helement] at hvalid
              cases hvalid
        | ok element =>
            simp only [Except.mapError, ok_bind]
            constructor
            · rw [escapes_bind]
              intro hescapes
              rcases hescapes with hescapes | ⟨elements, -, hescapes⟩
              · exact hrest hescapes
              · exact absurd hescapes (escapes_pure _)
            · have hcount : ElementLines D limit consumed (line :: lines) ↔
                  ElementLines D limit (consumed + line.length) lines := by
                simp [ElementLines, helement, Nat.add_assoc]
              rw [hcount, ← hiff]
              cases readElementLines (D := D) limit (number + 1) (consumed + line.length) lines with
              | error error => simp [bind, Except.bind]
              | ok elements => exact iff_of_true ⟨_, rfl⟩ ⟨_, rfl⟩

/-- The content ends in an error that the code does not handle, after lines that it accepts. -/
def ElementsRefused (D : Type) [ContentHash D] (source : Bytes) (limit : Nat) : Prop :=
  (∃ message, (Gzip.decompress source).failure = some (.eofError message) ∨
      (Gzip.decompress source).failure = some (.zlibError message)) ∧
    ElementLines D limit 0 (Gzip.decompress source).lines

theorem escapes_readElements (source : Bytes) (limit pageCount : Nat) :
    Escapes (readElements (D := D) source limit pageCount) ↔ ElementsRefused D source limit := by
  obtain ⟨hlines, hiff⟩ := readElementLines_cases (D := D) limit
    (Gzip.decompress source).lines 1 0 (Nat.zero_le _)
  unfold readElements ElementsRefused
  dsimp only
  rw [escapes_bind, ← hiff]
  have hrest : ∀ elements : List (OcrElement D), ¬Escapes (do
      require (elements.map fun element => element.elementId).Nodup
        (.invalidOcrArchive "OCR element IDs must be unique")
      require (elements.map fun element => (element.pageNumber, element.readingOrder)).Nodup
        (.invalidOcrArchive "OCR page/reading-order positions must be unique")
      require (elements ≠ []) (.invalidOcrArchive "Successful OCR output contains no elements")
      require (∀ element ∈ elements, element.pageNumber ≤ pageCount)
        (.invalidOcrArchive "OCR element page exceeds the document page count")
      pure elements) := by
    intro elements
    rw [escapes_require_bind (by rfl), escapes_require_bind (by rfl),
      escapes_require_bind (by rfl), escapes_require_bind (by rfl)]
    simp
  simp only [hlines, false_or]
  cases hfailure : (Gzip.decompress source).failure with
  | none =>
      refine iff_of_false ?_ (by simp)
      intro hescapes
      obtain ⟨elements, -, hescapes⟩ := hescapes
      exact hrest elements hescapes
  | some failure =>
      cases failure with
      | badGzipFile message =>
          simp [elementsFailure, Raised.isTyped, bind, Except.bind]
      | eofError message =>
          simp [elementsFailure, Raised.isTyped, bind, Except.bind]
      | zlibError message =>
          simp [elementsFailure, Raised.isTyped, bind, Except.bind]

/-! ## Outputs -/

variable [TarZst]

omit [Gzip] [TarZst] in
theorem escapes_validateOcrOutput (directory : OutputDirectory) (expectedJobId : Option D) :
    ¬Escapes (validateOcrOutput directory expectedJobId) := by
  unfold validateOcrOutput
  split
  · exact escapes_mapError fun _ => rfl
  · simp [Raised.isTyped]
  · simp [Raised.isTyped]
  · simp [Raised.isTyped]

omit [Gzip] [TarZst] in
theorem escapes_lineageChecks (job : OcrJob D) (output : OcrOutput D) :
    ¬Escapes (lineageChecks job output) := by
  unfold lineageChecks
  split
  · exact escapes_require rfl
  · exact escapes_require rfl

omit [Gzip] [TarZst] in
theorem escapes_validateArtifact (tree : ExtractedTree) (artifact : ArtifactFile D) :
    ¬Escapes (validateArtifact tree artifact) := by
  unfold validateArtifact
  split
  · simp [Raised.isTyped]
  · exact escapes_require rfl

/-- The file of the tree is what the manifest says. -/
def Recorded (tree : ExtractedTree) (artifact : ArtifactFile D) : Prop :=
  ∃ body, tree.read (pathParts artifact.relativePath) = some body ∧
    body.length = artifact.sizeBytes ∧ ContentHash.digest body = artifact.sha256

omit [Gzip] [TarZst] in
theorem validateArtifact_ok (tree : ExtractedTree) (artifact : ArtifactFile D) :
    validateArtifact tree artifact = .ok () ↔ Recorded tree artifact := by
  unfold validateArtifact Recorded
  cases tree.read (pathParts artifact.relativePath) with
  | none => simp
  | some body => simp

omit [Gzip] [TarZst] in
theorem validateArtifacts_cases (tree : ExtractedTree) (files : List (ArtifactFile D)) :
    ¬Escapes (files.forM (validateArtifact tree)) ∧
      (files.forM (validateArtifact tree) = .ok () ↔ ∀ artifact ∈ files, Recorded tree artifact) := by
  induction files with
  | nil => exact ⟨escapes_pure _, by simp [pure, Except.pure]⟩
  | cons artifact files ih =>
      obtain ⟨hrest, hiff⟩ := ih
      have hcons : (artifact :: files).forM (validateArtifact tree) =
          validateArtifact tree artifact >>= fun _ => files.forM (validateArtifact tree) := rfl
      rw [hcons, escapes_bind]
      constructor
      · intro hescapes
        rcases hescapes with hescapes | ⟨checked, -, hescapes⟩
        · exact escapes_validateArtifact tree artifact hescapes
        · exact hrest hescapes
      · rw [bind_eq_ok, List.forall_mem_cons, ← hiff, ← validateArtifact_ok]
        exact ⟨fun h => h.elim fun _ hboth => hboth, fun h => ⟨(), h⟩⟩

/-- The content of the pages is a bundle with a number of pages. -/
def PagesReadable (source : Bytes) (limit pageCount : Nat) : Prop :=
  (Gzip.decompress source).failure = none ∧ (Gzip.decompress source).delivered.length ≤ limit ∧
    ∃ bundle, validateJson OcrPageMarkdownBundle.modelValidate (Gzip.decompress source).delivered =
      .ok bundle ∧ bundle.pages.length = pageCount

/-- A tree with the files of a manifest and no others, as far as the reading of the pages. -/
structure ReachesPages (limit : Nat) (tree : ExtractedTree) (manifest : OcrDocumentManifest D)
    (pages : Bytes) : Prop where
  tracked : ∀ file ∈ tree.files, file.1 ∈ manifest.files.map fun file => pathParts file.relativePath
  sized : totalSize manifest.files + (canonicalJsonBytes manifest.modelDump).length ≤ limit
  recorded : ∀ artifact ∈ manifest.files, Recorded tree artifact
  pages : tree.read (pathParts pageMarkdownBundlePath) = some pages

omit [TarZst] in
/-- The pages are read, or rejected with an error that is typed unless zlib refuses them. -/
theorem readPageMarkdownBundle_ok {source : Bytes} {limit pageCount : Nat} :
    (∃ bundle, readPageMarkdownBundle source limit = .ok bundle ∧ bundle.pages.length = pageCount) ↔
      PagesReadable source limit pageCount := by
  unfold readPageMarkdownBundle readBounded PagesReadable
  by_cases hlimit : limit < (Gzip.decompress source).delivered.length
  · rw [if_pos hlimit, ok_bind]
    refine iff_of_false ?_ fun hreadable => absurd hreadable.2.1 (not_le.mpr hlimit)
    intro hread
    obtain ⟨bundle, hread, -⟩ := hread
    rcases pagesOf_cases ((Gzip.decompress source).delivered.take (limit + 1)) limit with
      ⟨found, -, hsize, -⟩ | ⟨message, hmessage, -⟩
    · rw [List.length_take] at hsize
      omega
    · rw [hmessage] at hread
      cases hread
  · rw [if_neg hlimit]
    cases (Gzip.decompress source).failure with
    | some failure => simp
    | none =>
        rw [Option.elim_none, ok_bind]
        rcases pagesOf_cases (Gzip.decompress source).delivered limit with
          ⟨found, hfound, hsize, hvalid⟩ | ⟨message, hmessage, hnot⟩
        · simp [hfound, hsize, hvalid]
        · rw [hmessage]
          refine iff_of_false (by simp) ?_
          intro hreadable
          obtain ⟨-, hsize, bundle, hvalid, -⟩ := hreadable
          exact hnot ⟨hsize, bundle, hvalid⟩

omit [TarZst] in
/-- What the reading of the pages raises. -/
theorem readPageMarkdownBundle_error {source : Bytes} {limit : Nat} {error : Raised}
    (h : readPageMarkdownBundle source limit = .error error) :
    (∃ message, error = .invalidPageMarkdownBundle message) ∨
      ∃ message, error = .zlibError message := by
  by_cases htyped : error.isTyped = true
  · unfold readPageMarkdownBundle readBounded at h
    have hparsed : ∀ payload : Bytes, pagesOf payload limit = .error error →
        ∃ message, error = .invalidPageMarkdownBundle message := by
      intro payload hpayload
      rcases pagesOf_cases payload limit with ⟨bundle, hbundle, -⟩ | ⟨message, hmessage, -⟩
      · rw [hbundle] at hpayload
        cases hpayload
      · rw [hmessage] at hpayload
        exact ⟨message, (Except.error.inj hpayload).symm⟩
    split at h
    · exact .inl (hparsed _ h)
    · cases hfailure : (Gzip.decompress source).failure with
      | none =>
          rw [hfailure] at h
          exact .inl (hparsed _ h)
      | some failure =>
          rw [hfailure] at h
          cases failure with
          | badGzipFile message => exact .inl ⟨_, (Except.error.inj h).symm⟩
          | eofError message => exact .inl ⟨_, (Except.error.inj h).symm⟩
          | zlibError message => exact .inr ⟨_, (Except.error.inj h).symm⟩
  · have hescapes : Escapes (readPageMarkdownBundle source limit) :=
      ⟨error, h, by simpa using htyped⟩
    obtain ⟨⟨message, hmessage⟩, hwithin⟩ := (escapes_readPageMarkdownBundle source limit).mp hescapes
    unfold readPageMarkdownBundle readBounded at h
    rw [if_neg (not_lt.mpr hwithin), hmessage] at h
    exact .inr ⟨message, (Except.error.inj h).symm⟩

omit [TarZst] in
theorem escapes_bundleRaised (source : Bytes) (limit : Nat) :
    Escapes ((readPageMarkdownBundle source limit).mapError bundleRaised) ↔
      PagesRefused source limit := by
  rw [← escapes_readPageMarkdownBundle]
  cases hread : readPageMarkdownBundle source limit with
  | ok bundle => simp [Except.mapError]
  | error error =>
      rcases readPageMarkdownBundle_error hread with ⟨message, rfl⟩ | ⟨message, rfl⟩
      · simp [Except.mapError, bundleRaised, Raised.isTyped]
      · simp [Except.mapError, bundleRaised, Raised.isTyped]

omit [TarZst] in
/-- The validation of a document: when it goes through, and when an error escapes. -/
theorem validateDocument_cases (tree : ExtractedTree) (manifest : OcrDocumentManifest D)
    (limit : Nat) (htracked : ∀ file ∈ tree.files,
      file.1 ∈ manifest.files.map fun file => pathParts file.relativePath) :
    (Escapes (validateDocument tree manifest (canonicalJsonBytes manifest.modelDump) limit) ↔
      ∃ pages, ReachesPages limit tree manifest pages ∧ PagesRefused pages limit) ∧
    (validateDocument tree manifest (canonicalJsonBytes manifest.modelDump) limit = .ok () ↔
      ∃ pages, ReachesPages limit tree manifest pages ∧
        PagesReadable pages limit manifest.pageCount) := by
  obtain ⟨hartifacts, hrecorded⟩ := validateArtifacts_cases tree manifest.files
  unfold validateDocument
  rw [escapes_require_bind (by rfl), escapes_bind]
  simp only [hartifacts, false_or]
  constructor
  · constructor
    · intro hescapes
      obtain ⟨hsized, checked, hchecked, hescapes⟩ := hescapes
      cases hread : tree.read (pathParts pageMarkdownBundlePath) with
      | none =>
          rw [hread] at hescapes
          simp [Raised.isTyped, bind, Except.bind] at hescapes
      | some pages =>
          rw [hread, Option.elim_some, ok_bind, escapes_bind] at hescapes
          refine ⟨pages, ⟨htracked, hsized, hrecorded.mp hchecked, hread⟩, ?_⟩
          rcases hescapes with hescapes | ⟨bundle, -, hescapes⟩
          · exact (escapes_bundleRaised pages limit).mp hescapes
          · exact absurd hescapes (escapes_require rfl)
    · intro hreaches
      obtain ⟨pages, hpages, hrefused⟩ := hreaches
      refine ⟨hpages.sized, (), hrecorded.mpr hpages.recorded, ?_⟩
      rw [hpages.pages, Option.elim_some, ok_bind, escapes_bind]
      exact .inl ((escapes_bundleRaised pages limit).mpr hrefused)
  · simp only [bind_eq_ok, require_eq_ok, ← readPageMarkdownBundle_ok]
    constructor
    · intro hvalid
      obtain ⟨-, hsized, checked, hchecked, source, hsource, bundle, hbundle, hcount⟩ := hvalid
      cases hread : tree.read (pathParts pageMarkdownBundlePath) with
      | none =>
          rw [hread] at hsource
          cases hsource
      | some pages =>
          rw [hread] at hsource
          obtain rfl := Except.ok.inj hsource
          refine ⟨pages, ⟨htracked, hsized, hrecorded.mp hchecked, hread⟩, bundle, ?_, hcount⟩
          cases hpages : readPageMarkdownBundle pages limit with
          | error error =>
              rw [hpages] at hbundle
              cases hbundle
          | ok found =>
              rw [hpages] at hbundle
              exact hbundle
    · intro hreaches
      obtain ⟨pages, hpages, bundle, hbundle, hcount⟩ := hreaches
      refine ⟨(), hpages.sized, (), hrecorded.mpr hpages.recorded, pages, ?_, bundle, ?_, hcount⟩
      · rw [hpages.pages]
        rfl
      · rw [hbundle]
        rfl

/-- An output that matches its job and whose archive has a member with a null byte, a document
whose pages zlib refuses, or a directory in the place of the manifest. -/
def OutputRefused (directory : OutputDirectory) (job : OcrJob D) : Prop :=
  ∃ output archive, validateOcrOutput directory (some job.jobId) = .ok (output, archive) ∧
    output.documentId = job.documentId ∧
    output.processingId = processingId output.documentId output.pdfSha256 job.configHash ∧
    lineageChecks job output = .ok () ∧
    (ReachesNull job.limits.maxOutputBytes (TarZst.unpack archive).members ∨
      (AllFit job.limits.maxOutputBytes (TarZst.unpack archive).members ∧
        (TarZst.unpack archive).failure = none ∧
        ∃ manifest, output.manifest = some manifest ∧
          ∃ pages, ReachesPages job.limits.maxOutputBytes (treeOf (TarZst.unpack archive).members)
            manifest pages ∧
          (PagesRefused pages job.limits.maxOutputBytes ∨
            (PagesReadable pages job.limits.maxOutputBytes manifest.pageCount ∧
              [documentManifestPath] ∈ (treeOf (TarZst.unpack archive).members).directories))))

omit [Gzip] [TarZst] in
theorem escapes_writeManifest (tree : ExtractedTree) (manifestBytes : Bytes) :
    Escapes (writeManifest tree manifestBytes) ↔ [documentManifestPath] ∈ tree.directories := by
  unfold writeManifest
  split
  · next htaken => exact iff_of_true (by simp [Raised.isTyped]) (List.contains_iff_mem.mp htaken)
  · next hfree =>
      refine iff_of_false (escapes_ok _) ?_
      intro htaken
      exact hfree (List.contains_iff_mem.mpr htaken)

omit [TarZst] in
/-- The document of an extracted tree. -/
theorem escapes_document (tree : ExtractedTree) (manifest : OcrDocumentManifest D) (limit : Nat)
    (output : OcrOutput D) :
    (((∀ file ∈ tree.files, file.1 ∈ manifest.files.map fun file => pathParts file.relativePath) ∧
        ∀ path ∈ manifest.files.map fun file => pathParts file.relativePath,
          (tree.read path).isSome = true) ∧
      Escapes (do
        validateDocument tree manifest (canonicalJsonBytes manifest.modelDump) limit
        let written ← writeManifest tree (canonicalJsonBytes manifest.modelDump)
        return (output, written))) ↔
    ∃ pages, ReachesPages limit tree manifest pages ∧ (PagesRefused pages limit ∨
      (PagesReadable pages limit manifest.pageCount ∧
        [documentManifestPath] ∈ tree.directories)) := by
  rw [escapes_bind]
  constructor
  · intro h
    obtain ⟨⟨htracked, -⟩, hescapes⟩ := h
    obtain ⟨hrefused, hvalid⟩ := validateDocument_cases tree manifest limit htracked
    rcases hescapes with hescapes | ⟨checked, hchecked, hescapes⟩
    · obtain ⟨pages, hpages, hzlib⟩ := hrefused.mp hescapes
      exact ⟨pages, hpages, .inl hzlib⟩
    · obtain ⟨pages, hpages, hreadable⟩ := hvalid.mp hchecked
      rw [escapes_bind] at hescapes
      rcases hescapes with hescapes | ⟨written, -, hescapes⟩
      · exact ⟨pages, hpages, .inr ⟨hreadable, (escapes_writeManifest tree _).mp hescapes⟩⟩
      · exact absurd hescapes (escapes_pure _)
  · intro h
    obtain ⟨pages, hpages, hescapes⟩ := h
    obtain ⟨hrefused, hvalid⟩ := validateDocument_cases tree manifest limit hpages.tracked
    refine ⟨⟨hpages.tracked, ?_⟩, ?_⟩
    · intro path hpath
      obtain ⟨artifact, hartifact, rfl⟩ := List.mem_map.mp hpath
      obtain ⟨body, hbody, -⟩ := hpages.recorded artifact hartifact
      rw [hbody]
      rfl
    · rcases hescapes with hzlib | ⟨hreadable, htaken⟩
      · exact .inl (hrefused.mpr ⟨pages, hpages, hzlib⟩)
      · refine .inr ⟨(), hvalid.mpr ⟨pages, hpages, hreadable⟩, ?_⟩
        rw [escapes_bind]
        exact .inl ((escapes_writeManifest tree _).mpr htaken)

theorem escapes_extractOcrOutput (directory : OutputDirectory) (job : OcrJob D) :
    Escapes (extractOcrOutput directory job) ↔ OutputRefused directory job := by
  unfold extractOcrOutput OutputRefused
  rw [escapes_bind]
  simp only [escapes_validateOcrOutput, false_or, Prod.exists]
  apply exists_congr
  intro output
  apply exists_congr
  intro archive
  apply and_congr_right
  intro _
  rw [escapes_require_bind (by rfl), escapes_require_bind (by rfl), escapes_bind]
  simp only [escapes_lineageChecks, false_or]
  apply and_congr_right
  intro _
  apply and_congr_right
  intro _
  have hunit : ∀ result : Except Raised Unit, ∀ rest : Prop,
      (∃ checked, result = .ok checked ∧ rest) ↔ result = .ok () ∧ rest :=
    fun result rest => ⟨fun h => h.elim fun _ hboth => hboth, fun h => ⟨(), h⟩⟩
  rw [hunit]
  apply and_congr_right
  intro _
  rcases extract_cases archive job.limits.maxOutputBytes with
    ⟨hall, hends, hextracted⟩ | ⟨hnot, tree, error, hextracted, htyped⟩
  case inr =>
    rw [hextracted]
    simp only [extractedTree, Option.elim_some, bind, Except.bind, escapes_error, htyped]
    exact ⟨.inl, fun h => h.elim id fun hrest => absurd ⟨hrest.1, hrest.2.1⟩ hnot⟩
  case inl =>
    rw [hextracted]
    simp only [extractedTree, Option.elim_none, ok_bind, hall.not_reachesNull, false_or, hall, hends,
      true_and]
    rw [escapes_require_bind (by rfl)]
    cases output.manifest with
    | none => simp
    | some manifest =>
        dsimp only [Option.elim_some]
        simp only [Option.some.injEq, exists_eq_left']
        exact escapes_document _ manifest _ output

end Readers

namespace Rehearsal

/-- Digests that spell their contents. -/
instance spelledHash : ContentHash Bytes where
  decEq := inferInstance
  digest body := body
  hexdigest body := String.ofList (body.map fun byte => Char.ofNat byte.toNat)
  ofHexdigest text := some (text.toList.map fun char => UInt8.ofNat char.toNat)
  ofHexdigest_hexdigest := by
    intro body
    rw [String.toList_ofList, List.map_map]
    refine congrArg some (List.map_id'' (fun byte => ?_) body)
    have hvalid : byte.toNat.isValidChar := .inl (byte.toNat_lt.trans (by decide))
    simp [Char.ofNat, hvalid]

/-- Contents that stand as they are behind the first bytes of the format. -/
instance storedGzip : Gzip where
  compress body := 31 :: 139 :: 8 :: body
  decompress source :=
    match source with
    | [] => ⟨[], none⟩
    | 31 :: 139 :: 8 :: body => ⟨body, none⟩
    | [31, 139] => ⟨[], some (.eofError
        "Compressed file ended before the end-of-stream marker was reached")⟩
    | _ => ⟨[], some (.badGzipFile "Not a gzipped file")⟩
  decompress_compress _ := rfl

end Rehearsal

end MiniLakehouse.Ocr
