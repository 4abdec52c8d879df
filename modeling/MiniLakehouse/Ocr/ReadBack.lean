import MiniLakehouse.Ocr.Commitment

/-!
# Committed outputs are read back

What the worker writes and what the client reads.  The worker checks the sizes of the
compressed files; the client also those of their contents, the number of the members, and that
unchanged content was not run again.  Where these hold, the pages and the elements that the
client reads are the ones that the worker wrote.
-/

namespace MiniLakehouse.Ocr

variable {D : Type} [ContentHash D]

/-! ## What the worker writes -/

theorem mapError_eq_ok {ε ε' α : Type} {x : Except ε α} {f : ε → ε'} {a : α} :
    x.mapError f = .ok a ↔ x = .ok a := by
  cases x with
  | error error => simp [Except.mapError]
  | ok value => simp [Except.mapError]

/-- The elements and the pages that a document is written with. -/
def Writes (parseJson : String → Option JsonValue) (job : OcrJob D) (prepared : PreparedDocument D)
    (parsed : Parsed) (elements : List (OcrElement D)) (bundle : OcrPageMarkdownBundle) : Prop :=
  layoutElements parseJson job prepared parsed.jsonResult = .ok elements ∧
    buildPageMarkdownBundle elements prepared.pageCount = .ok bundle

/-- The elements are in the order of reading, and none is beyond the pages. -/
theorem Writes.elements {parseJson : String → Option JsonValue} {job : OcrJob D}
    {prepared : PreparedDocument D} {parsed : Parsed} {elements : List (OcrElement D)}
    {bundle : OcrPageMarkdownBundle} (hdistinct : DistinctDigests D)
    (h : Writes parseJson job prepared parsed elements bundle) :
    (elements.map fun element => element.elementId).Nodup ∧
      (elements.map fun element => (element.pageNumber, element.readingOrder)).Nodup ∧
      elements ≠ [] ∧ (∀ element ∈ elements, element.pageNumber ≤ prepared.pageCount) ∧
      bundle.pages.length = prepared.pageCount := by
  obtain ⟨hlayout, hbundle⟩ := h
  unfold layoutElements canonicalElements at hlayout
  simp only [bind_eq_ok, require_eq_ok, pure_eq_ok] at hlayout
  obtain ⟨pages, -, found, hfound, -, hnonempty, rfl⟩ := hlayout
  obtain ⟨hidentified, hordered⟩ := documentElements_identified hfound
  obtain ⟨hids, hpositions⟩ :=
    elements_unique hdistinct (fun element helement => (hidentified element helement).2) hordered
  unfold buildPageMarkdownBundle at hbundle
  simp only [bind_eq_ok] at hbundle
  obtain ⟨-, -, hbundle⟩ := hbundle
  split at hbundle
  · cases hbundle
  · next hinside =>
      obtain ⟨-, rfl⟩ := validated_eq_ok.mp hbundle
      refine ⟨hids, hpositions, hnonempty, ?_, by simp⟩
      intro element helement
      have hnot := List.find?_eq_none.mp hinside element helement
      simpa using hnot

section Worker

variable [Gzip]

/-- A processed document: its files, and the manifest that describes them. -/
structure Processed (job : OcrJob D) (prepared : PreparedDocument D)
    (manifest : OcrDocumentManifest D) (directory : Directory) (elements : List (OcrElement D))
    (bundle : OcrPageMarkdownBundle) : Prop where
  keeps : directory.Keeps (Gzip.compress (bundleText bundle)) (Gzip.compress (elementLines elements))
  described : List.Forall₂ Describes (sortedFiles directory) manifest.files
  bounded : bytesOf (sortedFiles directory) ≤ job.limits.maxOutputBytes
  sized : totalSize manifest.files + (canonicalJsonBytes manifest.modelDump).length ≤
    job.limits.maxOutputBytes
  lineage : manifest.documentId = prepared.documentId ∧ manifest.pageCount = prepared.pageCount ∧
    manifest.processingId = prepared.processingId job.configHash

theorem processDocument_ok {parseJson : String → Option JsonValue} {job : OcrJob D}
    {prepared : PreparedDocument D} {parsed : Parsed} {manifest : OcrDocumentManifest D}
    {directory : Directory}
    (h : processDocument parseJson job prepared (.ok parsed) = .ok (manifest, directory)) :
    ∃ elements bundle, Writes parseJson job prepared parsed elements bundle ∧
      Processed job prepared manifest directory elements bundle := by
  unfold processDocument at h
  simp only [bind_eq_ok, mapError_eq_ok, pure_eq_ok, Prod.mk.injEq] at h
  obtain ⟨found, hfound, written, hdirectory, files, hfiles, built, hmanifest, rfl, rfl⟩ := h
  obtain rfl := Except.ok.inj hfound
  unfold documentFiles at hdirectory
  simp only [bind_eq_ok] at hdirectory
  obtain ⟨elements, helements, bundle, hbundle, hsaved⟩ := hdirectory
  unfold describeArtifacts at hfiles
  obtain ⟨hdescribed, hbounded⟩ := describeFiles_ok hfiles (Nat.zero_le _)
  unfold buildDocumentManifest at hmanifest
  simp only [bind_eq_ok, require_eq_ok, pure_eq_ok] at hmanifest
  obtain ⟨valid, hvalid, -, hsized, rfl⟩ := hmanifest
  obtain ⟨holds, rfl⟩ := validated_eq_ok.mp hvalid
  refine ⟨elements, bundle, ⟨helements, hbundle⟩, ?_, hdescribed, by simpa using hbounded, hsized,
    rfl, rfl, rfl⟩
  refine saveSdkArtifacts_keeps ?_ hsaved
  refine ⟨⟨?_, ?_⟩, List.mem_cons_self, List.mem_cons_of_mem _ List.mem_cons_self⟩
  · exact (by decide : [pageMarkdownBundlePath, elementsPath].Nodup)
  · intro file hfile
    simp only [List.mem_cons, List.not_mem_nil, or_false] at hfile
    rcases hfile with rfl | rfl
    · exact (by decide : '\x00' ∉ pageMarkdownBundlePath.toList)
    · exact (by decide : '\x00' ∉ elementsPath.toList)

omit [Gzip] in
theorem described_of_mem {directory : Directory} {files : List (ArtifactFile D)}
    (h : List.Forall₂ Describes directory files) {entry : String × Bytes} (hentry : entry ∈ directory) :
    ∃ file ∈ files, Describes entry file := by
  induction h with
  | nil => exact absurd hentry List.not_mem_nil
  | cons hfirst _ ih =>
      rcases List.mem_cons.mp hentry with rfl | hentry
      · exact ⟨_, List.mem_cons_self, hfirst⟩
      · obtain ⟨file, hfile, hdescribes⟩ := ih hentry
        exact ⟨file, List.mem_cons_of_mem _ hfile, hdescribes⟩

omit [Gzip] in
theorem describing_of_mem {directory : Directory} {files : List (ArtifactFile D)}
    (h : List.Forall₂ Describes directory files) {file : ArtifactFile D} (hfile : file ∈ files) :
    ∃ entry ∈ directory, Describes entry file := by
  induction h with
  | nil => exact absurd hfile List.not_mem_nil
  | cons hfirst _ ih =>
      rcases List.mem_cons.mp hfile with rfl | hfile
      · exact ⟨_, List.mem_cons_self, hfirst⟩
      · obtain ⟨entry, hentry, hdescribes⟩ := ih hfile
        exact ⟨entry, List.mem_cons_of_mem _ hentry, hdescribes⟩

section Document

variable {job : OcrJob D} {prepared : PreparedDocument D} {manifest : OcrDocumentManifest D}
  {directory : Directory} {elements : List (OcrElement D)} {bundle : OcrPageMarkdownBundle}

/-- The files have paths that a document may have. -/
theorem Processed.paths (h : Processed job prepared manifest directory elements bundle)
    {file : String × Bytes} (hfile : file ∈ sortedFiles directory) : IsArtifactPath file.1 := by
  obtain ⟨artifact, hartifact, hpath, -⟩ := described_of_mem h.described hfile
  have hnormalized := artifact.valid
  simp only [ArtifactFileFields.checks, allHold_cons] at hnormalized
  rw [← hpath]
  refine ⟨manifest.isDocumentPath hartifact, hnormalized.1, ?_⟩
  rw [hpath]
  exact hasNull_of_not_mem (h.keeps.named.2 file (mem_sortOn.mp hfile))

theorem Processed.names (h : Processed job prepared manifest directory elements bundle) :
    ((sortedFiles directory).map Prod.fst).Nodup :=
  ((sortOn_perm _ directory).map Prod.fst).nodup_iff.mpr h.keeps.named.1

/-- The tree that the archive of a directory is extracted to. -/
def documentTree (directory : Directory) : ExtractedTree := treeOf (wholeMembers (sortedFiles directory))

theorem Processed.placed_once (h : Processed job prepared manifest directory elements bundle) :
    ((documentTree directory).files.map Prod.fst).Nodup := by
  unfold documentTree
  rw [wholeMembers_files, List.map_map]
  have hsources : (sortedFiles directory).Nodup := List.Nodup.of_map _ h.names
  apply (List.nodup_map_iff_inj_on hsources).mpr
  intro file hfile other hother hsame
  have hpath := pathParts_inj (h.paths hfile).normalized (h.paths hother).normalized hsame
  exact List.inj_on_of_nodup_map h.names hfile hother hpath

theorem Processed.read (h : Processed job prepared manifest directory elements bundle)
    {file : String × Bytes} (hfile : file ∈ directory) :
    (documentTree directory).read (pathParts file.1) = some file.2 := by
  have hplaced : placed file ∈ (documentTree directory).files := by
    unfold documentTree
    rw [wholeMembers_files]
    exact List.mem_map_of_mem (mem_sortOn.mpr hfile)
  exact ExtractedTree.read_of_mem h.placed_once hplaced

/-- The tree has the files of the manifest and no others. -/
theorem Processed.reaches (h : Processed job prepared manifest directory elements bundle) :
    ReachesPages job.limits.maxOutputBytes (documentTree directory) manifest
      (Gzip.compress (bundleText bundle)) where
  tracked := by
    intro file hfile
    unfold documentTree at hfile
    rw [wholeMembers_files] at hfile
    obtain ⟨source, hsource, rfl⟩ := List.mem_map.mp hfile
    obtain ⟨artifact, hartifact, hpath, -⟩ := described_of_mem h.described hsource
    exact List.mem_map.mpr ⟨artifact, hartifact, by rw [hpath]; rfl⟩
  sized := h.sized
  recorded := by
    intro artifact hartifact
    obtain ⟨source, hsource, hpath, hdigest, hsize⟩ := describing_of_mem h.described hartifact
    refine ⟨source.2, ?_, hsize.symm, hdigest.symm⟩
    rw [hpath]
    exact h.read (mem_sortOn.mp hsource)
  pages := h.read h.keeps.pages

/-- No directory of the tree stands where the manifest is written. -/
theorem Processed.manifest_free (h : Processed job prepared manifest directory elements bundle) :
    [documentManifestPath] ∉ (documentTree directory).directories := by
  intro hmem
  rcases wholeMembers_directories _ hmem with hroot | ⟨file, hfile, hbegins⟩
  · cases hroot
  · rcases (h.paths hfile).document.dropLast with hparent | hparent | hparent
    · rw [hparent] at hbegins
      revert hbegins
      decide
    · rw [hparent] at hbegins
      revert hbegins
      decide
    · rw [hparent] at hbegins
      revert hbegins
      decide

end Document

/-! ## What the client reads -/

variable [TarZst]

/-- The processing and the manifest that a result names. -/
def publishedLineage : Option (OcrDocumentManifest D) → Option (OcrReuseReference D) →
    Except Raised (D × D)
  | some manifest, _ => .ok (manifest.processingId, canonicalJsonSha256 manifest.modelDump)
  | none, some reuse => .ok (reuse.processingId, reuse.manifestSha256)
  | none, none => .error (.valueError "A reused output requires previous document lineage")

/-- The result that was committed for a prepared document. -/
structure CommittedAs (job : OcrJob D) (prepared : PreparedDocument D)
    (written : Option (OcrDocumentManifest D)) (output : OcrOutput D) : Prop where
  manifest : output.manifest = written
  document : output.documentId = job.documentId
  content : output.pdfSha256 = prepared.pdfSha256 ∧ output.pdfSizeBytes = prepared.pdfSizeBytes ∧
    output.pageCount = prepared.pageCount
  state : output.state = if written.isSome then .succeeded else .reused
  lineage : publishedLineage written job.reuse = .ok (output.processingId, output.manifestSha256)

/-- The result and the archive, with the lineage that was determined before. -/
def commitWith (job : OcrJob D) (prepared : PreparedDocument D)
    (written : Option (OcrDocumentManifest D)) (archive : Bytes) (createdAt : String)
    (lineage : D × D) : Except Raised OutputDirectory := do
  let output ← OcrOutputFields.validate
    { jobId := job.jobId
      createdAt := createdAt
      archiveSha256 := ContentHash.digest archive
      archiveSizeBytes := archive.length
      documentId := job.documentId
      state := if written.isSome then .succeeded else .reused
      pdfSha256 := prepared.pdfSha256
      pdfSizeBytes := prepared.pdfSizeBytes
      pageCount := prepared.pageCount
      processingId := lineage.1
      manifestSha256 := lineage.2
      manifest := written }
  return ⟨some (utf8 (output.modelDump.dumps .indented)), some archive⟩

omit [Gzip] in
theorem commitOutput_eq (job : OcrJob D) (prepared : PreparedDocument D)
    (written : Option (OcrDocumentManifest D)) (artifacts : Directory) (createdAt : String) :
    commitOutput job prepared written artifacts createdAt =
      publishedLineage written job.reuse >>=
        commitWith job prepared written (createArchive artifacts) createdAt := by
  unfold commitOutput publishedLineage
  cases written with
  | some manifest => rfl
  | none =>
      cases job.reuse with
      | some reuse => rfl
      | none => rfl

omit [Gzip] in
/-- A committed result is the one that is validated. -/
theorem commitOutput_ok {job : OcrJob D} {prepared : PreparedDocument D}
    {written : Option (OcrDocumentManifest D)} {artifacts : Directory} {createdAt : String}
    {committed : OutputDirectory}
    (h : commitOutput job prepared written artifacts createdAt = .ok committed) :
    ∃ output, validateOcrOutput committed (some job.jobId) = .ok (output, createArchive artifacts) ∧
      CommittedAs job prepared written output := by
  rw [commitOutput_eq] at h
  unfold commitWith at h
  simp only [bind_eq_ok, pure_eq_ok] at h
  obtain ⟨lineage, hlineage, output, houtput, rfl⟩ := h
  obtain ⟨holds, rfl⟩ := validated_eq_ok.mp houtput
  refine ⟨⟨_, holds⟩, ?_, rfl, rfl, ⟨rfl, rfl, rfl⟩, rfl, hlineage⟩
  simp [validateOcrOutput, validateJson_dumps indented_blank (OcrOutput.modelDump_wellFormed _),
    OcrOutput.modelValidate_modelDump, Except.mapError, require]

/-- The client accepts the output, and reads the elements and the pages from it. -/
def ReadsBack (job : OcrJob D) (pageCount : Nat) (committed : OutputDirectory) (limit : Nat)
    (elements : List (OcrElement D)) (bundle : OcrPageMarkdownBundle) : Prop :=
  ∃ output tree pages lines, extractOcrOutput committed job = .ok (output, tree) ∧
    tree.read (pathParts pageMarkdownBundlePath) = some pages ∧
    tree.read (pathParts elementsPath) = some lines ∧
    readPageMarkdownBundle pages job.limits.maxOutputBytes = .ok bundle ∧
    readElements lines limit pageCount = .ok elements

/-- What the client asks beyond what the worker checks. -/
structure Readable (job : OcrJob D) (prepared : PreparedDocument D) (directory : Directory)
    (limit : Nat) (elements : List (OcrElement D)) (bundle : OcrPageMarkdownBundle) : Prop where
  changed : ∀ reuse ∈ job.reuse, prepared.pdfSha256 ≠ reuse.pdfSha256
  members : directory.length ≤ maxMembers
  pages : (bundleText bundle).length ≤ job.limits.maxOutputBytes
  elements : (elementLines elements).length ≤ limit

omit [TarZst] in
/-- The pages that were written are read, within the limit of their text. -/
theorem readPageMarkdownBundle_written (bundle : OcrPageMarkdownBundle) {limit : Nat}
    (h : (bundleText bundle).length ≤ limit) :
    readPageMarkdownBundle (Gzip.compress (bundleText bundle)) limit = .ok bundle := by
  have hvalid : validateJson OcrPageMarkdownBundle.modelValidate (bundleText bundle) = .ok bundle := by
    unfold bundleText
    rw [validateJson_dumps compact_blank bundle.modelDump_wellFormed]
    exact bundle.modelValidate_modelDump
  unfold readPageMarkdownBundle readBounded
  rw [Gzip.decompress_compress, if_neg (not_lt.mpr h)]
  simp [pagesOf, require_of h, hvalid, Except.mapError]

omit [TarZst] in
/-- The pages are readable exactly within the limit of their text. -/
theorem pagesReadable_written (bundle : OcrPageMarkdownBundle) (limit : Nat) :
    PagesReadable (Gzip.compress (bundleText bundle)) limit bundle.pages.length ↔
      (bundleText bundle).length ≤ limit := by
  constructor
  · intro hreadable
    have hsize := hreadable.2.1
    rwa [Gzip.decompress_compress] at hsize
  · exact fun hsize =>
      readPageMarkdownBundle_ok.mp ⟨bundle, readPageMarkdownBundle_written bundle hsize, rfl⟩

omit [TarZst] in
/-- The elements that were written are read exactly within the limit of the reader. -/
theorem readElements_written {parseJson : String → Option JsonValue} {job : OcrJob D}
    {prepared : PreparedDocument D} {parsed : Parsed} {elements : List (OcrElement D)}
    {bundle : OcrPageMarkdownBundle} (hdistinct : DistinctDigests D)
    (h : Writes parseJson job prepared parsed elements bundle) (limit : Nat) :
    readElements (Gzip.compress (elementLines elements)) limit prepared.pageCount = .ok elements ↔
      (elementLines elements).length ≤ limit := by
  obtain ⟨hids, hpositions, hnonempty, hpages, -⟩ := h.elements hdistinct
  have hlength : ((elements.map elementLine).map List.length).sum = (elementLines elements).length := by
    rw [elementLines_eq, List.length_flatMap, List.map_map, Function.comp_def]
  constructor
  · intro hread
    unfold readElements at hread
    obtain ⟨found, hfound, -⟩ := bind_eq_ok.mp hread
    rw [Gzip.decompress_compress] at hfound
    simp only [GzipStream.lines, Option.isNone_none, if_true, splitLines_elementLines] at hfound
    obtain ⟨-, hcases⟩ := readElementLines_cases (D := D) limit (elements.map elementLine) 1 0
      (Nat.zero_le _)
    have hlines := (hcases.mp ⟨found, hfound⟩).1
    rwa [Nat.zero_add, hlength] at hlines
  · intro hsize
    have hlines : readElementLines limit 1 0 (elements.map elementLine) = .ok elements :=
      readElementLines_written limit elements 1 0 (by rw [hlength]; omega)
    unfold readElements
    dsimp only
    rw [Gzip.decompress_compress]
    simp only [GzipStream.lines, Option.isNone_none, if_true, splitLines_elementLines, hlines,
      ok_bind, Option.elim_none]
    simp only [require_of hids, require_of hpositions, require_of hnonempty, require_of hpages, ok_bind]
    rfl

section Acceptance

variable {job : OcrJob D} {prepared : PreparedDocument D} {manifest : OcrDocumentManifest D}
  {directory : Directory} {elements : List (OcrElement D)} {bundle : OcrPageMarkdownBundle}

theorem Processed.unpack (h : Processed job prepared manifest directory elements bundle) :
    TarZst.unpack (createArchive directory) = ⟨wholeMembers (sortedFiles directory), none⟩ :=
  TarZst.unpack_pack _ fun _ hfile => (h.paths hfile).normalized

theorem Processed.allFit (h : Processed job prepared manifest directory elements bundle) :
    AllFit job.limits.maxOutputBytes (TarZst.unpack (createArchive directory)).members ↔
      directory.length ≤ maxMembers := by
  rw [h.unpack, allFit_wholeMembers (fun _ hfile => h.paths hfile) h.names h.bounded]
  rw [sortedFiles, (sortOn_perm _ directory).length_eq]

/-- The tree with the manifest of its document. -/
def publishedTree (directory : Directory) (manifest : OcrDocumentManifest D) : ExtractedTree :=
  { documentTree directory with files := (documentTree directory).files ++
      [([documentManifestPath], canonicalJsonBytes manifest.modelDump)] }

omit [Gzip] [TarZst] in
theorem read_publishedTree (written : OcrDocumentManifest D) {path : List String} {body : Bytes}
    (h : (documentTree directory).read path = some body) :
    (publishedTree directory written).read path = some body := by
  unfold ExtractedTree.read at h ⊢
  obtain ⟨file, hfile, rfl⟩ := Option.map_eq_some_iff.mp h
  rw [publishedTree, List.find?_append, hfile]
  rfl

/-- What the client asks of a processed document, and the tree that it leaves. -/
theorem extractOcrOutput_committed {committed : OutputDirectory} {output : OcrOutput D}
    (h : Processed job prepared manifest directory elements bundle)
    (hpages : bundle.pages.length = prepared.pageCount)
    (hvalidated : validateOcrOutput committed (some job.jobId) = .ok (output, createArchive directory))
    (hcommitted : CommittedAs job prepared (some manifest) output)
    (result : OcrOutput D × ExtractedTree) :
    extractOcrOutput committed job = .ok result ↔
      ((∀ reuse ∈ job.reuse, prepared.pdfSha256 ≠ reuse.pdfSha256) ∧
        directory.length ≤ maxMembers ∧ (bundleText bundle).length ≤ job.limits.maxOutputBytes) ∧
      result = (output, publishedTree directory manifest) := by
  have hprocessing : output.processingId =
      processingId output.documentId output.pdfSha256 job.configHash := by
    have hlineage := Except.ok.inj hcommitted.lineage
    rw [← (Prod.mk.inj hlineage).1, h.lineage.2.2, hcommitted.content.1]
    have hdocument := output.valid
    simp only [OcrOutputFields.checks, allHold_cons, hcommitted.manifest, Option.all_some,
      decide_eq_true_eq] at hdocument
    rw [← hdocument.2.2.2.2.2.2.1.1, h.lineage.1]
    rfl
  have hchecks : lineageChecks job output =
      require (job.reuse.all fun reuse => output.pdfSha256 ≠ reuse.pdfSha256)
        (.invalidOcrArchive "OCR reran unchanged content") := by
    simp [lineageChecks, hcommitted.state]
  have hchanged : (job.reuse.all fun reuse => decide (output.pdfSha256 ≠ reuse.pdfSha256)) = true ↔
      ∀ reuse ∈ job.reuse, prepared.pdfSha256 ≠ reuse.pdfSha256 := by
    rw [hcommitted.content.1]
    cases job.reuse with
    | none => simp
    | some reuse => simp
  unfold extractOcrOutput
  rw [hvalidated, ok_bind]
  dsimp only
  rw [require_of hcommitted.document, ok_bind, require_of hprocessing, ok_bind, hchecks, ← hchanged]
  by_cases hnew : (job.reuse.all fun reuse => decide (output.pdfSha256 ≠ reuse.pdfSha256)) = true
  case neg =>
    rw [require, if_neg hnew]
    exact iff_of_false (by simp [bind, Except.bind]) fun hall => hnew hall.1.1
  case pos =>
    rw [require_of hnew, ok_bind]
    rcases extract_cases (createArchive directory) job.limits.maxOutputBytes with
      ⟨hall, -, hextracted⟩ | ⟨hnot, tree, error, hextracted, -⟩
    case inr =>
      rw [hextracted]
      refine iff_of_false (by simp [extractedTree, bind, Except.bind]) ?_
      intro hread
      exact hnot ⟨h.allFit.mpr hread.1.2.1, by rw [h.unpack]⟩
    case inl =>
      have hreaches := h.reaches
      have hmembers := h.allFit.mp hall
      rw [h.unpack] at hextracted
      rw [hextracted, extractedTree, Option.elim_none, ok_bind, hcommitted.manifest, require_bind_eq_ok]
      dsimp only [Option.elim_some]
      have htree : treeOf (wholeMembers (sortedFiles directory)) = documentTree directory := rfl
      have hpresent : ∀ path ∈ manifest.files.map fun file => pathParts file.relativePath,
          ((documentTree directory).read path).isSome = true := by
        intro path hpath
        obtain ⟨artifact, hartifact, rfl⟩ := List.mem_map.mp hpath
        obtain ⟨body, hbody, -⟩ := hreaches.recorded artifact hartifact
        rw [hbody]
        rfl
      rw [htree, and_iff_right (And.intro hreaches.tracked hpresent)]
      obtain ⟨-, hvalid⟩ := validateDocument_cases (documentTree directory) manifest
        job.limits.maxOutputBytes hreaches.tracked
      have hreadable : validateDocument (documentTree directory) manifest
          (canonicalJsonBytes manifest.modelDump) job.limits.maxOutputBytes = .ok () ↔
            (bundleText bundle).length ≤ job.limits.maxOutputBytes := by
        rw [hvalid, ← pagesReadable_written, hpages, ← h.lineage.2.1]
        constructor
        · intro hpages
          obtain ⟨pages, hpages, hreadable⟩ := hpages
          obtain rfl := Option.some.inj (hreaches.pages.symm.trans hpages.pages)
          exact hreadable
        · exact fun hreadable => ⟨_, hreaches, hreadable⟩
      have hwritten : writeManifest (documentTree directory) (canonicalJsonBytes manifest.modelDump) =
          .ok (publishedTree directory manifest) := by
        rw [writeManifest, if_neg (by simpa using h.manifest_free)]
        rfl
      rw [hwritten]
      cases hdocument : validateDocument (documentTree directory) manifest
          (canonicalJsonBytes manifest.modelDump) job.limits.maxOutputBytes with
      | error error =>
          have hlong := hreadable.not.mp (by simp [hdocument])
          exact iff_of_false (by simp [bind, Except.bind]) fun hread => hlong hread.1.2.2
      | ok checked =>
          have hshort := hreadable.mp hdocument
          rw [ok_bind, ok_bind, pure_eq_ok]
          exact ⟨fun hresult => ⟨⟨hnew, hmembers, hshort⟩, hresult.symm⟩, fun hread => hread.2.symm⟩

/-- **What the worker has committed is read back exactly where the client asks no more.** -/
theorem committed_readsBack {parseJson : String → Option JsonValue} {parsed : Parsed}
    {createdAt : String} {committed : OutputDirectory} (hdistinct : DistinctDigests D)
    (hprocessed : processDocument parseJson job prepared (.ok parsed) = .ok (manifest, directory))
    (hcommit : commitOutput job prepared (some manifest) directory createdAt = .ok committed)
    (limit : Nat) :
    ∃ elements bundle, Writes parseJson job prepared parsed elements bundle ∧
      (ReadsBack job prepared.pageCount committed limit elements bundle ↔
        Readable job prepared directory limit elements bundle) := by
  obtain ⟨elements, bundle, hwrites, h⟩ := processDocument_ok hprocessed
  obtain ⟨output, hvalidated, hcommitted⟩ := commitOutput_ok hcommit
  obtain ⟨-, -, -, -, hpages⟩ := hwrites.elements hdistinct
  have hextracted := extractOcrOutput_committed h hpages hvalidated hcommitted
  have hpagesFile := h.read h.keeps.pages
  have helementsFile := h.read h.keeps.elements
  have hsource := read_publishedTree manifest hpagesFile
  have hwritten := read_publishedTree manifest helementsFile
  refine ⟨elements, bundle, hwrites, ?_⟩
  constructor
  · intro hback
    obtain ⟨found, tree, source, lines, hfound, -, hlines, -, helements⟩ := hback
    obtain ⟨⟨hchanged, hmembers, hshort⟩, hresult⟩ := (hextracted (found, tree)).mp hfound
    obtain ⟨-, rfl⟩ := Prod.mk.inj hresult
    rw [hwritten] at hlines
    obtain rfl := Option.some.inj hlines
    exact ⟨hchanged, hmembers, hshort, (readElements_written hdistinct hwrites limit).mp helements⟩
  · intro hreadable
    refine ⟨output, publishedTree directory manifest, _, _, ?_, hsource, hwritten,
      readPageMarkdownBundle_written bundle hreadable.pages,
      (readElements_written hdistinct hwrites limit).mpr hreadable.elements⟩
    exact (hextracted _).mpr ⟨⟨hreadable.changed, hreadable.members, hreadable.pages⟩, rfl⟩

/-- The client accepts a reused output exactly where the document is the one it names. -/
theorem reused_accepted {createdAt : String} {committed : OutputDirectory}
    (hcommit : commitOutput job prepared none [] createdAt = .ok committed) :
    (∃ result, extractOcrOutput committed job = .ok result) ↔ ∃ reuse ∈ job.reuse,
      reuse.matches prepared.pdfSha256 prepared.pdfSizeBytes prepared.pageCount = true := by
  obtain ⟨output, hvalidated, hcommitted⟩ := commitOutput_ok hcommit
  obtain ⟨reuse, hreuse, hlineage⟩ : ∃ reuse, job.reuse = some reuse ∧
      (reuse.processingId, reuse.manifestSha256) = (output.processingId, output.manifestSha256) := by
    have hlineage := hcommitted.lineage
    cases hreuse : job.reuse with
    | none =>
        rw [hreuse] at hlineage
        cases hlineage
    | some reuse =>
        rw [hreuse] at hlineage
        exact ⟨reuse, rfl, Except.ok.inj hlineage⟩
  obtain ⟨hprocessing, hmanifest⟩ := Prod.mk.inj hlineage
  obtain ⟨hpdf, hsize, hcount⟩ := hcommitted.content
  have hidentity := job.reuse_identity reuse hreuse
  have hstate : output.state = .reused := hcommitted.state
  have hextracted : extract (createArchive []) job.limits.maxOutputBytes = (treeOf [], none) := by
    have hempty : TarZst.unpack (createArchive []) = ⟨[], none⟩ :=
      TarZst.unpack_pack [] (fun _ hfile => absurd hfile List.not_mem_nil)
    unfold extract
    rw [hempty]
    rfl
  have hmatches : reuse.matches prepared.pdfSha256 prepared.pdfSizeBytes prepared.pageCount = true ↔
      output.pdfSha256 = reuse.pdfSha256 ∧ output.pdfSizeBytes = reuse.pdfSizeBytes ∧
        output.pageCount = reuse.pageCount := by
    rw [hpdf, hsize, hcount, eq_comm (a := prepared.pdfSha256), eq_comm (a := prepared.pdfSizeBytes),
      eq_comm (a := prepared.pageCount)]
    simp only [OcrReuseReference.matches, Bool.and_eq_true, decide_eq_true_eq, and_assoc]
  have hchecks : lineageChecks job output = .ok () ↔
      reuse.matches prepared.pdfSha256 prepared.pdfSizeBytes prepared.pageCount = true := by
    rw [hmatches]
    simp [lineageChecks, hstate, hreuse, hprocessing.symm, hmanifest.symm]
  have honly : (∃ reuse ∈ job.reuse,
      reuse.matches prepared.pdfSha256 prepared.pdfSizeBytes prepared.pageCount = true) ↔
        reuse.matches prepared.pdfSha256 prepared.pdfSizeBytes prepared.pageCount = true := by
    simp [hreuse]
  rw [honly]
  unfold extractOcrOutput
  rw [hvalidated, ok_bind]
  dsimp only
  rw [require_of hcommitted.document, ok_bind]
  constructor
  · intro hread
    obtain ⟨result, hread⟩ := hread
    obtain ⟨-, hread⟩ := require_bind_eq_ok.mp hread
    obtain ⟨checked, hchecked, -⟩ := bind_eq_ok.mp hread
    exact hchecks.mp hchecked
  · intro hsame
    have hidentified : output.processingId =
        processingId output.documentId output.pdfSha256 job.configHash := by
      rw [← hprocessing, hidentity, hcommitted.document, (hmatches.mp hsame).1]
    refine ⟨(output, treeOf []), require_bind_eq_ok.mpr ⟨hidentified, ?_⟩⟩
    rw [hchecks.mpr hsame, ok_bind, hextracted, extractedTree, Option.elim_none, ok_bind,
      hcommitted.manifest, require_bind_eq_ok]
    refine ⟨⟨?_, ?_⟩, rfl⟩
    · exact fun file hfile => absurd hfile List.not_mem_nil
    · exact fun path hpath => absurd hpath List.not_mem_nil

end Acceptance

end Worker

namespace Rehearsal

/-- A file as the text of an archive spells it. -/
def fileValue (file : String × Bytes) : JsonValue :=
  .arr [.str file.1, .arr (file.2.map fun byte => .int byte.toNat)]

def readByte : JsonValue → Option UInt8
  | .int value => some (UInt8.ofNat value.toNat)
  | _ => none

def readFile : JsonValue → Option (String × Bytes)
  | .arr [.str name, .arr items] => some (name, items.filterMap readByte)
  | _ => none

theorem readFile_fileValue (file : String × Bytes) : readFile (fileValue file) = some file := by
  have hbytes : (file.2.map fun byte => JsonValue.int byte.toNat).filterMap readByte = file.2 := by
    rw [List.filterMap_map]
    exact (List.filterMap_congr fun byte _ => by simp [readByte]).trans List.filterMap_some
  rw [fileValue, readFile, hbytes]

theorem fileValue_wellFormed (file : String × Bytes) : (fileValue file).WellFormed id := by
  have hbytes : ItemsWellFormed id (file.2.map fun byte => JsonValue.int byte.toNat) :=
    itemsWellFormed_map fun _ _ => trivial
  simp [fileValue, JsonValue.WellFormed, ItemsWellFormed, hbytes]

/-- Archives that spell their files behind the first bytes of the format. -/
instance textTarZst : TarZst where
  pack files := 40 :: utf8 ((JsonValue.arr (files.map fileValue)).dumps .compact)
  unpack source :=
    match (utf8Decode source.tail).bind (loads id) with
    | some (.arr items) => ⟨wholeMembers (items.filterMap readFile), none⟩
    | _ => ⟨[], some "could not determine content size in frame header"⟩
  unpack_pack files _ := by
    have hwell : (JsonValue.arr (files.map fileValue)).WellFormed id :=
      itemsWellFormed_map fun file _ => fileValue_wellFormed file
    have hfiles : (files.map fileValue).filterMap readFile = files := by
      rw [List.filterMap_map]
      exact (List.filterMap_congr fun file _ => readFile_fileValue file).trans List.filterMap_some
    simp only [List.tail_cons, utf8Decode_utf8, Option.bind_some, loads_dumps compact_blank hwell, hfiles]

/-! A document of one page with one block. -/

theorem no_images : ∀ entries ∈ (none : Option (List (String × Option Bytes))), ∀ entry ∈ entries,
    '\x00' ∉ entry.1.toList := fun _ hnone => absurd hnone (Option.not_mem_none _)

theorem no_reuse (identity : OcrReuseReference Bytes → Prop) :
    ∀ reference ∈ (none : Option (OcrReuseReference Bytes)), identity reference :=
  fun _ hnone => absurd hnone (Option.not_mem_none _)

def block (content : String) : Block := [("label", .str "text"), ("content", .str content)]

def parsed (content : String) : Parsed :=
  ⟨.value (.arr [.arr [.obj (block content)]]), [⟨[("page.jpg", [255])], none, no_images⟩]⟩

def prepared : PreparedDocument Bytes := ⟨"2401.00001", utf8 "%PDF-", 5, 1⟩

/-- A configuration as its hash spells it. -/
def configuration : JsonValue :=
  .obj [("adapter_version", .str "1"), ("inference", .obj []),
    ("layout_model", .obj [("repository", .str "layout"), ("revision", .str "main")]),
    ("model", .obj [("repository", .str "model"), ("revision", .str "main")]),
    ("protocol_version", .str ocrProtocolVersion), ("sdk_version", .str "1")]

def configHash : Bytes := canonicalJsonSha256 configuration

def job (limits : OcrLimits) : OcrJob Bytes where
  jobId := jobId "2401.00001" [1] configHash
  configHash := configHash
  limits := limits
  documentId := "2401.00001"
  sourceRecordSha256 := [1]
  pdfUrl := "https://arxiv.org/pdf/2401.00001"
  reuse := none
  document_bound := rfl
  url_secure := rfl
  job_identity := rfl
  reuse_identity := no_reuse _

def processing : Bytes := prepared.processingId configHash

theorem element_valid (content : String) : AllHold (OcrElementFields.checks (D := Bytes)
    ⟨elementIdentity processing 1 0, 1, 0, "text", none, content, some content, none, none⟩) := by
  have htext : isTextOfLength 1 100 "text" = true := by decide
  simp [OcrElementFields.checks, htext]

def element (content : String) : OcrElement Bytes := ⟨_, element_valid content⟩

theorem bundle_valid (content : String) : AllHold (pageChecks [⟨1, content⟩]) := by
  simp [pageChecks]

def bundle (content : String) : OcrPageMarkdownBundle := ⟨_, bundle_valid content⟩

theorem writes {content : String} (hcontent : content ≠ "") (limits : OcrLimits) :
    Writes (fun _ => none) (job limits) prepared (parsed content) [element content] (bundle content) := by
  have hmarkdown : blockMarkdown (block content) "text" content 1 0 = .ok (some content, 0) := by
    simp [blockMarkdown, hcontent]
  have hattributes : blockAttributes (block content) = [] := by
    apply List.filter_eq_nil_iff.mpr
    intro member hmember
    rw [mem_sortOn] at hmember
    simp only [block, List.mem_cons, List.not_mem_nil, or_false] at hmember
    rcases hmember with rfl | rfl
    · simp
    · simp
  have hbounds : (block content).present "bbox_2d" = none := rfl
  have helement : canonicalElement processing 1 0 0 (block content) = .ok (element content, 0) := by
    have hlabel : (block content).label = "text" := rfl
    have htext : blockContent (block content) "text" = some content := rfl
    unfold canonicalElement
    simp only [hlabel, htext, hattributes, hbounds, Option.elim_some, ok_bind, hmarkdown]
    have hvalid : OcrElementFields.validate ⟨elementIdentity processing 1 0, 1, 0, "text", none, content,
        some content, none, none⟩ = .ok (element content) := validated_of (element_valid content)
    simp only [Option.map_none, if_true, hvalid, ok_bind]
    rfl
  have hlayout : normalizedLayout (fun _ => none) (parsed content).jsonResult 1 =
      .ok [[block content]] := rfl
  constructor
  · have helements : documentElements processing 1 0 [[block content]] = .ok [element content] := by
      simp only [documentElements, pageElements, helement, ok_bind]
      rfl
    unfold layoutElements canonicalElements
    have hprocessing : prepared.processingId (job limits).configHash = processing := rfl
    have hpages : prepared.pageCount = 1 := rfl
    rw [hpages, hlayout, ok_bind, hprocessing, helements, ok_bind]
    rfl
  · have hmarkdownPage : pageMarkdown [element content] 1 = content := by
      have hfilter : ([element content].filter fun element => decide (element.pageNumber = 1)) =
          [element content] := rfl
      have htexts : [element content].filterMap (fun element =>
          if element.markdownContent = some "" then none else element.markdownContent) = [content] := by
        simp [element, hcontent]
      have hsort : sortOn (fun element : OcrElement Bytes =>
          toLex (element.readingOrder, ContentHash.hexdigest element.elementId)) [element content] =
            [element content] := rfl
      rw [pageMarkdown, hfilter, hsort, htexts]
      rfl
    have hvalid : OcrPageMarkdownBundle.validate [⟨1, content⟩] = .ok (bundle content) :=
      validated_of (bundle_valid content)
    have hfind : ([element content].find? fun element => decide (1 < element.pageNumber)) = none := rfl
    unfold buildPageMarkdownBundle
    have hpages : prepared.pageCount = 1 := rfl
    rw [hpages, require_of (le_refl 1), ok_bind, hfind]
    simp only [List.range'_one, List.map_cons, List.map_nil, hmarkdownPage, hvalid]

def visualizationPath : String := "layout_vis/page-0001.jpg"

def paths : List String := [elementsPath, visualizationPath, pageMarkdownBundlePath]

/-- The files of the document, in the order of their paths. -/
def sampleFiles (pages elements : Bytes) : Directory :=
  [(elementsPath, elements), (visualizationPath, [255]), (pageMarkdownBundlePath, pages)]

theorem artifact_valid (sha256 : Bytes) (size : Nat) {path : String} (h : path ∈ paths) :
    AllHold (ArtifactFileFields.checks ⟨path, sha256, size, mediaType path⟩) := by
  have hchecks : ∀ path ∈ paths, isNormalizedPath path = true ∧ (mediaType path != "") = true := by
    decide +kernel
  simpa [ArtifactFileFields.checks] using hchecks path h

theorem elementsPath_mem : elementsPath ∈ paths := List.mem_cons_self

theorem visualizationPath_mem : visualizationPath ∈ paths := List.mem_cons_of_mem _ List.mem_cons_self

theorem pagesPath_mem : pageMarkdownBundlePath ∈ paths :=
  List.mem_cons_of_mem _ (List.mem_cons_of_mem _ List.mem_cons_self)

/-- The files as the manifest describes them. -/
def artifacts (pages elements : Bytes) : List (ArtifactFile Bytes) :=
  [⟨_, artifact_valid elements elements.length elementsPath_mem⟩,
    ⟨_, artifact_valid [255] 1 visualizationPath_mem⟩,
    ⟨_, artifact_valid pages pages.length pagesPath_mem⟩]

theorem manifest_valid (pages elements : Bytes) : AllHold (OcrDocumentManifestFields.checks
    ⟨"2401.00001", artifacts pages elements, 1, utf8 "%PDF-", 5, processing⟩) := by
  have hpaths : AllHold (documentArtifactChecks paths 1) := by decide +kernel
  have hid : isTextOfLength 1 255 "2401.00001" = true := by decide
  have hfiles : (artifacts pages elements).map (fun file => file.relativePath) = paths := rfl
  simp only [OcrDocumentManifestFields.checks, List.cons_append, List.nil_append, allHold_cons, hfiles]
  exact ⟨hid, decide_eq_true (le_refl 1), decide_eq_true (Nat.le_add_left 1 4), hpaths⟩

def manifest (pages elements : Bytes) : OcrDocumentManifest Bytes := ⟨_, manifest_valid pages elements⟩

/-- The size that the worker checks. -/
def size (pages elements : Bytes) : Nat :=
  totalSize (manifest pages elements).files +
    (canonicalJsonBytes (manifest pages elements).modelDump).length

/-- The directory of the document. -/
def sampleDirectory (pages elements : Bytes) : Directory :=
  [(pageMarkdownBundlePath, pages), (elementsPath, elements), (visualizationPath, [255])]

theorem saved (pages elements : Bytes) (content : String) :
    saveSdkArtifacts (parsed content).roots 1 [(pageMarkdownBundlePath, pages), (elementsPath, elements)] =
      .ok (sampleDirectory pages elements) := by
  have hname : "layout_vis/page-" ++ fourDigits 1 ++ ".jpg" = visualizationPath := by decide
  have hpages : pageMarkdownBundlePath ≠ visualizationPath := by decide
  have helements : elementsPath ≠ visualizationPath := by decide
  have hmoved : moveVisualizations 1 (sortOn Prod.fst [("page.jpg", ([255] : Bytes))])
      [(pageMarkdownBundlePath, pages), (elementsPath, elements)] = sampleDirectory pages elements := by
    simp [sortOn, moveVisualizations, Directory.put, hname, hpages, helements, sampleDirectory]
  simp [saveSdkArtifacts, parsed, hmoved, moveImages, require]

theorem sortedFiles_sample (pages elements : Bytes) :
    sortedFiles (sampleDirectory pages elements) = sampleFiles pages elements := by
  have hfirst : pathParts elementsPath ≤ pathParts visualizationPath := by decide
  have hpages : ¬pathParts pageMarkdownBundlePath ≤ pathParts elementsPath := by decide
  have hpages' : ¬pathParts pageMarkdownBundlePath ≤ pathParts visualizationPath := by decide
  simp [sortedFiles, sortOn, sampleDirectory, sampleFiles, hfirst, hpages, hpages']

theorem processed [Gzip] {content : String} (hcontent : content ≠ "") (limits : OcrLimits)
    (hsize : size (Gzip.compress (bundleText (bundle content)))
      (Gzip.compress (elementLines [element content])) ≤ limits.maxOutputBytes) :
    processDocument (fun _ => none) (job limits) prepared (.ok (parsed content)) =
      .ok (manifest (Gzip.compress (bundleText (bundle content)))
          (Gzip.compress (elementLines [element content])),
        sampleDirectory (Gzip.compress (bundleText (bundle content)))
          (Gzip.compress (elementLines [element content]))) := by
  obtain ⟨helements, hbundle⟩ := writes hcontent limits
  have hdirectory : documentFiles (fun _ => none) (job limits) prepared (parsed content) =
      .ok (sampleDirectory (Gzip.compress (bundleText (bundle content)))
        (Gzip.compress (elementLines [element content]))) := by
    unfold documentFiles
    rw [helements, ok_bind, hbundle, ok_bind]
    exact saved _ _ content
  revert hsize hdirectory
  generalize Gzip.compress (bundleText (bundle content)) = pages
  generalize Gzip.compress (elementLines [element content]) = elements
  intro hsize hdirectory
  have htotal : elements.length + 1 + pages.length ≤ limits.maxOutputBytes := by
    have hsum : totalSize (manifest pages elements).files = elements.length + (1 + (pages.length + 0)) := rfl
    unfold size at hsize
    omega
  have hdescribed : describeArtifacts (sampleDirectory pages elements) limits.maxOutputBytes =
      .ok (artifacts pages elements) := by
    unfold describeArtifacts
    rw [sortedFiles_sample]
    have hfirst : (0 + elements.length) + 1 ≤ limits.maxOutputBytes := by omega
    have hsecond : (0 + elements.length) + 1 + pages.length ≤ limits.maxOutputBytes := by omega
    have hstart : 0 + elements.length ≤ limits.maxOutputBytes := by omega
    simp only [sampleFiles, describeFiles, require_of hstart, ok_bind, ArtifactFileFields.validate,
      validated_of (artifact_valid _ _ elementsPath_mem), List.length_singleton, require_of hfirst,
      validated_of (artifact_valid _ _ visualizationPath_mem), require_of hsecond,
      validated_of (artifact_valid _ _ pagesPath_mem)]
    rfl
  have hmanifest : buildDocumentManifest (job limits) prepared (artifacts pages elements) =
      .ok (manifest pages elements) := by
    have hvalid : OcrDocumentManifestFields.validate ⟨"2401.00001", artifacts pages elements, 1,
        utf8 "%PDF-", 5, processing⟩ = .ok (manifest pages elements) :=
      validated_of (manifest_valid pages elements)
    have hwithin : totalSize (artifacts pages elements) +
        (canonicalJsonBytes (manifest pages elements).modelDump).length ≤
          (job limits).limits.maxOutputBytes := hsize
    have hdocument : prepared = ⟨"2401.00001", utf8 "%PDF-", 5, 1⟩ := rfl
    have hprocessing : prepared.processingId (job limits).configHash = processing := rfl
    unfold buildDocumentManifest
    rw [hprocessing]
    simp only [hdocument, hvalid, ok_bind]
    rw [require_of hwithin, ok_bind]
    rfl
  have hlimits : (job limits).limits = limits := rfl
  unfold processDocument
  rw [hlimits]
  simp only [Except.mapError, ok_bind, hdirectory, hdescribed, hmanifest]
  rfl

/-- The output of the document. -/
theorem committed [Gzip] (pages elements : Bytes) (limits : OcrLimits) (createdAt : String) :
    ∃ output, commitOutput (job limits) prepared (some (manifest pages elements))
      (sampleDirectory pages elements) createdAt = .ok output := by
  have hlineage : publishedLineage (some (manifest pages elements)) (job limits).reuse =
      .ok (processing, canonicalJsonSha256 (manifest pages elements).modelDump) := rfl
  rw [commitOutput_eq, hlineage, ok_bind]
  unfold commitWith
  have hsize : 1 ≤ (createArchive (sampleDirectory pages elements)).length :=
    Nat.succ_le_succ (Nat.zero_le _)
  have hid : isTextOfLength 1 255 (job limits).documentId = true := by
    exact (by decide : isTextOfLength 1 255 "2401.00001" = true)
  have hpdf : 1 ≤ prepared.pdfSizeBytes := Nat.le_add_left 1 4
  have hpages : 1 ≤ prepared.pageCount := le_refl 1
  have hmanifest : (manifest pages elements).documentId = (job limits).documentId ∧
      (manifest pages elements).pageCount = prepared.pageCount ∧
      (manifest pages elements).pdfSha256 = prepared.pdfSha256 ∧
      (manifest pages elements).pdfSizeBytes = prepared.pdfSizeBytes ∧
      (manifest pages elements).processingId = processing := ⟨rfl, rfl, rfl, rfl, rfl⟩
  refine ⟨_, bind_eq_ok.mpr ⟨_, validated_of ?_, rfl⟩⟩
  simp [OcrOutputFields.checks, hid, hpdf, hpages, hmanifest, hsize]

/-- Two contents that compress to a byte. -/
@[reducible] def packedGzip (first second : Bytes) : Gzip where
  compress body := if body = first then [0] else if body = second then [1] else 2 :: body
  decompress source :=
    match source with
    | [0] => ⟨first, none⟩
    | [1] => ⟨second, none⟩
    | 2 :: body => ⟨body, none⟩
    | _ => ⟨[], some (.badGzipFile "Not a gzipped file")⟩
  decompress_compress body := by
    by_cases hfirst : body = first
    · simp [hfirst]
    · by_cases hsecond : body = second
      · rw [if_neg hfirst, if_pos hsecond, hsecond]
        rfl
      · simp [hfirst, hsecond]

theorem compress_length {first second body : Bytes} (h : body = first ∨ body = second) :
    (packedGzip first second).compress body = [0] ∨ (packedGzip first second).compress body = [1] := by
  by_cases hfirst : body = first
  · exact .inl (if_pos hfirst)
  · exact .inr ((if_neg hfirst).trans (if_pos (h.resolve_left hfirst)))

theorem length_le_utf8 (chars : List Char) :
    chars.length ≤ (chars.flatMap String.utf8EncodeChar).length := by
  induction chars with
  | nil => exact Nat.le_refl 0
  | cons c chars ih =>
      have hpos := c.utf8Size_pos
      rw [List.flatMap_cons, List.length_append, List.length_cons, String.length_utf8EncodeChar]
      omega

theorem length_le_bundleText (content : String) :
    content.length ≤ (bundleText (bundle content)).length := by
  have hescaped := length_flatMap_escapeChar content.toList
  have hwritten : (writeString content).length ≤
      ((bundle content).modelDump.write .compact 0).length := by
    simp only [OcrPageMarkdownBundle.modelDump, OcrPageMarkdown.modelDump, bundle, schemaVersion,
      JsonValue.write, writeMembers, writeItems, List.map_cons, List.map_nil, List.length_cons,
      List.length_append]
    omega
  have hencoded := length_le_utf8 ((bundle content).modelDump.write .compact 0)
  have htext : bundleText (bundle content) =
      ((bundle content).modelDump.write .compact 0).flatMap String.utf8EncodeChar := by
    rw [bundleText, utf8, JsonValue.dumps, String.toList_ofList]
  rw [htext]
  simp only [writeString, List.length_cons, List.length_append] at hwritten
  rw [← String.length_toList]
  omega

theorem outputBound_le (extra : Nat) : 1024 * 1024 ≤ 1024 * 1024 + extra := Nat.le_add_right _ _

theorem pages_bound : 1 ≤ 2000 ∧ 2000 ≤ 2000 := ⟨Nat.le_add_left 1 1999, le_refl 2000⟩

/-- Limits that leave room beyond the smallest bound of an output. -/
def limits (extra : Nat) : OcrLimits :=
  ⟨1024 * 1024, 2000, 1024 * 1024 + extra, le_refl _, pages_bound, outputBound_le extra⟩

/-- A text that is longer than the output may be. -/
def longText (extra : Nat) : String := String.ofList (List.replicate (1024 * 1024 + extra + 1) 'a')

theorem length_longText (extra : Nat) : (limits extra).maxOutputBytes < (longText extra).length := by
  rw [longText, String.length_ofList, List.length_replicate]
  exact Nat.lt_succ_self _

theorem longText_ne (extra : Nat) : longText extra ≠ "" := by
  intro hempty
  have hlength := length_longText extra
  rw [hempty] at hlength
  exact Nat.not_lt_zero _ hlength

/-- The texts of the long document compress to a byte each. -/
@[reducible] def longGzip (extra : Nat) : Gzip :=
  packedGzip (bundleText (bundle (longText extra))) (elementLines [element (longText extra)])

/-- A long text whose files compress to a byte each is committed, and then rejected. -/
theorem rejected [Gzip] {extra : Nat} (hfirst : size [0] [0] ≤ extra) (hsecond : size [0] [1] ≤ extra)
    (hpages : Gzip.compress (bundleText (bundle (longText extra))) = [0])
    (helements : Gzip.compress (elementLines [element (longText extra)]) = [0] ∨
      Gzip.compress (elementLines [element (longText extra)]) = [1]) :
    ∃ manifest directory output,
      processDocument (fun _ => none) (job (limits extra)) prepared (.ok (parsed (longText extra))) =
        .ok (manifest, directory) ∧
      commitOutput (job (limits extra)) prepared (some manifest) directory "2026-01-01T00:00:00Z" =
        .ok output ∧
      ∀ result, extractOcrOutput output (job (limits extra)) ≠ .ok result := by
  have hsize : size (Gzip.compress (bundleText (bundle (longText extra))))
      (Gzip.compress (elementLines [element (longText extra)])) ≤ (limits extra).maxOutputBytes := by
    have hextra : extra ≤ (limits extra).maxOutputBytes := Nat.le_add_left _ _
    rw [hpages]
    rcases helements with helements | helements
    · rw [helements]
      exact hfirst.trans hextra
    · rw [helements]
      exact hsecond.trans hextra
  have hprocessed := processed (longText_ne extra) (limits extra) hsize
  obtain ⟨output, hcommitted⟩ := committed (Gzip.compress (bundleText (bundle (longText extra))))
    (Gzip.compress (elementLines [element (longText extra)])) (limits extra) "2026-01-01T00:00:00Z"
  refine ⟨_, _, output, hprocessed, hcommitted, ?_⟩
  intro result hread
  obtain ⟨elements, pages, ⟨hlayout, hbundle⟩, hdocument⟩ := processDocument_ok hprocessed
  obtain ⟨hlayout', hbundle'⟩ := writes (longText_ne extra) (limits extra)
  obtain rfl := Except.ok.inj (hlayout.symm.trans hlayout')
  obtain rfl := Except.ok.inj (hbundle.symm.trans hbundle')
  obtain ⟨found, hvalidated, hcommittedAs⟩ := commitOutput_ok hcommitted
  have hread := (extractOcrOutput_committed hdocument rfl hvalidated hcommittedAs result).mp hread
  have hshort : (bundleText (bundle (longText extra))).length ≤ (limits extra).maxOutputBytes :=
    hread.1.2.2
  have hlong := length_le_bundleText (longText extra)
  exact absurd (hlong.trans hshort) (not_le.mpr (length_longText extra))

theorem spelled_distinct : DistinctDigests Bytes := fun _ _ hsame => hsame

end Rehearsal

/-- **What the worker commits, the client reads, unless it asks more than the worker checks.**
The output of a processed document is accepted, and its pages and its elements are the ones that
were written, exactly where the content is not one that was to be reused, there are not too many
files, and the texts are within the limits that the readers have for them.  A reused output is
accepted exactly where it names the document. -/
theorem committed_outputs_read_back {D : Type} [ContentHash D] [Gzip] [TarZst]
    (hdistinct : DistinctDigests D) (parseJson : String → Option JsonValue) (job : OcrJob D)
    (prepared : PreparedDocument D) (createdAt : String) (output : OutputDirectory) :
    (∀ parsed manifest directory,
      processDocument parseJson job prepared (.ok parsed) = .ok (manifest, directory) →
      commitOutput job prepared (some manifest) directory createdAt = .ok output →
      ∀ limit, ∃ elements bundle, Writes parseJson job prepared parsed elements bundle ∧
        (ReadsBack job prepared.pageCount output limit elements bundle ↔
          Readable job prepared directory limit elements bundle)) ∧
    (commitOutput job prepared none [] createdAt = .ok output →
      ((∃ result, extractOcrOutput output job = .ok result) ↔ ∃ reuse ∈ job.reuse,
        reuse.matches prepared.pdfSha256 prepared.pdfSizeBytes prepared.pageCount = true)) := by
  constructor
  · intro parsed manifest directory hprocessed hcommit limit
    exact committed_readsBack hdistinct hprocessed hcommit limit
  · exact reused_accepted

open Rehearsal in
/-- A short document is read back. -/
theorem committed_outputs_read_back_sample : ∃ extra output elements bundle,
    Writes (fun _ => none) (job (limits extra)) prepared (parsed "Abstract") elements bundle ∧
      ReadsBack (job (limits extra)) 1 output (elementLines elements).length elements bundle := by
  have hcontent : "Abstract" ≠ "" := by decide
  obtain ⟨extra, hsize, hlength⟩ : ∃ extra, size (Gzip.compress (bundleText (bundle "Abstract")))
      (Gzip.compress (elementLines [element "Abstract"])) ≤ extra ∧
        (bundleText (bundle "Abstract")).length ≤ extra :=
    ⟨_, Nat.le_add_right _ _, Nat.le_add_left _ _⟩
  have hextra : extra ≤ (limits extra).maxOutputBytes := Nat.le_add_left _ _
  have hprocessed := processed hcontent (limits extra) (hsize.trans hextra)
  obtain ⟨output, hcommitted⟩ := committed (Gzip.compress (bundleText (bundle "Abstract")))
    (Gzip.compress (elementLines [element "Abstract"])) (limits extra) "2026-01-01T00:00:00Z"
  obtain ⟨hread, -⟩ := committed_outputs_read_back spelled_distinct (fun _ => none) (job (limits extra))
    prepared "2026-01-01T00:00:00Z" output
  obtain ⟨elements, pages, hwrites, hback⟩ := hread _ _ _ hprocessed hcommitted
    (elementLines [element "Abstract"]).length
  obtain ⟨hlayout, hbundle⟩ := id hwrites
  obtain ⟨hlayout', hbundle'⟩ := writes hcontent (limits extra)
  obtain rfl := Except.ok.inj (hlayout.symm.trans hlayout')
  obtain rfl := Except.ok.inj (hbundle.symm.trans hbundle')
  have hmembers : 3 ≤ maxMembers := by decide
  refine ⟨extra, output, _, _, hwrites, hback.mpr ⟨no_reuse _, hmembers, hlength.trans hextra, le_refl _⟩⟩

open Rehearsal in
/-- A long text that compresses well is committed, and then rejected. -/
theorem long_document_rejected : ∃ extra : Nat, ∃ _ : Gzip, ∃ manifest directory output,
    processDocument (fun _ => none) (job (limits extra)) prepared (.ok (parsed (longText extra))) =
      .ok (manifest, directory) ∧
    commitOutput (job (limits extra)) prepared (some manifest) directory "2026-01-01T00:00:00Z" =
      .ok output ∧
    ∀ result, extractOcrOutput output (job (limits extra)) ≠ .ok result := by
  refine ⟨size [0] [0] + size [0] [1], longGzip (size [0] [0] + size [0] [1]), ?_⟩
  apply @rejected (longGzip (size [0] [0] + size [0] [1]))
  case hfirst => exact Nat.le_add_right _ _
  case hsecond => exact Nat.le_add_left _ _
  case hpages => exact if_pos rfl
  case helements => exact compress_length (.inr rfl)

end MiniLakehouse.Ocr
