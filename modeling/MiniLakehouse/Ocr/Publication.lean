import MiniLakehouse.Arxiv.Curated
import MiniLakehouse.Library.Programs
import MiniLakehouse.Ocr.ReadBack

/-!
# Publishing OCR documents

`config.py`, `arxiv/store.py` and `arxiv/service.py`: one run composes a job from the paper's
row and the document's, has it processed, and publishes what it extracts: every file under a
location that the processing identifies, which is not overwritten, and then the document's row.
A run can be cut off at any call of the tables and of the object store.
-/

namespace MiniLakehouse.Ocr

variable {D : Type} [ContentHash D]

/-! ## Configuration -/

/-- `ModelConfig` -/
structure ModelConfig where
  repository : String
  revision : String

def ModelConfig.modelDump (model : ModelConfig) : JsonValue :=
  .obj [("repository", .str model.repository), ("revision", .str model.revision)]

/-- `OcrConfig`, with what `inference.model_dump(mode="json")` spells. -/
structure OcrConfig where
  sdkVersion : String
  adapterVersion : String
  limits : OcrLimits
  model : ModelConfig
  layoutModel : ModelConfig
  inference : JsonValue

/-- `OcrConfig.configuration_hash` -/
def OcrConfig.configurationHash (config : OcrConfig) : D :=
  canonicalJsonSha256 (.obj [("adapter_version", .str config.adapterVersion),
    ("inference", config.inference), ("layout_model", config.layoutModel.modelDump),
    ("model", config.model.modelDump), ("protocol_version", .str ocrProtocolVersion),
    ("sdk_version", .str config.sdkVersion)])

/-- `OcrReuseReference(…)` -/
def OcrReuseReference.modelValidate (pdfSha256 : D) (pdfSizeBytes pageCount : Nat)
    (processingId manifestSha256 : D) : Except Raised (OcrReuseReference D) := do
  let counted ← ensure (1 ≤ pdfSizeBytes ∧ 1 ≤ pageCount)
    (.validationError (if 1 ≤ pdfSizeBytes then "page_count" else "pdf_size_bytes"))
  return ⟨pdfSha256, pdfSizeBytes, pageCount, processingId, manifestSha256, counted.down.1,
    counted.down.2⟩

/-- `OcrConfig.job` -/
def OcrConfig.job (config : OcrConfig) (documentId : String) (sourceRecordSha256 : D)
    (pdfUrl : String) (reuse : Option (OcrReuseReference D)) : Except Raised (OcrJob D) := do
  let document ← ensure (isTextOfLength 1 255 documentId = true) (.validationError "document_id")
  let secure ← ensure ("https://".toList.isPrefixOf pdfUrl.toList = true) (.validationError "pdf_url")
  let identified ← ensure (∀ reference ∈ reuse, reference.processingId =
    Ocr.processingId documentId reference.pdfSha256 config.configurationHash)
    (.validationError s!"OCR reuse identity does not match job configuration for {documentId}")
  return {
    jobId := Ocr.jobId documentId sourceRecordSha256 config.configurationHash
    configHash := config.configurationHash
    limits := config.limits
    documentId := documentId
    sourceRecordSha256 := sourceRecordSha256
    pdfUrl := pdfUrl
    reuse := reuse
    document_bound := document.down
    url_secure := secure.down
    job_identity := rfl
    reuse_identity := identified.down }

/-! ## Tables and objects -/

/-- `{curated_uri}/{product_name}/artifacts/ocr/{document}/{processing_id}` -/
structure ArtifactUri (D : Type) where
  documentId : String
  processingId : D
  deriving DecidableEq

/-- `{artifact_uri}/{relative_path}`, by the parts of the path. -/
structure ObjectKey (D : Type) where
  artifactUri : ArtifactUri D
  relativePath : List String
  deriving DecidableEq

/-- A stored body with the digest of its metadata. -/
structure StoredObject (D : Type) where
  body : Bytes
  sha256 : D

/-- A row of `ocr_documents`. -/
structure OcrDocument (D : Type) where
  arxivId : String
  oaiDatestamp : Day
  sourceRecordSha256 : D
  pdfUrl : String
  pdfSha256 : D
  pdfSizeBytes : Nat
  pageCount : Nat
  processingId : D
  modelRepository : String
  modelRevision : String
  layoutModelRepository : String
  layoutModelRevision : String
  sdkVersion : String
  configHash : D
  artifactUri : ArtifactUri D
  manifestSha256 : D
  processedAt : Instant

structure OcrWorld (D : Type) where
  papers : List (Paper D)
  documents : List (OcrDocument D)
  objects : ObjectKey D → Option (StoredObject D)

/-- The object of a key is replaced. -/
def OcrWorld.store (w : OcrWorld D) (key : ObjectKey D) (object : StoredObject D) : OcrWorld D :=
  { w with objects := fun other => if other = key then some object else w.objects other }

theorem OcrWorld.store_objects (w : OcrWorld D) (key other : ObjectKey D) (object : StoredObject D) :
    (w.store key object).objects other = if other = key then some object else w.objects other := rfl

inductive StoreOp (D : Type) where
  | scanPapers (arxivId : String)
  | scanDocuments (arxivId : String)
  | headObject (key : ObjectKey D)
  | uploadFile (key : ObjectKey D) (body : Bytes) (checksum : D)
  | upsert (document : OcrDocument D)

@[reducible] def StoreOp.Reply : StoreOp D → Type
  | .scanPapers _ => List (Paper D)
  | .scanDocuments _ => List (OcrDocument D)
  | .headObject _ => Option (D × Nat)
  | .uploadFile _ _ _ => Unit
  | .upsert _ => Unit

/-- What a call does and replies; the metadata and the length of an object are what was
uploaded. -/
def storeAnswer : (op : StoreOp D) → OcrWorld D → OcrWorld D × op.Reply
  | .scanPapers arxivId, w => (w, w.papers.filter (·.arxivId = arxivId))
  | .scanDocuments arxivId, w => (w, w.documents.filter (·.arxivId = arxivId))
  | .headObject key, w => (w, (w.objects key).map fun object => (object.sha256, object.body.length))
  | .uploadFile key body checksum, w => (w.store key ⟨body, checksum⟩, ())
  | .upsert document, w =>
      ({ w with documents := w.documents.filter (·.arxivId ≠ document.arxivId) ++ [document] }, ())

/-- Programs over the tables and the object store. -/
abbrev StoreProg (D α : Type) := Prog (StoreOp D) StoreOp.Reply Raised α

def StoreOp.perform (op : StoreOp D) : StoreProg D op.Reply := Prog.perform op

/-! ## Publication -/

/-- `ArxivOcrStore.paper` -/
def ArxivOcrStore.paper (arxivId : String) : StoreProg D (Paper D) := do
  let rows ← (StoreOp.scanPapers arxivId).perform
  match rows with
  | [row] => pure row
  | rows => Prog.raise (.valueError
      s!"Expected one curated ArXiv paper for '{arxivId}', found {rows.length}")

/-- `ArxivOcrStore.document` -/
def ArxivOcrStore.document (arxivId : String) : StoreProg D (Option (OcrDocument D)) := do
  let rows ← (StoreOp.scanDocuments arxivId).perform
  match rows with
  | [] => pure none
  | [row] => pure (some row)
  | _ => Prog.raise (.runtimeError s!"Expected at most one OCR document for '{arxivId}'")

def artifactCollision (key : ObjectKey D) : Raised :=
  .runtimeError s!"Immutable OCR artifact collision at {asPosix key.relativePath}"

/-- `_publish_file` -/
def ArxivOcrStore.publishFile (key : ObjectKey D) (body : Bytes) : StoreProg D Unit := do
  let existing ← (StoreOp.headObject key).perform
  match existing with
  | some (metadata, contentLength) =>
      if metadata = ContentHash.digest body ∧ contentLength = body.length then pure ()
      else Prog.raise (artifactCollision key)
  | none => (StoreOp.uploadFile key body (ContentHash.digest body)).perform

/-- The files of a directory, one after another. -/
def ArxivOcrStore.publishFiles (artifactUri : ArtifactUri D) :
    List (List String × Bytes) → StoreProg D Unit
  | [] => pure ()
  | (path, body) :: files => do
      publishFile ⟨artifactUri, path⟩ body
      publishFiles artifactUri files

/-- `publish` -/
def ArxivOcrStore.publish (document : OcrDocument D) (extracted : ExtractedTree)
    (result : OcrOutput D) : StoreProg D Unit := do
  if result.state = .succeeded then
    publishFiles document.artifactUri (sortOn Prod.fst extracted.files)
  (StoreOp.upsert document).perform

/-! ## One run -/

variable [Gzip] [TarZst]

/-- The row that the run is about to publish. -/
def newDocument (documentId : String) (config : OcrConfig) (paper : Paper D) (result : OcrOutput D)
    (now : Instant) : OcrDocument D where
  arxivId := documentId
  oaiDatestamp := paper.oaiDatestamp
  sourceRecordSha256 := paper.sourceRecordSha256
  pdfUrl := paper.pdfUrl
  pdfSha256 := result.pdfSha256
  pdfSizeBytes := result.pdfSizeBytes
  pageCount := result.pageCount
  processingId := result.processingId
  modelRepository := config.model.repository
  modelRevision := config.model.revision
  layoutModelRepository := config.layoutModel.repository
  layoutModelRevision := config.layoutModel.revision
  sdkVersion := config.sdkVersion
  configHash := config.configurationHash
  artifactUri := ⟨documentId, result.processingId⟩
  manifestSha256 := result.manifestSha256
  processedAt := now

/-- The lineage of a row of the same configuration. -/
def reuseOf (config : OcrConfig) (existing : Option (OcrDocument D)) :
    Except Raised (Option (OcrReuseReference D)) :=
  match existing with
  | none => .ok none
  | some row =>
      if row.configHash = config.configurationHash then
        some <$> OcrReuseReference.modelValidate row.pdfSha256 row.pdfSizeBytes row.pageCount
          row.processingId row.manifestSha256
      else .ok none

/-- The row is the one of the paper's record and of the configuration. -/
def isPublished (config : OcrConfig) (paper : Paper D) (existing : OcrDocument D) : Bool :=
  existing.sourceRecordSha256 = paper.sourceRecordSha256 &&
    existing.configHash = config.configurationHash

/-- `process_arxiv_document`; `modal` is what `modal.run` leaves, or raises, for a job. -/
def processArxivDocument (documentId : String) (config : OcrConfig)
    (modal : OcrJob D → Except Raised OutputDirectory) (now : Instant) :
    StoreProg D (ArtifactUri D × D) := do
  let found ← (ArxivOcrStore.paper documentId).attempt
  let paper ← Prog.lift (found.mapError fun error => .ocrError error.text none)
  if paper.isDeleted then Prog.raise (.ocrError s!"ArXiv paper '{documentId}' is deleted" none)
  else
    let existing ← ArxivOcrStore.document documentId
    match existing.filter (isPublished config paper) with
    | some row => pure (row.artifactUri, row.processingId)
    | none =>
        let reuse ← Prog.lift (reuseOf config existing)
        let job ← Prog.lift (config.job documentId paper.sourceRecordSha256 paper.pdfUrl reuse)
        let output ← Prog.lift (modal job)
        let (result, artifacts) ← Prog.lift (extractOcrOutput output job)
        let document := newDocument documentId config paper result now
        ArxivOcrStore.publish document artifacts result
        pure (document.artifactUri, document.processingId)

end MiniLakehouse.Ocr
