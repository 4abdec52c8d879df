import MiniLakehouse.Ocr.Layout

/-!
# Committed artifacts

`artifacts.py`, `source.py` and the rest of `modal/worker.py`: the files of one
document, the manifest that describes them, and the archive and the result that are
published.  A directory is the list of its files, each under its relative path.

Gzip and the tar archive compressed with zstd are what their libraries document:
what was written is read back.
-/

namespace MiniLakehouse.Ocr

/-- How reading a compressed content can fail. -/
inductive GzipFailure where
  | badGzipFile (message : String)
  | eofError (message : String)
  | zlibError (message : String)

/-- What reading a compressed content delivers, and what it raises after that. -/
structure GzipStream where
  delivered : Bytes
  failure : Option GzipFailure

/-- `gzip` -/
class Gzip where
  compress : Bytes → Bytes
  decompress : Bytes → GzipStream
  decompress_compress : ∀ body, decompress (compress body) = ⟨body, none⟩

inductive MemberKind where
  /-- The declared size of a regular file, what reading it delivers, and the error that ends the
  reading where it is not the end of the content. -/
  | file (size : Nat) (body : Bytes) (failure : Option String)
  | directory
  | other

/-- `tarfile.TarInfo` -/
structure ArchiveMember where
  name : String
  kind : MemberKind

/-- The members that an archive delivers, and the `TarError`, `ZstdError` or `OSError` that it
raises after them. -/
structure ArchiveStream where
  members : List ArchiveMember
  failure : Option String

/-- The members of files that were written whole. -/
def wholeMembers (files : List (String × Bytes)) : List ArchiveMember :=
  files.map fun file => ⟨file.1, .file file.2.length file.2 none⟩

/-- `tarfile` inside `zstandard` -/
class TarZst where
  pack : List (String × Bytes) → Bytes
  unpack : Bytes → ArchiveStream
  unpack_pack : ∀ files : List (String × Bytes), (∀ file ∈ files, isNormalizedPath file.1 = true) →
    unpack (pack files) = ⟨wholeMembers files, none⟩

/-- Files by their relative path. -/
abbrev Directory := List (String × Bytes)

/-- A file moved to a path; what is there is replaced. -/
def Directory.put (directory : Directory) (path : String) (body : Bytes) : Directory :=
  directory.filter (fun file => file.1 ≠ path) ++ [(path, body)]

variable {D : Type} [ContentHash D]

/-! ## Prepared documents -/

structure PreparedDocument (D : Type) where
  documentId : String
  pdfSha256 : D
  pdfSizeBytes : Nat
  pageCount : Nat

/-- `PreparedDocument.processing_id` -/
def PreparedDocument.processingId (prepared : PreparedDocument D) (configurationHash : D) : D :=
  Ocr.processingId prepared.documentId prepared.pdfSha256 configurationHash

/-- `prepare_document` of a downloaded body with `pageCount` pages -/
def prepareDocument (job : OcrJob D) (body : Bytes) (pageCount : Nat) :
    Except Raised (PreparedDocument D) := do
  require (body.length ≤ job.limits.maxPdfBytes) (.ocrError
    s!"PDF exceeds the {job.limits.maxPdfBytes}-byte limit" (some "pdf_too_large"))
  require (body.take 5 = utf8 "%PDF-") (.ocrError "Downloaded content is not a PDF"
    (some "invalid_pdf"))
  require (pageCount ≠ 0) (.ocrError "PDF has no pages" (some "empty_pdf"))
  require (pageCount ≤ job.limits.maxPagesPerDocument) (.ocrError
    s!"PDF has {pageCount} pages; maximum is {job.limits.maxPagesPerDocument}"
    (some "pdf_too_many_pages"))
  let prepared : PreparedDocument D :=
    ⟨job.documentId, ContentHash.digest body, body.length, pageCount⟩
  require (job.reuse.all fun reuse => reuse.pdfSha256 ≠ prepared.pdfSha256 ∨
      reuse.matches prepared.pdfSha256 prepared.pdfSizeBytes prepared.pageCount) (.ocrError
    "Previously imported OCR lineage disagrees with unchanged PDF content"
    (some "reuse_lineage_mismatch"))
  return prepared

/-! ## Files of a document -/

/-- One directory that the SDK has written: the visualizations of `layout_vis`, and the entries
of `imgs` with the body of those that are files.  No name on a file system has a null byte. -/
structure SdkRoot where
  visualizations : List (String × Bytes)
  images : Option (List (String × Option Bytes))
  images_named : ∀ entries ∈ images, ∀ entry ∈ entries, '\x00' ∉ entry.1.toList

/-- What the SDK returns for a document. -/
structure Parsed where
  jsonResult : JsonResult
  roots : List SdkRoot

/-- The visualizations in the order of their names, numbered from a page on. -/
def moveVisualizations : Nat → List (String × Bytes) → Directory → Directory
  | _, [], directory => directory
  | pageNumber, source :: sources, directory =>
      moveVisualizations (pageNumber + 1) sources
        (directory.put ("layout_vis/page-" ++ fourDigits pageNumber ++ ".jpg") source.2)

def moveImages : List (String × Option Bytes) → Directory → Except Raised Directory
  | [], directory => .ok directory
  | (name, some body) :: images, directory => moveImages images (directory.put ("imgs/" ++ name) body)
  | (name, none) :: _, _ =>
      .error (invalidModelOutput s!"Unsafe GLM-OCR SDK image output: '{name}'")

/-- `_save_sdk_artifacts` -/
def saveSdkArtifacts (roots : List SdkRoot) (expectedPages : Nat) (directory : Directory) :
    Except Raised Directory :=
  match roots with
  | [root] => do
      require (root.visualizations.length = expectedPages) (.ocrError
        s!"GLM-OCR SDK produced {root.visualizations.length} visualizations; expected {expectedPages}"
        (some "incomplete_model_output"))
      moveImages (root.images.getD [])
        (moveVisualizations 1 (sortOn Prod.fst root.visualizations) directory)
  | _ => .error (.ocrError s!"GLM-OCR SDK produced {roots.length} output roots; expected one"
      (some "incomplete_model_output"))

/-- `write_elements`, uncompressed -/
def elementLines (elements : List (OcrElement D)) : Bytes :=
  elements.flatMap fun element => utf8 (element.modelDump.dumps .compact) ++ [10]

/-- `value.model_dump_json()` of a bundle -/
def bundleText (bundle : OcrPageMarkdownBundle) : Bytes := utf8 (bundle.modelDump.dumps .compact)

/-- `_MEDIA_TYPES.get(path.suffix.lower(), "application/octet-stream")` -/
def mediaType (path : String) : String :=
  let suffix := lower (pathSuffix ((pathParts path).getLastD ""))
  if suffix = ".gz" then "application/gzip"
  else if suffix = ".jpg" ∨ suffix = ".jpeg" then "image/jpeg"
  else if suffix = ".png" then "image/png"
  else "application/octet-stream"

def outputTooLarge (maximumBytes : Nat) : Raised :=
  .ocrError s!"OCR output exceeds the {maximumBytes}-byte limit" (some "ocr_output_too_large")

/-- The files from a total size on. -/
def describeFiles (maximumBytes : Nat) : Nat → Directory → Except Raised (List (ArtifactFile D))
  | _, [] => .ok []
  | total, (path, body) :: files => do
      require (total + body.length ≤ maximumBytes) (outputTooLarge maximumBytes)
      let file ← ArtifactFileFields.validate
        ⟨path, ContentHash.digest body, body.length, mediaType path⟩
      let rest ← describeFiles maximumBytes (total + body.length) files
      return file :: rest

/-- `sorted(root.rglob("*"))` -/
def sortedFiles (directory : Directory) : Directory := sortOn (fun file => pathParts file.1) directory

/-- `describe_artifacts` -/
def describeArtifacts (directory : Directory) (maximumBytes : Nat) :
    Except Raised (List (ArtifactFile D)) :=
  describeFiles maximumBytes 0 (sortedFiles directory)

def totalSize (files : List (ArtifactFile D)) : Nat := (files.map fun file => file.sizeBytes).sum

/-- `build_document_manifest` -/
def buildDocumentManifest (job : OcrJob D) (prepared : PreparedDocument D)
    (files : List (ArtifactFile D)) : Except Raised (OcrDocumentManifest D) := do
  let manifest ← OcrDocumentManifestFields.validate
    { documentId := prepared.documentId
      files := files
      pageCount := prepared.pageCount
      pdfSha256 := prepared.pdfSha256
      pdfSizeBytes := prepared.pdfSizeBytes
      processingId := prepared.processingId job.configHash }
  require (totalSize files + (canonicalJsonBytes manifest.modelDump).length ≤
    job.limits.maxOutputBytes) (outputTooLarge job.limits.maxOutputBytes)
  return manifest

/-! ## Processing and committing -/

variable [Gzip] [TarZst] (parseJson : String → Option JsonValue)

/-- The elements of a layout. -/
def layoutElements (job : OcrJob D) (prepared : PreparedDocument D) (result : JsonResult) :
    Except Raised (List (OcrElement D)) := do
  let pages ← normalizedLayout parseJson result prepared.pageCount
  canonicalElements pages (prepared.processingId job.configHash)

/-- The files of `committed-output`. -/
def documentFiles (job : OcrJob D) (prepared : PreparedDocument D) (parsed : Parsed) :
    Except Raised Directory := do
  let elements ← layoutElements parseJson job prepared parsed.jsonResult
  let bundle ← buildPageMarkdownBundle elements prepared.pageCount
  saveSdkArtifacts parsed.roots prepared.pageCount
    [(pageMarkdownBundlePath, Gzip.compress (bundleText bundle)),
      (elementsPath, Gzip.compress (elementLines elements))]

/-- `except OcrError: raise` and `except (OSError, ValueError)` -/
def artifactGenerationFailed : Raised → Raised
  | .ocrError message code => .ocrError message code
  | error => .ocrError error.text (some "artifact_generation_failed")

/-- `process_document`; `parser.parse` has returned, or raised with a message. -/
def processDocument (job : OcrJob D) (prepared : PreparedDocument D)
    (parsed : Except String Parsed) : Except Raised (OcrDocumentManifest D × Directory) := do
  let parsed ← parsed.mapError fun message => .ocrError message (some "ocr_inference_failed")
  let directory ← (documentFiles parseJson job prepared parsed).mapError artifactGenerationFailed
  let files ← (describeArtifacts directory job.limits.maxOutputBytes).mapError
    artifactGenerationFailed
  let manifest ← buildDocumentManifest job prepared files
  return (manifest, directory)

/-- `result.json` and `artifacts.tar.zst` of an output directory. -/
structure OutputDirectory where
  result : Option Bytes
  archive : Option Bytes

/-- `create_archive` -/
def createArchive (directory : Directory) : Bytes := TarZst.pack (sortedFiles directory)

/-- `commit_output` -/
def commitOutput (job : OcrJob D) (prepared : PreparedDocument D)
    (manifest : Option (OcrDocumentManifest D)) (artifacts : Directory) (createdAt : String) :
    Except Raised OutputDirectory := do
  let archive := createArchive artifacts
  let (processing, manifestSha256) ← match manifest, job.reuse with
    | some manifest, _ => .ok (manifest.processingId, canonicalJsonSha256 manifest.modelDump)
    | none, some reuse => .ok (reuse.processingId, reuse.manifestSha256)
    | none, none =>
        .error (.valueError "A reused output requires previous document lineage")
  let output ← OcrOutputFields.validate
    { jobId := job.jobId
      createdAt := createdAt
      archiveSha256 := ContentHash.digest archive
      archiveSizeBytes := archive.length
      documentId := job.documentId
      state := if manifest.isSome then .succeeded else .reused
      pdfSha256 := prepared.pdfSha256
      pdfSizeBytes := prepared.pdfSizeBytes
      pageCount := prepared.pageCount
      processingId := processing
      manifestSha256 := manifestSha256
      manifest := manifest }
  return ⟨some (utf8 (output.modelDump.dumps .indented)), some archive⟩

/-- `run`: an unchanged document commits its previous lineage with no artifacts. -/
def run (job : OcrJob D) (body : Bytes) (pageCount : Nat) (parsed : Except String Parsed)
    (createdAt : String) : Except Raised OutputDirectory := do
  let prepared ← prepareDocument job body pageCount
  if job.reuse.any fun reuse =>
      reuse.matches prepared.pdfSha256 prepared.pdfSizeBytes prepared.pageCount then
    commitOutput job prepared none [] createdAt
  else
    let processed ← processDocument parseJson job prepared parsed
    commitOutput job prepared (some processed.1) processed.2 createdAt

end MiniLakehouse.Ocr
