import MiniLakehouse.Library.Checked
import MiniLakehouse.Library.JsonText
import MiniLakehouse.Library.Validation

/-!
# The OCR protocol

`document_ocr/protocol.py` and `identity.py`: the records that the OCR worker and
its client exchange.  A record carries its validators as a field.  `modelDump` is
the JSON value that pydantic writes of a record, `modelValidate` what it reads back;
a text or a number is read as such, without the coercions of pydantic's lax mode.

Digests are of a type `D` with a digest of bytes and a hexadecimal text; a time
stamp is kept as its text.
-/

namespace MiniLakehouse

/-- SHA-256 of bytes, and its text. -/
class ContentHash (D : Type) where
  decEq : DecidableEq D
  digest : Bytes → D
  hexdigest : D → String
  ofHexdigest : String → Option D
  ofHexdigest_hexdigest : ∀ d, ofHexdigest (hexdigest d) = some d

instance {D : Type} [ContentHash D] : DecidableEq D := ContentHash.decEq

/-- No two contents share a digest. -/
def DistinctDigests (D : Type) [ContentHash D] : Prop :=
  Function.Injective (ContentHash.digest : Bytes → D)

namespace Ocr

/-- What the package raises. -/
inductive Raised where
  /-- `OcrError` -/
  | ocrError (message : String) (code : Option String)
  /-- `pydantic.ValidationError` -/
  | validationError (message : String)
  | valueError (message : String)
  | runtimeError (message : String)
  /-- `InvalidOcrArchiveError` -/
  | invalidOcrArchive (message : String)
  /-- `InvalidPageMarkdownBundleError` -/
  | invalidPageMarkdownBundle (message : String)
  | eofError (message : String)
  /-- `zlib.error` -/
  | zlibError (message : String)
  | osError (message : String)
  deriving DecidableEq, Repr

/-- `str(error)` -/
def Raised.text : Raised → String
  | ocrError message none => message
  | ocrError message (some code) => s!"{code}: {message}"
  | validationError message => message
  | valueError message => message
  | runtimeError message => message
  | invalidOcrArchive message => message
  | invalidPageMarkdownBundle message => message
  | eofError message => message
  | zlibError message => message
  | osError message => message

/-! ## POSIX paths -/

/-- `PurePosixPath(value).is_absolute()` -/
def isAbsolute (value : String) : Bool := value.toList.head? == some '/'

/-- `PurePosixPath(value).parts` of a relative path -/
def pathParts (value : String) : List String :=
  ((value.toList.splitOn '/').map String.ofList).filter fun part => part != "" && part != "."

/-- `PurePosixPath(…).as_posix()` of a relative path -/
def asPosix (parts : List String) : String :=
  if parts = [] then "." else "/".intercalate parts

/-- A normalized relative path, written as pathlib writes it. -/
def isNormalizedPath (value : String) : Bool :=
  !isAbsolute value && value != "" && value == asPosix (pathParts value) &&
    !(pathParts value).contains ".."

/-- `path.suffix` of a last part -/
def pathSuffix (name : String) : String :=
  let tail := (name.toList.reverse.takeWhile (· ≠ '.')).reverse
  let stem := name.toList.take (name.toList.length - tail.length - 1)
  if '.' ∈ name.toList ∧ stem ≠ [] ∧ tail ≠ [] then String.ofList ('.' :: tail) else ""

/-- `path.with_suffix("").as_posix()` of a path with two parts -/
def withoutSuffix (directory name : String) : String :=
  asPosix [directory, String.ofList (name.toList.take (name.toList.length - (pathSuffix name).length))]

/-- `str.lower` of a suffix -/
def lower (text : String) : String := String.ofList (text.toList.map Char.toLower)

/-- The number in at least four digits. -/
def fourDigits (value : Nat) : String :=
  let digits := Nat.toDigits 10 value
  String.ofList (List.replicate (4 - digits.length) '0' ++ digits)

/-! ## Constants -/

def ocrProtocolVersion : String := "3.0.0"

/-- `PAGE_MARKDOWN_BUNDLE_PATH` -/
def pageMarkdownBundlePath : String := "pages.json.gz"

def elementsPath : String := "elements.jsonl.gz"

/-- `DOCUMENT_MANIFEST_PATH` -/
def documentManifestPath : String := "manifest.json"

/-! ## Reading fields -/

def isTextOfLength (low high : Nat) (value : String) : Bool :=
  low ≤ value.length && value.length ≤ high

def asText : JsonValue → Option String
  | .str value => some value
  | _ => none

def asNat : JsonValue → Option Nat
  | .int value => if 0 ≤ value then some value.toNat else none
  | _ => none

def asList : JsonValue → Option (List JsonValue)
  | .arr items => some items
  | _ => none

/-- `… | None` -/
def asOption {α : Type} (read : JsonValue → Option α) : JsonValue → Option (Option α)
  | .null => some none
  | value => (read value).map some

/-- The members of an object with no other names than the model's (`extra="forbid"`). -/
def modelFields (names : List String) : JsonValue → Except Raised (List (String × JsonValue))
  | .obj members =>
      if members.all fun member => names.contains member.1 then .ok members
      else .error (.validationError "Extra inputs are not permitted")
  | _ => .error (.validationError "Input should be an object")

/-- A field, or its default where it has one. -/
def readField {α : Type} (members : List (String × JsonValue)) (name : String)
    (default : Option α) (read : JsonValue → Option α) : Except Raised α :=
  match members.find? (·.1 == name) with
  | some member => (read member.2).elim (.error (.validationError name)) .ok
  | none => default.elim (.error (.validationError s!"{name}: Field required")) .ok

variable {D : Type} [ContentHash D]

def asDigest (value : JsonValue) : Option D := (asText value).bind ContentHash.ofHexdigest

def hexValueOf (digest : D) : JsonValue := .str (ContentHash.hexdigest digest)

def optionValue {α : Type} (write : α → JsonValue) : Option α → JsonValue
  | none => .null
  | some value => write value

/-! ## Identity -/

/-- `canonical_json_sha256` -/
def canonicalJsonSha256 (value : JsonValue) : D := ContentHash.digest (canonicalJsonBytes value)

/-- `job_id` -/
def jobId (documentId : String) (sourceRecordSha256 configurationHash : D) : D :=
  canonicalJsonSha256 (.obj [("document_id", .str documentId),
    ("config_hash", hexValueOf configurationHash),
    ("source_record_sha256", hexValueOf sourceRecordSha256)])

/-- `processing_id` -/
def processingId (documentId : String) (pdfSha256 configurationHash : D) : D :=
  canonicalJsonSha256 (.obj [("document_id", .str documentId),
    ("config_hash", hexValueOf configurationHash), ("pdf_sha256", hexValueOf pdfSha256)])

/-! ## Jobs -/

structure OcrReuseReference (D : Type) where
  pdfSha256 : D
  pdfSizeBytes : Nat
  pageCount : Nat
  processingId : D
  manifestSha256 : D
  size_bound : 1 ≤ pdfSizeBytes
  page_bound : 1 ≤ pageCount

/-- `OcrReuseReference.matches` -/
def OcrReuseReference.matches (reuse : OcrReuseReference D) (pdfSha256 : D)
    (pdfSizeBytes pageCount : Nat) : Bool :=
  reuse.pdfSha256 = pdfSha256 && reuse.pdfSizeBytes = pdfSizeBytes && reuse.pageCount = pageCount

structure OcrLimits where
  maxPdfBytes : Nat
  maxPagesPerDocument : Nat
  maxOutputBytes : Nat
  pdf_bound : 1024 * 1024 ≤ maxPdfBytes
  pages_bound : 1 ≤ maxPagesPerDocument ∧ maxPagesPerDocument ≤ 2000
  output_bound : 1024 * 1024 ≤ maxOutputBytes

/-- One deterministic document request. -/
structure OcrJob (D : Type) [ContentHash D] where
  jobId : D
  configHash : D
  limits : OcrLimits
  documentId : String
  sourceRecordSha256 : D
  pdfUrl : String
  reuse : Option (OcrReuseReference D)
  document_bound : isTextOfLength 1 255 documentId = true
  url_secure : "https://".toList.isPrefixOf pdfUrl.toList = true
  job_identity : jobId = Ocr.jobId documentId sourceRecordSha256 configHash
  reuse_identity : ∀ reference ∈ reuse,
    reference.processingId = Ocr.processingId documentId reference.pdfSha256 configHash

/-! ## Artifacts -/

structure ArtifactFileFields (D : Type) where
  relativePath : String
  sha256 : D
  sizeBytes : Nat
  mediaType : String

def ArtifactFileFields.checks (fields : ArtifactFileFields D) : List (Check Raised) :=
  [⟨isNormalizedPath fields.relativePath,
      .validationError "Artifact paths must be normalized relative POSIX paths"⟩,
    ⟨fields.mediaType != "", .validationError "media_type"⟩]

structure ArtifactFile (D : Type) [ContentHash D] extends ArtifactFileFields D where
  valid : AllHold toArtifactFileFields.checks

/-- `ArtifactFile(…)` -/
def ArtifactFileFields.validate (fields : ArtifactFileFields D) : Except Raised (ArtifactFile D) :=
  validated fields.checks fun valid => ⟨fields, valid⟩

def ArtifactFile.modelDump (file : ArtifactFile D) : JsonValue :=
  .obj [("relative_path", .str file.relativePath), ("sha256", hexValueOf file.sha256),
    ("size_bytes", .int file.sizeBytes), ("media_type", .str file.mediaType)]

def ArtifactFile.modelValidate (value : JsonValue) : Except Raised (ArtifactFile D) := do
  let members ← modelFields ["relative_path", "sha256", "size_bytes", "media_type"] value
  let relativePath ← readField members "relative_path" none asText
  let sha256 ← readField members "sha256" none asDigest
  let sizeBytes ← readField members "size_bytes" none asNat
  let mediaType ← readField members "media_type" none asText
  ArtifactFileFields.validate ⟨relativePath, sha256, sizeBytes, mediaType⟩

/-! ## Elements and pages -/

structure OcrElementFields (D : Type) where
  elementId : D
  pageNumber : Nat
  readingOrder : Nat
  elementType : String
  bboxJson : Option String
  textContent : String
  markdownContent : Option String
  parentElementId : Option D
  rawAttributesJson : Option String

def OcrElementFields.checks (fields : OcrElementFields D) : List (Check Raised) :=
  [⟨1 ≤ fields.pageNumber, .validationError "page_number"⟩,
    ⟨isTextOfLength 1 100 fields.elementType, .validationError "element_type"⟩]

structure OcrElement (D : Type) extends OcrElementFields D where
  valid : AllHold toOcrElementFields.checks

/-- `OcrElement(…)` -/
def OcrElementFields.validate (fields : OcrElementFields D) : Except Raised (OcrElement D) :=
  validated fields.checks fun valid => ⟨fields, valid⟩

def OcrElement.modelDump (element : OcrElement D) : JsonValue :=
  .obj [("element_id", hexValueOf element.elementId), ("page_number", .int element.pageNumber),
    ("reading_order", .int element.readingOrder), ("element_type", .str element.elementType),
    ("bbox_json", optionValue .str element.bboxJson), ("text_content", .str element.textContent),
    ("markdown_content", optionValue .str element.markdownContent),
    ("parent_element_id", optionValue hexValueOf element.parentElementId),
    ("raw_attributes_json", optionValue .str element.rawAttributesJson)]

def OcrElement.modelValidate (value : JsonValue) : Except Raised (OcrElement D) := do
  let members ← modelFields ["element_id", "page_number", "reading_order", "element_type",
    "bbox_json", "text_content", "markdown_content", "parent_element_id",
    "raw_attributes_json"] value
  let elementId ← readField members "element_id" none asDigest
  let pageNumber ← readField members "page_number" none asNat
  let readingOrder ← readField members "reading_order" none asNat
  let elementType ← readField members "element_type" none asText
  let bboxJson ← readField members "bbox_json" (some none) (asOption asText)
  let textContent ← readField members "text_content" none asText
  let markdownContent ← readField members "markdown_content" (some none) (asOption asText)
  let parentElementId ← readField members "parent_element_id" (some none) (asOption asDigest)
  let rawAttributesJson ← readField members "raw_attributes_json" (some none) (asOption asText)
  OcrElementFields.validate ⟨elementId, pageNumber, readingOrder, elementType, bboxJson,
    textContent, markdownContent, parentElementId, rawAttributesJson⟩

structure OcrPageMarkdown where
  pageNumber : Nat
  markdown : String
  deriving DecidableEq

def OcrPageMarkdown.modelDump (page : OcrPageMarkdown) : JsonValue :=
  .obj [("page_number", .int page.pageNumber), ("markdown", .str page.markdown)]

def OcrPageMarkdown.modelValidate (value : JsonValue) : Except Raised OcrPageMarkdown := do
  let members ← modelFields ["page_number", "markdown"] value
  let pageNumber ← readField members "page_number" none asNat
  let markdown ← readField members "markdown" none asText
  require (1 ≤ pageNumber) (.validationError "page_number")
  return ⟨pageNumber, markdown⟩

def pageChecks (pages : List OcrPageMarkdown) : List (Check Raised) :=
  [⟨1 ≤ pages.length, .validationError "pages"⟩, ⟨pages.length ≤ 2000, .validationError "pages"⟩,
    ⟨pages.map OcrPageMarkdown.pageNumber == List.range' 1 pages.length,
      .validationError "OCR page Markdown numbers must be consecutive and ordered"⟩]

structure OcrPageMarkdownBundle where
  pages : List OcrPageMarkdown
  valid : AllHold (pageChecks pages)

/-- `OcrPageMarkdownBundle(…)` -/
def OcrPageMarkdownBundle.validate (pages : List OcrPageMarkdown) :
    Except Raised OcrPageMarkdownBundle :=
  validated (pageChecks pages) fun valid => ⟨pages, valid⟩

def schemaVersion : String × JsonValue := ("schema_version", .str ocrProtocolVersion)

/-- `Literal["3.0.0"] = OCR_PROTOCOL_VERSION` -/
def readSchemaVersion (members : List (String × JsonValue)) : Except Raised Unit := do
  let version ← readField members "schema_version" (some ocrProtocolVersion) asText
  require (version = ocrProtocolVersion) (.validationError "schema_version")

def OcrPageMarkdownBundle.modelDump (bundle : OcrPageMarkdownBundle) : JsonValue :=
  .obj [schemaVersion, ("pages", .arr (bundle.pages.map OcrPageMarkdown.modelDump))]

def OcrPageMarkdownBundle.modelValidate (value : JsonValue) :
    Except Raised OcrPageMarkdownBundle := do
  let members ← modelFields ["schema_version", "pages"] value
  readSchemaVersion members
  let items ← readField members "pages" none asList
  let pages ← items.mapM OcrPageMarkdown.modelValidate
  validate pages

/-! ## Manifests -/

/-- The paths that every successful result has. -/
def requiredPaths : List String := [pageMarkdownBundlePath, elementsPath]

def isImageSuffix (suffix : String) : Bool := [".jpg", ".jpeg", ".png"].contains (lower suffix)

/-- A path of two parts with the suffix of an image. -/
def imageIn (directory : String) (value : String) : Bool :=
  match pathParts value with
  | [first, name] => first == directory && isImageSuffix (pathSuffix name)
  | _ => false

/-- The visualization that a path names, without its suffix. -/
def visualizationOf (value : String) : Option String :=
  if requiredPaths.contains value then none
  else if imageIn "layout_vis" value then
    match pathParts value with
    | [first, name] => some (withoutSuffix first name)
    | _ => none
  else none

/-- A path that a document may contain. -/
def isSupportedPath (value : String) : Bool :=
  requiredPaths.contains value || imageIn "layout_vis" value || imageIn "imgs" value

def expectedVisualizations (pageCount : Nat) : List String :=
  (List.range' 1 pageCount).map fun page => "layout_vis/page-" ++ fourDigits page

/-- `validate_document_artifact_paths` -/
def documentArtifactChecks (paths : List String) (pageCount : Nat) : List (Check Raised) :=
  let actual := paths.filterMap visualizationOf
  let unsupported := paths.find? fun value => !isSupportedPath value
  [⟨paths.Nodup, .validationError "OCR result artifact paths must be unique"⟩,
    ⟨requiredPaths.all paths.contains,
      .validationError "Successful OCR results require pages.json.gz and elements.jsonl.gz"⟩,
    ⟨unsupported.isNone,
      .validationError ("Unsupported OCR document artifact path: " ++ unsupported.getD "")⟩,
    ⟨actual.length == pageCount && actual.all (expectedVisualizations pageCount).contains &&
        (expectedVisualizations pageCount).all actual.contains,
      .validationError "Successful OCR results require exactly one visualization per page"⟩]

structure OcrDocumentManifestFields (D : Type) [ContentHash D] where
  documentId : String
  files : List (ArtifactFile D)
  pageCount : Nat
  pdfSha256 : D
  pdfSizeBytes : Nat
  processingId : D

def OcrDocumentManifestFields.checks (fields : OcrDocumentManifestFields D) :
    List (Check Raised) :=
  [⟨isTextOfLength 1 255 fields.documentId, .validationError "document_id"⟩,
    ⟨1 ≤ fields.pageCount, .validationError "page_count"⟩,
    ⟨1 ≤ fields.pdfSizeBytes, .validationError "pdf_size_bytes"⟩] ++
  documentArtifactChecks (fields.files.map fun file => file.relativePath) fields.pageCount

structure OcrDocumentManifest (D : Type) [ContentHash D] extends OcrDocumentManifestFields D where
  valid : AllHold toOcrDocumentManifestFields.checks

/-- `OcrDocumentManifest(…)` -/
def OcrDocumentManifestFields.validate (fields : OcrDocumentManifestFields D) :
    Except Raised (OcrDocumentManifest D) :=
  validated fields.checks fun valid => ⟨fields, valid⟩

def OcrDocumentManifest.modelDump (manifest : OcrDocumentManifest D) : JsonValue :=
  .obj [schemaVersion, ("document_id", .str manifest.documentId),
    ("files", .arr (manifest.files.map ArtifactFile.modelDump)),
    ("page_count", .int manifest.pageCount), ("pdf_sha256", hexValueOf manifest.pdfSha256),
    ("pdf_size_bytes", .int manifest.pdfSizeBytes),
    ("processing_id", hexValueOf manifest.processingId)]

def OcrDocumentManifest.modelValidate (value : JsonValue) :
    Except Raised (OcrDocumentManifest D) := do
  let members ← modelFields ["schema_version", "document_id", "files", "page_count", "pdf_sha256",
    "pdf_size_bytes", "processing_id"] value
  readSchemaVersion members
  let documentId ← readField members "document_id" none asText
  let items ← readField members "files" none asList
  let files ← items.mapM ArtifactFile.modelValidate
  let pageCount ← readField members "page_count" none asNat
  let pdfSha256 ← readField members "pdf_sha256" none asDigest
  let pdfSizeBytes ← readField members "pdf_size_bytes" none asNat
  let processingId ← readField members "processing_id" none asDigest
  OcrDocumentManifestFields.validate
    ⟨documentId, files, pageCount, pdfSha256, pdfSizeBytes, processingId⟩

/-! ## Results -/

inductive DocumentState where
  | succeeded
  | reused
  deriving DecidableEq

def DocumentState.text : DocumentState → String
  | succeeded => "succeeded"
  | reused => "reused"

def asDocumentState (value : JsonValue) : Option DocumentState :=
  (asText value).bind fun text => [DocumentState.succeeded, .reused].find? (·.text == text)

structure OcrOutputFields (D : Type) [ContentHash D] where
  jobId : D
  createdAt : String
  archiveSha256 : D
  archiveSizeBytes : Nat
  documentId : String
  state : DocumentState
  pdfSha256 : D
  pdfSizeBytes : Nat
  pageCount : Nat
  processingId : D
  manifestSha256 : D
  manifest : Option (OcrDocumentManifest D)

def OcrOutputFields.checks (fields : OcrOutputFields D) : List (Check Raised) :=
  [⟨1 ≤ fields.archiveSizeBytes, .validationError "archive_size_bytes"⟩,
    ⟨isTextOfLength 1 255 fields.documentId, .validationError "document_id"⟩,
    ⟨1 ≤ fields.pdfSizeBytes, .validationError "pdf_size_bytes"⟩,
    ⟨1 ≤ fields.pageCount, .validationError "page_count"⟩,
    ⟨fields.state = .succeeded ∨ fields.manifest = none,
      .validationError "Only a newly succeeded run can publish a document manifest"⟩,
    ⟨fields.state ≠ .succeeded ∨ fields.manifest.isSome,
      .validationError "A succeeded run requires a document manifest"⟩,
    ⟨fields.manifest.all fun manifest => manifest.documentId = fields.documentId ∧
        manifest.pageCount = fields.pageCount ∧ manifest.pdfSha256 = fields.pdfSha256 ∧
        manifest.pdfSizeBytes = fields.pdfSizeBytes ∧ manifest.processingId = fields.processingId,
      .validationError "OCR document manifest lineage does not match its result"⟩,
    ⟨fields.manifest.all fun manifest =>
        canonicalJsonSha256 manifest.modelDump = fields.manifestSha256,
      .validationError "OCR document manifest checksum does not match its result"⟩]

structure OcrOutput (D : Type) [ContentHash D] extends OcrOutputFields D where
  valid : AllHold toOcrOutputFields.checks

/-- `OcrOutput(…)` -/
def OcrOutputFields.validate (fields : OcrOutputFields D) : Except Raised (OcrOutput D) :=
  validated fields.checks fun valid => ⟨fields, valid⟩

def OcrOutput.modelDump (output : OcrOutput D) : JsonValue :=
  .obj [schemaVersion, ("job_id", hexValueOf output.jobId), ("created_at", .str output.createdAt),
    ("archive_sha256", hexValueOf output.archiveSha256),
    ("archive_size_bytes", .int output.archiveSizeBytes), ("document_id", .str output.documentId),
    ("state", .str output.state.text), ("pdf_sha256", hexValueOf output.pdfSha256),
    ("pdf_size_bytes", .int output.pdfSizeBytes), ("page_count", .int output.pageCount),
    ("processing_id", hexValueOf output.processingId),
    ("manifest_sha256", hexValueOf output.manifestSha256),
    ("manifest", optionValue OcrDocumentManifest.modelDump output.manifest)]

def OcrOutput.modelValidate (value : JsonValue) : Except Raised (OcrOutput D) := do
  let members ← modelFields ["schema_version", "job_id", "created_at", "archive_sha256",
    "archive_size_bytes", "document_id", "state", "pdf_sha256", "pdf_size_bytes", "page_count",
    "processing_id", "manifest_sha256", "manifest"] value
  readSchemaVersion members
  let jobId ← readField members "job_id" none asDigest
  let createdAt ← readField members "created_at" none asText
  let archiveSha256 ← readField members "archive_sha256" none asDigest
  let archiveSizeBytes ← readField members "archive_size_bytes" none asNat
  let documentId ← readField members "document_id" none asText
  let state ← readField members "state" none asDocumentState
  let pdfSha256 ← readField members "pdf_sha256" none asDigest
  let pdfSizeBytes ← readField members "pdf_size_bytes" none asNat
  let pageCount ← readField members "page_count" none asNat
  let processingId ← readField members "processing_id" none asDigest
  let manifestSha256 ← readField members "manifest_sha256" none asDigest
  let found ← readField members "manifest" (some none) (asOption some)
  let manifest ← found.mapM OcrDocumentManifest.modelValidate
  OcrOutputFields.validate ⟨jobId, createdAt, archiveSha256, archiveSizeBytes, documentId, state,
    pdfSha256, pdfSizeBytes, pageCount, processingId, manifestSha256, manifest⟩

/-! ## What is written is read back -/

section RoundTrip

theorem readField_head {α : Type} {name : String} {value : JsonValue}
    {members : List (String × JsonValue)} {default : Option α} {read : JsonValue → Option α} {a : α}
    (h : read value = some a) : readField ((name, value) :: members) name default read = .ok a := by
  simp [readField, h]

theorem readField_tail {α : Type} {name other : String} {value : JsonValue}
    {members : List (String × JsonValue)} {default : Option α} {read : JsonValue → Option α}
    (h : other ≠ name) :
    readField ((other, value) :: members) name default read = readField members name default read := by
  have hne : (other == name) = false := by simpa using h
  simp [readField, hne]

@[simp] theorem asText_str (text : String) : asText (.str text) = some text := rfl

@[simp] theorem asNat_int (n : Nat) : asNat (.int n) = some n := by simp [asNat]

@[simp] theorem asDigest_hexValueOf (d : D) : asDigest (hexValueOf d) = some d := by
  simp [asDigest, hexValueOf, ContentHash.ofHexdigest_hexdigest]

theorem asOption_optionValue {α : Type} {read : JsonValue → Option α} {write : α → JsonValue}
    (hnull : ∀ a, write a ≠ .null) (h : ∀ a, read (write a) = some a) (found : Option α) :
    asOption read (optionValue write found) = some found := by
  cases found with
  | none => rfl
  | some a =>
      have hread := h a
      have hne := hnull a
      simp only [optionValue]
      cases hvalue : write a <;> simp_all [asOption]

theorem ArtifactFile.modelValidate_modelDump (file : ArtifactFile D) :
    ArtifactFile.modelValidate file.modelDump = .ok file := by
  have hvalid : file.toArtifactFileFields.validate = .ok file := validated_of file.valid
  simp [modelValidate, modelDump, modelFields, readField, hvalid]

theorem OcrElement.modelValidate_modelDump (element : OcrElement D) :
    OcrElement.modelValidate element.modelDump = .ok element := by
  have hvalid : element.toOcrElementFields.validate = .ok element := validated_of element.valid
  have htext : ∀ found, asOption asText (optionValue .str found) = some found :=
    asOption_optionValue (by simp) asText_str
  have hdigest : ∀ found : Option D, asOption asDigest (optionValue hexValueOf found) = some found :=
    asOption_optionValue (by simp [hexValueOf]) asDigest_hexValueOf
  simp [modelValidate, modelDump, modelFields, readField, htext, hdigest, hvalid]

theorem OcrPageMarkdown.modelValidate_modelDump {page : OcrPageMarkdown} (h : 1 ≤ page.pageNumber) :
    OcrPageMarkdown.modelValidate page.modelDump = .ok page := by
  simp [modelValidate, modelDump, modelFields, readField, require, h]

theorem OcrPageMarkdownBundle.pageNumber_pos (bundle : OcrPageMarkdownBundle)
    {page : OcrPageMarkdown} (hpage : page ∈ bundle.pages) : 1 ≤ page.pageNumber := by
  have hnumbers : bundle.pages.map OcrPageMarkdown.pageNumber = List.range' 1 bundle.pages.length := by
    have hvalid := bundle.valid
    simp only [pageChecks, allHold_cons, beq_iff_eq] at hvalid
    exact hvalid.2.2.1
  have hmem := List.mem_map_of_mem (f := OcrPageMarkdown.pageNumber) hpage
  rw [hnumbers, List.mem_range'_1] at hmem
  exact hmem.1

theorem OcrPageMarkdownBundle.modelValidate_modelDump (bundle : OcrPageMarkdownBundle) :
    OcrPageMarkdownBundle.modelValidate bundle.modelDump = .ok bundle := by
  have hvalid : OcrPageMarkdownBundle.validate bundle.pages = .ok bundle := validated_of bundle.valid
  have hpages : (bundle.pages.map OcrPageMarkdown.modelDump).mapM OcrPageMarkdown.modelValidate =
      .ok bundle.pages :=
    mapM_written fun page hpage =>
      OcrPageMarkdown.modelValidate_modelDump (bundle.pageNumber_pos hpage)
  simp [modelValidate, modelDump, modelFields, readField, schemaVersion, asList, hpages, hvalid,
    readSchemaVersion, require]

theorem OcrDocumentManifest.modelValidate_modelDump (manifest : OcrDocumentManifest D) :
    OcrDocumentManifest.modelValidate manifest.modelDump = .ok manifest := by
  have hvalid : manifest.toOcrDocumentManifestFields.validate = .ok manifest :=
    validated_of manifest.valid
  have hfiles : (manifest.files.map ArtifactFile.modelDump).mapM ArtifactFile.modelValidate =
      .ok manifest.files :=
    mapM_written fun file _ => file.modelValidate_modelDump
  simp [modelValidate, modelDump, modelFields, readField, schemaVersion, asList, hfiles, hvalid,
    readSchemaVersion, require]

theorem OcrOutput.modelValidate_modelDump (output : OcrOutput D) :
    OcrOutput.modelValidate output.modelDump = .ok output := by
  have hvalid : output.toOcrOutputFields.validate = .ok output := validated_of output.valid
  have hstate : asDocumentState (.str output.state.text) = some output.state := by
    cases output.state <;> rfl
  have hmanifest : ∃ found, asOption some (optionValue OcrDocumentManifest.modelDump output.manifest) =
      some found ∧ found.mapM OcrDocumentManifest.modelValidate = .ok output.manifest := by
    cases output.manifest with
    | none => exact ⟨none, rfl, rfl⟩
    | some manifest =>
        refine ⟨some manifest.modelDump, rfl, ?_⟩
        simp [manifest.modelValidate_modelDump]
  obtain ⟨found, hfound, hread⟩ := hmanifest
  simp [modelValidate, modelDump, modelFields, readField, schemaVersion, hstate, hfound, hread,
    hvalid, readSchemaVersion, require]

variable {floatRepr : String → String}

theorem itemsWellFormed_map {α : Type} {write : α → JsonValue} {xs : List α}
    (h : ∀ x ∈ xs, (write x).WellFormed floatRepr) : ItemsWellFormed floatRepr (xs.map write) := by
  induction xs with
  | nil => trivial
  | cons x xs ih => exact ⟨h x (by simp), ih fun y hy => h y (by simp [hy])⟩

theorem optionValue_wellFormed {α : Type} {write : α → JsonValue}
    (h : ∀ a, (write a).WellFormed floatRepr) (found : Option α) :
    (optionValue write found).WellFormed floatRepr := by
  cases found with
  | none => trivial
  | some a => exact h a

theorem ArtifactFile.modelDump_wellFormed (file : ArtifactFile D) :
    file.modelDump.WellFormed floatRepr := by
  simp [modelDump, JsonValue.WellFormed, MembersWellFormed, hexValueOf]

theorem OcrElement.modelDump_wellFormed (element : OcrElement D) :
    element.modelDump.WellFormed floatRepr := by
  have htext : ∀ found, (optionValue JsonValue.str found).WellFormed floatRepr :=
    optionValue_wellFormed fun _ => trivial
  have hdigest : ∀ found : Option D, (optionValue hexValueOf found).WellFormed floatRepr :=
    optionValue_wellFormed fun _ => trivial
  simp [modelDump, JsonValue.WellFormed, MembersWellFormed, hexValueOf, htext, hdigest]

theorem OcrPageMarkdownBundle.modelDump_wellFormed (bundle : OcrPageMarkdownBundle) :
    bundle.modelDump.WellFormed floatRepr := by
  have hpages : ItemsWellFormed floatRepr (bundle.pages.map OcrPageMarkdown.modelDump) :=
    itemsWellFormed_map fun page _ => by
      simp [OcrPageMarkdown.modelDump, JsonValue.WellFormed, MembersWellFormed]
  simp [modelDump, JsonValue.WellFormed, MembersWellFormed, schemaVersion, hpages]

theorem OcrDocumentManifest.modelDump_wellFormed (manifest : OcrDocumentManifest D) :
    manifest.modelDump.WellFormed floatRepr := by
  have hfiles : ItemsWellFormed floatRepr (manifest.files.map ArtifactFile.modelDump) :=
    itemsWellFormed_map fun file _ => file.modelDump_wellFormed
  simp [modelDump, JsonValue.WellFormed, MembersWellFormed, schemaVersion, hexValueOf, hfiles]

theorem OcrOutput.modelDump_wellFormed (output : OcrOutput D) :
    output.modelDump.WellFormed floatRepr := by
  have hmanifest : (optionValue OcrDocumentManifest.modelDump output.manifest).WellFormed floatRepr :=
    optionValue_wellFormed (fun manifest => manifest.modelDump_wellFormed) output.manifest
  simp [modelDump, JsonValue.WellFormed, MembersWellFormed, schemaVersion, hexValueOf, hmanifest]

end RoundTrip

end Ocr

end MiniLakehouse
