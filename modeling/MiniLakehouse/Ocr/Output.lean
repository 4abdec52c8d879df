import MiniLakehouse.Ocr.Artifacts

/-!
# Reading a committed output

`output.py` and `read_page_markdown_bundle`: the client checks the result, extracts
the archive into a fresh directory and validates the document in it.  An extracted
tree keeps its files and its directories by their path parts, so that a file below a
file, or in the place of a directory, is refused as the operating system does, and a
path with a null byte as Python does.
-/

namespace MiniLakehouse.Ocr

variable {D : Type} [ContentHash D]

/-- `model_validate_json` -/
def validateJson {α : Type} (validate : JsonValue → Except Raised α) (body : Bytes) :
    Except Raised α :=
  match (utf8Decode body).bind (loads id) with
  | some value => validate value
  | none => .error (.validationError "Invalid JSON")

/-! ## The result -/

/-- `validate_ocr_output` -/
def validateOcrOutput (directory : OutputDirectory) (expectedJobId : Option D) :
    Except Raised (OcrOutput D × Bytes) :=
  match directory.result, directory.archive with
  | some resultBody, some archive =>
      Except.mapError (fun error => .invalidOcrArchive ("Invalid OCR output: " ++ error.text)) do
        let result ← validateJson OcrOutput.modelValidate resultBody
        require (result.archiveSizeBytes = archive.length)
          (.valueError "archive size does not match its result")
        require (result.archiveSha256 = ContentHash.digest archive)
          (.valueError "archive checksum does not match its result")
        require (expectedJobId.all fun jobId => result.jobId = jobId) (.valueError
          ("expected job " ++ (expectedJobId.map ContentHash.hexdigest).getD "" ++ ", " ++
            s!"received {ContentHash.hexdigest result.jobId}"))
        return (result, archive)
  | some _, none => .error (.invalidOcrArchive "OCR output is missing: artifacts.tar.zst")
  | none, some _ => .error (.invalidOcrArchive "OCR output is missing: result.json")
  | none, none => .error (.invalidOcrArchive "OCR output is missing: artifacts.tar.zst, result.json")

/-! ## Extraction -/

structure ExtractedTree where
  files : List (List String × Bytes)
  directories : List (List String)

/-- A directory that was just made. -/
def ExtractedTree.fresh : ExtractedTree := ⟨[], [[]]⟩

/-- Python passes no path with a null byte to the operating system. -/
def hasNull (path : List String) : Bool := path.any fun part => part.toList.contains '\x00'

def embeddedNull : Raised := .valueError "embedded null byte"

def fileExists : Raised := .invalidOcrArchive "Cannot extract OCR archive: File exists"

/-- `path.mkdir(parents=True, exist_ok=True)`; the error of the system is the handler's. -/
def ExtractedTree.makeDirectory (tree : ExtractedTree) (path : List String) :
    Except Raised ExtractedTree :=
  if hasNull path then .error embeddedNull
  else if tree.files.any fun file => file.1.isPrefixOf path then .error fileExists
  else .ok { tree with directories := tree.directories ++ path.inits }

/-- `path.open("xb")` and the writing of a body -/
def ExtractedTree.createFile (tree : ExtractedTree) (path : List String) (body : Bytes) :
    Except Raised ExtractedTree :=
  if hasNull path then .error embeddedNull
  else if (tree.files.any fun file => file.1 == path) || tree.directories.contains path then
    .error fileExists
  else .ok { tree with files := tree.files ++ [(path, body)] }

/-- The body of a file. -/
def ExtractedTree.read (tree : ExtractedTree) (path : List String) : Option Bytes :=
  (tree.files.find? (·.1 == path)).map Prod.snd

/-- Where the loop of `_extract` stands. -/
structure Extraction where
  index : Nat
  extractedBytes : Nat
  seen : List (List String)
  tree : ExtractedTree

def Extraction.start : Extraction := ⟨0, 0, [], .fresh⟩

def maxMembers : Nat := 50000

/-- Stop with an error, or go on with the tree that a call has left. -/
def Extraction.settle (state : Extraction) :
    Except Raised ExtractedTree → Extraction × Option Raised
  | .error error => (state, some error)
  | .ok tree => ({ state with tree := tree }, none)

/-- The loop that copies a member: a content that is too short is left behind as it is. -/
def copyFailure (name : String) (size : Nat) (body : Bytes) (failure : Option String) :
    Option Raised :=
  if size ≤ body.length then none
  else
    match failure with
    | some message => some (.invalidOcrArchive ("Cannot extract OCR archive: " ++ message))
    | none => some (.invalidOcrArchive s!"Archive member '{name}' ended early")

/-- A regular file whose size is within the limit. -/
def extractFile (state : Extraction) (name : String) (path : List String) (size : Nat)
    (body : Bytes) (failure : Option String) : Extraction × Option Raised :=
  match state.tree.makeDirectory path.dropLast with
  | .error error => (state, some error)
  | .ok parents =>
      match parents.createFile path (body.take size) with
      | .error error => ({ state with tree := parents }, some error)
      | .ok tree => ({ state with tree := tree }, copyFailure name size body failure)

/-- One member: where the loop stands after it, and what it raises. -/
def extractMember (maxBytes : Nat) (state : Extraction) (member : ArchiveMember) :
    Extraction × Option Raised :=
  if maxMembers ≤ state.index then
    (state, some (.invalidOcrArchive "OCR archive contains too many members"))
  -- `_member_path`
  else if !isNormalizedPath member.name then
    (state, some (.invalidOcrArchive s!"Unsafe archive member path: '{member.name}'"))
  else if state.seen.contains (pathParts member.name) then
    (state, some (.invalidOcrArchive s!"OCR archive contains duplicate member '{member.name}'"))
  else
    let path := pathParts member.name
    let state := { state with index := state.index + 1, seen := state.seen ++ [path] }
    match member.kind with
    | .directory => state.settle (state.tree.makeDirectory path)
    | .other => (state, some (.invalidOcrArchive
        s!"OCR archive member '{member.name}' is not a regular file"))
    | .file size body failure =>
        let state := { state with extractedBytes := state.extractedBytes + size }
        if maxBytes < state.extractedBytes then
          (state, some (.invalidOcrArchive "OCR archive exceeds its extracted-size limit"))
        else extractFile state member.name path size body failure

def extractMembers (maxBytes : Nat) : Extraction → List ArchiveMember → Extraction × Option Raised
  | state, [] => (state, none)
  | state, member :: members =>
      match extractMember maxBytes state member with
      | (state, some error) => (state, some error)
      | (state, none) => extractMembers maxBytes state members

variable [Gzip] [TarZst]

/-- `_extract`: the tree that it leaves, also where it raises. -/
def extract (archive : Bytes) (maxBytes : Nat) : ExtractedTree × Option Raised :=
  let stream := TarZst.unpack archive
  let extraction := extractMembers maxBytes .start stream.members
  (extraction.1.tree, extraction.2.or (stream.failure.map fun message =>
    .invalidOcrArchive ("Cannot extract OCR archive: " ++ message)))

/-! ## The document -/

/-- `except (EOFError, gzip.BadGzipFile, OSError)` around the reading of the pages -/
def bundleFailure : GzipFailure → Raised
  | .badGzipFile message =>
      .invalidPageMarkdownBundle ("Cannot decompress OCR page Markdown: " ++ message)
  | .eofError message =>
      .invalidPageMarkdownBundle ("Cannot decompress OCR page Markdown: " ++ message)
  | .zlibError message => .zlibError message

/-- `compressed.read(limit + 1)`: nothing is read beyond the limit, so that no later failure
is met. -/
def readBounded (stream : GzipStream) (limit : Nat) : Except Raised Bytes :=
  if limit < stream.delivered.length then .ok (stream.delivered.take (limit + 1))
  else stream.failure.elim (.ok stream.delivered) fun failure => .error (bundleFailure failure)

/-- What was read, checked and validated. -/
def pagesOf (payload : Bytes) (maxUncompressedBytes : Nat) : Except Raised OcrPageMarkdownBundle := do
  require (payload.length ≤ maxUncompressedBytes)
    (.invalidPageMarkdownBundle "OCR page Markdown exceeds its uncompressed-size limit")
  (validateJson OcrPageMarkdownBundle.modelValidate payload).mapError fun error =>
    .invalidPageMarkdownBundle ("Invalid OCR page Markdown bundle: " ++ error.text)

/-- `read_page_markdown_bundle` -/
def readPageMarkdownBundle (source : Bytes) (maxUncompressedBytes : Nat) :
    Except Raised OcrPageMarkdownBundle := do
  let payload ← readBounded (Gzip.decompress source) maxUncompressedBytes
  pagesOf payload maxUncompressedBytes

/-- One file of the manifest. -/
def validateArtifact (tree : ExtractedTree) (artifact : ArtifactFile D) : Except Raised Unit :=
  match tree.read (pathParts artifact.relativePath) with
  | none => .error (.invalidOcrArchive s!"Cannot read OCR artifact {artifact.relativePath}")
  | some body =>
      require (body.length = artifact.sizeBytes ∧ ContentHash.digest body = artifact.sha256)
        (.invalidOcrArchive s!"Artifact checksum is invalid: {artifact.relativePath}")

/-- `except (OSError, InvalidPageMarkdownBundleError)` -/
def bundleRaised : Raised → Raised
  | .invalidPageMarkdownBundle message => .invalidOcrArchive message
  | .osError message => .invalidOcrArchive message
  | error => error

/-- `_validate_document` -/
def validateDocument (tree : ExtractedTree) (manifest : OcrDocumentManifest D)
    (manifestBytes : Bytes) (maxUncompressedBytes : Nat) : Except Raised Unit := do
  require (totalSize manifest.files + manifestBytes.length ≤ maxUncompressedBytes)
    (.invalidOcrArchive "OCR document exceeds its extracted-size limit")
  manifest.files.forM (validateArtifact tree)
  let source ← (tree.read (pathParts pageMarkdownBundlePath)).elim
    (.error (.invalidOcrArchive "No such file or directory")) .ok
  let bundle ← (readPageMarkdownBundle source maxUncompressedBytes).mapError bundleRaised
  require (bundle.pages.length = manifest.pageCount)
    (.invalidOcrArchive "OCR page Markdown count does not match its manifest")

/-- What `extract_ocr_output` asks of a reused output, or of one that was run again. -/
def lineageChecks (job : OcrJob D) (output : OcrOutput D) : Except Raised Unit :=
  match output.state with
  | .reused =>
      require (job.reuse.any fun reuse => output.pdfSha256 = reuse.pdfSha256 ∧
          output.pdfSizeBytes = reuse.pdfSizeBytes ∧ output.pageCount = reuse.pageCount ∧
          output.processingId = reuse.processingId ∧ output.manifestSha256 = reuse.manifestSha256)
        (.invalidOcrArchive "Reused OCR lineage does not match its job")
  | .succeeded =>
      require (job.reuse.all fun reuse => output.pdfSha256 ≠ reuse.pdfSha256)
        (.invalidOcrArchive "OCR reran unchanged content")

def extractedTree (extraction : ExtractedTree × Option Raised) : Except Raised ExtractedTree :=
  extraction.2.elim (.ok extraction.1) .error

/-- `write_bytes` of the manifest: what is there is replaced, but not a directory. -/
def writeManifest (tree : ExtractedTree) (manifestBytes : Bytes) : Except Raised ExtractedTree :=
  if tree.directories.contains [documentManifestPath] then .error (.osError "Is a directory")
  else .ok { tree with files := tree.files ++ [([documentManifestPath], manifestBytes)] }

/-- `extract_ocr_output` into a directory that does not exist yet -/
def extractOcrOutput (outputDirectory : OutputDirectory) (job : OcrJob D) :
    Except Raised (OcrOutput D × ExtractedTree) := do
  let (output, archive) ← validateOcrOutput outputDirectory (some job.jobId)
  require (output.documentId = job.documentId)
    (.invalidOcrArchive "OCR result does not match its job")
  require (output.processingId = processingId output.documentId output.pdfSha256 job.configHash)
    (.invalidOcrArchive "OCR processing identity does not match its job")
  lineageChecks job output
  let tree ← extractedTree (extract archive job.limits.maxOutputBytes)
  let expected := (output.manifest.elim [] fun manifest =>
    manifest.files.map fun file => pathParts file.relativePath)
  require ((∀ file ∈ tree.files, file.1 ∈ expected) ∧ ∀ path ∈ expected, (tree.read path).isSome)
    (.invalidOcrArchive "OCR archive contains untracked or missing files")
  match output.manifest with
  | none => return (output, tree)
  | some manifest =>
      let manifestBytes := canonicalJsonBytes manifest.modelDump
      validateDocument tree manifest manifestBytes job.limits.maxOutputBytes
      let written ← writeManifest tree manifestBytes
      return (output, written)

/-! ## Elements -/

/-- The lines of a binary file, each with its line feed. -/
def splitLines : Bytes → List Bytes
  | [] => []
  | byte :: rest =>
      if byte = 10 then [byte] :: splitLines rest
      else
        match splitLines rest with
        | [] => [[byte]]
        | line :: lines => (byte :: line) :: lines

/-- The lines from a number and a count of bytes on. -/
def readElementLines (maxUncompressedBytes : Nat) :
    Nat → Nat → List Bytes → Except Raised (List (OcrElement D))
  | _, _, [] => .ok []
  | lineNumber, consumed, line :: lines => do
      require (consumed + line.length ≤ maxUncompressedBytes)
        (.invalidOcrArchive "OCR elements exceed their uncompressed-size limit")
      let element ← (validateJson OcrElement.modelValidate line).mapError fun error =>
        .invalidOcrArchive (s!"Invalid OCR element at line {lineNumber}: " ++ error.text)
      let rest ← readElementLines maxUncompressedBytes (lineNumber + 1) (consumed + line.length) lines
      return element :: rest

/-- The lines that iterating over a stream yields: before a failure the complete ones only. -/
def GzipStream.lines (stream : GzipStream) : List Bytes :=
  if stream.failure.isNone then splitLines stream.delivered
  else (splitLines stream.delivered).filter fun line => line.getLast? == some 10

/-- `except (gzip.BadGzipFile, OSError)` around the reading of the elements -/
def elementsFailure : GzipFailure → Raised
  | .badGzipFile message => .invalidOcrArchive ("Cannot read OCR elements: " ++ message)
  | .eofError message => .eofError message
  | .zlibError message => .zlibError message

/-- `read_elements` -/
def readElements (source : Bytes) (maxUncompressedBytes expectedPageCount : Nat) :
    Except Raised (List (OcrElement D)) := do
  let stream := Gzip.decompress source
  let elements ← readElementLines maxUncompressedBytes 1 0 stream.lines
  stream.failure.elim (.ok ()) fun failure => .error (elementsFailure failure)
  require (elements.map fun element => element.elementId).Nodup
    (.invalidOcrArchive "OCR element IDs must be unique")
  require (elements.map fun element => (element.pageNumber, element.readingOrder)).Nodup
    (.invalidOcrArchive "OCR page/reading-order positions must be unique")
  require (elements ≠ []) (.invalidOcrArchive "Successful OCR output contains no elements")
  require (∀ element ∈ elements, element.pageNumber ≤ expectedPageCount)
    (.invalidOcrArchive "OCR element page exceeds the document page count")
  return elements

end MiniLakehouse.Ocr
