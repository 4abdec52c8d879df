import MiniLakehouse.Ocr.Protocol

/-!
# Canonical elements and page Markdown

`modal/worker.py` up to the elements, and `text.py`: the layout that GLM-OCR returns
becomes a list of elements, numbered by page and reading order, and these become one
Markdown text for every page.
-/

namespace MiniLakehouse.Ocr

variable {D : Type} [ContentHash D]

/-- `parsed.json_result`: a JSON text, or the value itself. -/
inductive JsonResult where
  | text (value : String)
  | value (value : JsonValue)

/-- A block of a page: the members of an object. -/
abbrev Block := List (String × JsonValue)

/-- `block.get(name)` -/
def Block.get (block : Block) (name : String) : Option JsonValue :=
  (block.find? (·.1 == name)).map Prod.snd

def invalidModelOutput (message : String) : Raised := .ocrError message (some "invalid_model_output")

/-- A page of the layout. -/
def normalizedPage (pageIndex : Nat) : JsonValue → Except Raised (List Block)
  | .arr blocks =>
      blocks.mapM fun block =>
        match block with
        | .obj members => .ok members
        | _ => .error (invalidModelOutput s!"GLM-OCR page {pageIndex} contains a non-object block")
  | _ => .error (invalidModelOutput s!"GLM-OCR page {pageIndex} is not a list")

def normalizedPages : Nat → List JsonValue → Except Raised (List (List Block))
  | _, [] => .ok []
  | pageIndex, rawPage :: rawPages => do
      let page ← normalizedPage pageIndex rawPage
      let pages ← normalizedPages (pageIndex + 1) rawPages
      return page :: pages

/-- `_normalized_layout`; `parseJson` is `json.loads`. -/
def normalizedLayout (parseJson : String → Option JsonValue) (result : JsonResult)
    (expectedPages : Nat) : Except Raised (List (List Block)) := do
  let value ← match result with
    | .text value => (parseJson value).elim (.error (invalidModelOutput "JSONDecodeError")) .ok
    | .value value => .ok value
  match value with
  | .arr rawPages =>
      require (rawPages.length = expectedPages) (.ocrError
        s!"GLM-OCR returned {rawPages.length} pages for a {expectedPages}-page PDF"
        (some "incomplete_model_output"))
      normalizedPages 1 rawPages
  | _ => .error (invalidModelOutput "GLM-OCR JSON output must be a list of pages")

/-- `_sdk_image_path`, as text -/
def sdkImagePath : JsonValue → Except Raised String
  | .str value =>
      if isAbsolute value = false ∧ value = asPosix (pathParts value) ∧
          (pathParts value).length = 2 ∧ (pathParts value).head? = some "imgs" ∧
          (pathParts value).getLast? ≠ some ".." then .ok value
      else .error (.valueError s!"Unsafe GLM-OCR image path: '{value}'")
  | _ => .error (.valueError "GLM-OCR image_path must be text")

/-- `block.get("content", "")`; GLM-OCR leaves the content of a skipped image null. -/
def blockContent (block : Block) (label : String) : Option String :=
  match block.get "content" with
  | none => some ""
  | some .null => if label = "image" then some "" else none
  | some value => asText value

/-- `block.get(name) is not None` -/
def Block.present (block : Block) (name : String) : Option JsonValue :=
  match block.get name with
  | some .null => none
  | found => found

/-- `canonical_json_sha256({"page_number": …, "processing_id": …, "reading_order": …})` -/
def elementIdentity (processing : D) (pageNumber readingOrder : Nat) : D :=
  canonicalJsonSha256 (.obj [("page_number", .int pageNumber),
    ("processing_id", hexValueOf processing), ("reading_order", .int readingOrder)])

/-- The Markdown of a block, and the images counted so far. -/
def blockMarkdown (block : Block) (label content : String) (pageIndex imageCounter : Nat) :
    Except Raised (Option String × Nat) :=
  if label = "image" then
    match block.present "image_path" with
    | none => .ok (none, imageCounter)
    | some value =>
        match sdkImagePath value with
        | .error error => .error (invalidModelOutput error.text)
        | .ok path =>
            .ok (some s!"![Image {pageIndex - 1}-{imageCounter}](../{path})", imageCounter + 1)
  else .ok (if content = "" then none else some content, imageCounter)

/-- The members of a block that are kept as attributes. -/
def blockAttributes (block : Block) : Block :=
  (sortOn Prod.fst block).filter fun member =>
    member.1 ∉ ["content", "bbox_2d", "index", "label"]

/-- The label where it is a text. -/
def Block.label (block : Block) : String := ((block.get "label").bind asText).getD ""

/-- One pass of the loop of `_canonical_elements`. -/
def canonicalElement (processing : D) (pageIndex readingOrder imageCounter : Nat) (block : Block) :
    Except Raised (OcrElement D × Nat) := do
  let label := block.label
  require (label ≠ "") (invalidModelOutput
    s!"Invalid GLM-OCR block {pageIndex}:{readingOrder}: label must be non-empty text")
  let content ← (blockContent block label).elim (.error (invalidModelOutput
    s!"Invalid GLM-OCR block {pageIndex}:{readingOrder}: content must be text")) .ok
  let markdown ← blockMarkdown block label content pageIndex imageCounter
  let attributes := blockAttributes block
  let element ← OcrElementFields.validate
    { elementId := elementIdentity processing pageIndex readingOrder
      pageNumber := pageIndex
      readingOrder := readingOrder
      elementType := label
      bboxJson := (block.present "bbox_2d").map fun bbox => bbox.dumps .compact
      textContent := content
      markdownContent := markdown.1
      parentElementId := none
      rawAttributesJson :=
        if attributes = [] then none else some ((JsonValue.obj attributes).sortKeys.dumps .compact) }
  return (element, markdown.2)

/-- The blocks of a page from a reading order on. -/
def pageElements (processing : D) (pageIndex : Nat) :
    Nat → Nat → List Block → Except Raised (List (OcrElement D) × Nat)
  | _, imageCounter, [] => .ok ([], imageCounter)
  | readingOrder, imageCounter, block :: blocks => do
      let first ← canonicalElement processing pageIndex readingOrder imageCounter block
      let rest ← pageElements processing pageIndex (readingOrder + 1) first.2 blocks
      return (first.1 :: rest.1, rest.2)

/-- The pages from a page on. -/
def documentElements (processing : D) :
    Nat → Nat → List (List Block) → Except Raised (List (OcrElement D))
  | _, _, [] => .ok []
  | pageIndex, imageCounter, page :: pages => do
      let first ← pageElements processing pageIndex 0 imageCounter page
      let rest ← documentElements processing (pageIndex + 1) first.2 pages
      return first.1 ++ rest

/-- `_canonical_elements` -/
def canonicalElements (pages : List (List Block)) (processing : D) :
    Except Raised (List (OcrElement D)) := do
  let elements ← documentElements processing 1 0 pages
  require (elements ≠ []) (.ocrError "GLM-OCR produced no canonical elements"
    (some "empty_model_output"))
  return elements

/-! ## Page Markdown -/

/-- `"\n\n".join(…)` of a page's Markdown texts in reading order -/
def pageMarkdown (elements : List (OcrElement D)) (pageNumber : Nat) : String :=
  "\n\n".intercalate
    ((sortOn (fun element => toLex (element.readingOrder, ContentHash.hexdigest element.elementId))
      (elements.filter fun element => element.pageNumber = pageNumber)).filterMap fun element =>
        if element.markdownContent = some "" then none else element.markdownContent)

/-- `build_page_markdown_bundle` -/
def buildPageMarkdownBundle (elements : List (OcrElement D)) (pageCount : Nat) :
    Except Raised OcrPageMarkdownBundle := do
  require (1 ≤ pageCount) (.valueError "page_count must be positive")
  match elements.find? fun element => pageCount < element.pageNumber with
  | some element =>
      .error (.valueError
        s!"OCR element page {element.pageNumber} exceeds page_count {pageCount}")
  | none =>
      OcrPageMarkdownBundle.validate ((List.range' 1 pageCount).map fun pageNumber =>
        ⟨pageNumber, pageMarkdown elements pageNumber⟩)

end MiniLakehouse.Ocr
