import MiniLakehouse.Identity
import MiniLakehouse.Library.Checked
import MiniLakehouse.Library.Time
import MiniLakehouse.Raised

/-!
# OAI records

`arxiv/oai.py` reads the landing rows of one datestamp day out of the captured
pages.  Everything a row says about its article is read out of the record's own
element, and `record_sha256` is the digest of that element; where the row stands
and when it was captured come from the page and the capture.
-/

namespace MiniLakehouse

/-- An element of a parsed XML document, with qualified names. -/
inductive XmlElement where
  | mk (tag : String) (attrib : List (String × String)) (content : Option String)
    (children : List XmlElement) (tail : Option String)

namespace XmlElement

def tag : XmlElement → String
  | mk tag _ _ _ _ => tag

def attrib : XmlElement → List (String × String)
  | mk _ attrib _ _ _ => attrib

/-- `element.text`: what stands before the first child. -/
def content : XmlElement → Option String
  | mk _ _ content _ _ => content

def children : XmlElement → List XmlElement
  | mk _ _ _ children _ => children

/-- `element.findall(name)` -/
def findall (element : XmlElement) (name : String) : List XmlElement :=
  element.children.filter (·.tag = name)

/-- `element.find(name)` -/
def find (element : XmlElement) (name : String) : Option XmlElement :=
  (element.findall name).head?

section Serialisation

variable {D : Type}

mutual

/-- `ElementTree.tostring(element)`, as the tree that the text spells. -/
def tostring : XmlElement → Json D
  | mk tag attrib content children tail =>
      .arr [.str tag, .list (fun entry => .arr [.str entry.1, .str entry.2]) attrib,
        .opt .str content, childrenString children, .opt .str tail]

def childrenString : List XmlElement → Json D
  | [] => .nil
  | child :: rest => .cons child.tostring (childrenString rest)

end

mutual

/-- Elements that are written alike are the same. -/
theorem tostring_inj : ∀ {a b : XmlElement}, (a.tostring : Json D) = b.tostring → a = b
  | mk tag attrib content children tail, mk tag' attrib' content' children' tail', h => by
      have hentry : Function.Injective fun entry : String × String =>
          (.arr [.str entry.1, .str entry.2] : Json D) := by
        intro entry entry' hentry
        have hsame := Json.arr_inj.mp hentry
        simp only [List.cons.injEq, Json.str.injEq, and_true] at hsame
        exact Prod.ext hsame.1 hsame.2
      simp only [tostring, Json.arr_inj, List.cons.injEq, Json.str.injEq, and_true] at h
      obtain ⟨htag, hattrib, hcontent, hchildren, htail⟩ := h
      rw [htag, Json.list_inj hentry hattrib, Json.opt_inj Json.str_injective hcontent,
        childrenString_inj hchildren, Json.opt_inj Json.str_injective htail]

theorem childrenString_inj : ∀ {a b : List XmlElement},
    (childrenString a : Json D) = childrenString b → a = b
  | [], [], _ => rfl
  | [], _ :: _, h => by simp [childrenString] at h
  | _ :: _, [], h => by simp [childrenString] at h
  | first :: rest, first' :: rest', h => by
      simp only [childrenString, Json.cons.injEq] at h
      rw [tostring_inj h.1, childrenString_inj h.2]

end

end Serialisation

end XmlElement

/-- What the parser takes from outside of it: XML, and dates in ISO format. -/
class OaiDecoding (Page : Type) where
  fromstring : Page → Except Raised XmlElement
  fromisoformat : String → Except Raised Day

/-- One member of `authors_json`. -/
structure OaiAuthor where
  keyname : Option String
  forenames : Option String
  suffix : Option String
  affiliation : Option String
  deriving DecidableEq, Repr

/-- The columns of a landing row that are read out of the record's element. -/
structure OaiContent (D : Type) where
  oaiIdentifier : String
  arxivId : String
  title : Option String
  abstract : Option String
  authors : List OaiAuthor
  categories : Option String
  primaryCategory : Option String
  licenseUri : Option String
  doi : Option String
  journalRef : Option String
  comments : Option String
  createdDate : Option Day
  updatedDate : Option Day
  datestampDate : Day
  setSpecs : Option String
  pdfUrl : String
  isDeleted : Bool
  recordSha256 : D
  deriving DecidableEq

/-- A row of `oai_records_raw`. -/
structure OaiRecord (D : Type) extends OaiContent D where
  rawObjectKey : String
  rawObjectSha256 : String
  recordIndex : Nat
  ingestedAt : Instant
  deriving DecidableEq

namespace Oai

/-- The name in the namespace of the protocol. -/
def oaiName (name : String) : String :=
  "\x7bhttp://www.openarchives.org/OAI/2.0/\x7d" ++ name

/-- The name in the namespace of the articles. -/
def arxivName (name : String) : String := "\x7bhttp://arxiv.org/OAI/arXiv/\x7d" ++ name

def oaiIdentifierPrefix : String := "oai:arXiv.org:"

/-- `str.isspace` -/
def isSpace (c : Char) : Bool :=
  let n := c.toNat
  (9 ≤ n && n ≤ 13) || (28 ≤ n && n ≤ 32) || n = 0x85 || n = 0xA0 || n = 0x1680 ||
    (0x2000 ≤ n && n ≤ 0x200A) || n = 0x2028 || n = 0x2029 || n = 0x202F || n = 0x205F || n = 0x3000

/-- `value.split()` -/
def words (value : String) : List String :=
  ((value.toList.splitOnP isSpace).filter (· ≠ [])).map String.ofList

/-- `text or None` -/
def orNone (value : String) : Option String := if value = "" then none else some value

/-- `text`: every run of whitespace becomes one blank, none at the ends. -/
def text (element : Option XmlElement) : Option String :=
  (element.bind (·.content)).bind fun value => orNone (" ".intercalate (words value))

/-- `metadata_value` -/
def metadataValue (metadata : Option XmlElement) (name : String) : Option String :=
  metadata.bind fun metadata => text (metadata.find (arxivName name))

/-- The value of `authors_json`. -/
def authors (metadata : Option XmlElement) : List OaiAuthor :=
  match metadata.bind (·.find (arxivName "authors")) with
  | none => []
  | some parent => (parent.findall (arxivName "author")).map fun author => {
      keyname := text (author.find (arxivName "keyname"))
      forenames := text (author.find (arxivName "forenames"))
      suffix := text (author.find (arxivName "suffix"))
      affiliation := text (author.find (arxivName "affiliation")) }

section Parse

variable {D Page : Type} [Hashing D] [OaiDecoding Page]

/-- `element_date` -/
def elementDate (Page : Type) [OaiDecoding Page] (element : Option XmlElement) :
    Except Raised (Option Day) :=
  match text element with
  | none => .ok none
  | some value => (OaiDecoding.fromisoformat Page value).map some

/-- `record.find("metadata").find("arXiv")` -/
def metadataOf (record : XmlElement) : Option XmlElement :=
  (record.find (oaiName "metadata")).bind (·.find (arxivName "arXiv"))

/-- The id of the metadata, or of the identifier. -/
def arxivIdOf (metadata : Option XmlElement) (oaiIdentifier : String) : Except Raised String :=
  match metadataValue metadata "id" with
  | some arxivId => .ok arxivId
  | none =>
      if oaiIdentifierPrefix.toList.isPrefixOf oaiIdentifier.toList then
        .ok (String.ofList (oaiIdentifier.toList.drop oaiIdentifierPrefix.toList.length))
      else .error (.runtimeError s!"Unexpected OAI identifier: {oaiIdentifier}")

/-- The columns that are read out of a record's element. -/
def recordContent (Page : Type) [OaiDecoding Page] (record header : XmlElement)
    (oaiIdentifier : String) (datestamp : Day) : Except Raised (OaiContent D) := do
  let metadata := metadataOf record
  let arxivId ← arxivIdOf metadata oaiIdentifier
  -- `dict.fromkeys` keeps the first of equal categories.
  let categories := (words ((metadataValue metadata "categories").getD "")).reverse.dedup.reverse
  let createdDate ← elementDate Page (metadata.bind (·.find (arxivName "created")))
  let updatedDate ← elementDate Page (metadata.bind (·.find (arxivName "updated")))
  return {
    oaiIdentifier := oaiIdentifier
    arxivId := arxivId
    title := metadataValue metadata "title"
    abstract := metadataValue metadata "abstract"
    authors := authors metadata
    categories := orNone (" ".intercalate categories)
    primaryCategory := categories.head?
    licenseUri := metadataValue metadata "license"
    doi := metadataValue metadata "doi"
    journalRef := metadataValue metadata "journal-ref"
    comments := metadataValue metadata "comments"
    createdDate := createdDate
    updatedDate := updatedDate
    datestampDate := datestamp
    setSpecs := orNone (" ".intercalate
      ((header.findall (oaiName "setSpec")).filterMap fun element => text (some element)))
    pdfUrl := "https://arxiv.org/pdf/" ++ arxivId
    isDeleted := header.attrib.lookup "status" = some "deleted"
    recordSha256 := sha256 record.tostring }

/-- One record, appended to those before it. -/
def parseRecord (Page : Type) [OaiDecoding Page] (sourceDay : Day) (ingestedAt : Instant)
    (pageObject : String × String) (records : List (OaiRecord D)) (record : XmlElement) :
    Except Raised (List (OaiRecord D)) := do
  let header ← (record.find (oaiName "header")).elim
    (.error (.runtimeError "OAI record is missing its header")) .ok
  let datestamp ← elementDate Page (header.find (oaiName "datestamp"))
  let oaiIdentifier ← (text (header.find (oaiName "identifier"))).elim
    (.error (.runtimeError "OAI returned a record outside the requested datestamp day")) .ok
  require (datestamp = some sourceDay)
    (.runtimeError "OAI returned a record outside the requested datestamp day")
  require (records.all (·.oaiIdentifier ≠ oaiIdentifier) = true)
    (.runtimeError s!"OAI returned duplicate identifier '{oaiIdentifier}'")
  let content ← recordContent Page record header oaiIdentifier sourceDay
  return records ++ [{
    toOaiContent := content
    rawObjectKey := pageObject.1
    rawObjectSha256 := pageObject.2
    recordIndex := records.length
    ingestedAt := ingestedAt }]

/-- The records of one page. -/
def parsePage (sourceDay : Day) (ingestedAt : Instant) (records : List (OaiRecord D))
    (entry : Page × (String × String)) : Except Raised (List (OaiRecord D)) := do
  let root ← OaiDecoding.fromstring entry.1
  ((root.findall (oaiName "ListRecords")).flatMap (·.findall (oaiName "record"))).foldlM
    (parseRecord Page sourceDay ingestedAt entry.2) records

/-- `parse_records` -/
def parseRecords (pages : List Page) (sourceDay : Day) (pageObjects : List (String × String))
    (ingestedAt : Instant) : Except Raised (List (OaiRecord D)) := do
  let records ← (pages.zip pageObjects).foldlM (parsePage sourceDay ingestedAt) []
  require (pages.length = pageObjects.length) (.valueError "zip() arguments have different lengths")
  return records

/-! ## Where rows come from -/

/-- The columns are those of an element. -/
def ReadFrom (Page : Type) [OaiDecoding Page] (content : OaiContent D) (record : XmlElement) :
    Prop :=
  ∃ header oaiIdentifier, record.find (oaiName "header") = some header ∧
    text (header.find (oaiName "identifier")) = some oaiIdentifier ∧
    elementDate Page (header.find (oaiName "datestamp")) = .ok (some content.datestampDate) ∧
    recordContent Page record header oaiIdentifier content.datestampDate = .ok content

theorem recordContent_digest {record header : XmlElement} {oaiIdentifier : String} {datestamp : Day}
    {content : OaiContent D}
    (h : recordContent Page record header oaiIdentifier datestamp = .ok content) :
    content.datestampDate = datestamp ∧ content.recordSha256 = sha256 record.tostring := by
  simp only [recordContent, bind_eq_ok, pure_eq_ok] at h
  obtain ⟨arxivId, -, createdDate, -, updatedDate, -, rfl⟩ := h
  exact ⟨rfl, rfl⟩

/-- **The digest tells a row's columns.** -/
theorem ReadFrom.inj (hfree : CollisionFree D) {a b : OaiContent D} {record record' : XmlElement}
    (ha : ReadFrom Page a record) (hb : ReadFrom Page b record')
    (h : a.recordSha256 = b.recordSha256) : a = b := by
  obtain ⟨header, oaiIdentifier, hheader, hidentifier, hdate, hcontent⟩ := ha
  obtain ⟨header', oaiIdentifier', hheader', hidentifier', hdate', hcontent'⟩ := hb
  rw [(recordContent_digest hcontent).2, (recordContent_digest hcontent').2] at h
  obtain rfl := XmlElement.tostring_inj (hfree h)
  obtain rfl := Option.some_inj.mp (hheader.symm.trans hheader')
  obtain rfl := Option.some_inj.mp (hidentifier.symm.trans hidentifier')
  have hdatestamp := Option.some_inj.mp (Except.ok.inj (hdate.symm.trans hdate'))
  rw [hdatestamp] at hcontent
  exact Except.ok.inj (hcontent.symm.trans hcontent')

/-- The rows of a day have its datestamp, and are read from elements. -/
def OfDay (Page : Type) [OaiDecoding Page] (sourceDay : Day) (records : List (OaiRecord D)) : Prop :=
  ∀ row ∈ records, row.datestampDate = sourceDay ∧
    ∃ record, ReadFrom Page row.toOaiContent record

theorem parseRecord_ofDay {sourceDay : Day} {ingestedAt : Instant} {pageObject : String × String}
    {records records' : List (OaiRecord D)} {record : XmlElement}
    (hrecords : OfDay Page sourceDay records)
    (h : parseRecord Page sourceDay ingestedAt pageObject records record = .ok records') :
    OfDay Page sourceDay records' := by
  simp only [parseRecord, bind_eq_ok, require_eq_ok, pure_eq_ok] at h
  obtain ⟨header, hheader, datestamp, hdatestamp, oaiIdentifier, hidentifier, _, rfl, _, -, content,
    hcontent, rfl⟩ := h
  intro row hrow
  rcases List.mem_append.mp hrow with hrow | hrow
  · exact hrecords row hrow
  · rw [List.mem_singleton.mp hrow]
    obtain ⟨hdate, -⟩ := recordContent_digest hcontent
    refine ⟨hdate, record, header, oaiIdentifier, ?_, ?_, ?_, ?_⟩
    · cases hfind : record.find (oaiName "header") with
      | none => simp [hfind] at hheader
      | some found => simpa [hfind] using hheader
    · cases htext : text (header.find (oaiName "identifier")) with
      | none => simp [htext] at hidentifier
      | some found => simpa [htext] using hidentifier
    · simpa [hdate] using hdatestamp
    · simpa [hdate] using hcontent

theorem parseRecords_ofDay {pages : List Page} {sourceDay : Day}
    {pageObjects : List (String × String)} {ingestedAt : Instant} {records : List (OaiRecord D)}
    (h : parseRecords pages sourceDay pageObjects ingestedAt = .ok records) :
    OfDay Page sourceDay records := by
  simp only [parseRecords, bind_eq_ok, require_eq_ok, pure_eq_ok] at h
  obtain ⟨parsed, hparsed, _, -, rfl⟩ := h
  refine foldlM_prefix_invariant (I := fun _ records => OfDay Page sourceDay records)
    (fun _ hrow => by cases hrow) ?_ hparsed
  intro _ entry records records' hrecords hpage
  simp only [parsePage, bind_eq_ok] at hpage
  obtain ⟨root, -, hpage⟩ := hpage
  exact foldlM_prefix_invariant (I := fun _ records => OfDay Page sourceDay records) hrecords
    (fun _ _ _ _ hdone hstep => parseRecord_ofDay hdone hstep) hpage

end Parse

end Oai

end MiniLakehouse
