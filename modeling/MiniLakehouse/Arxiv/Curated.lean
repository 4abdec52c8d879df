import MiniLakehouse.Arxiv.Oai
import MiniLakehouse.Library.Sql

/-!
# Curated arXiv tables

`arxiv/landing.py` replaces the landing rows of one datestamp day by those of a
capture.  `arxiv/curated.py` publishes a day of them in five statements, of
which `papers` is written by the last: the authors and categories of the pending
articles are deleted, appended anew, and then their rows are merged.  An article
is pending where `papers` has no row of it, an older one, or one of the same day
with another digest.
-/

namespace MiniLakehouse

variable {D : Type}

/-! ## Landing -/

/-- A row of `oai_publications`. -/
structure OaiPublication where
  datestampDate : Day
  rawManifestKey : String
  rawManifestSha256 : String
  pageCount : Nat
  recordCount : Nat
  publishedAt : Instant
  deriving DecidableEq

/-- The landing tables. -/
structure ArxivLanding (D : Type) where
  records : List (OaiRecord D) := []
  publications : List OaiPublication := []

namespace ArxivLanding

/-- Whether the manifest is the published one of its day. -/
def isCurrent (landing : ArxivLanding D) (publication : OaiPublication) : Bool :=
  (landing.publications.find? (·.datestampDate = publication.datestampDate)).any
    (·.rawManifestSha256 = publication.rawManifestSha256)

/-- `overwrite(day_filter)` of the records. -/
def overwriteRecords (landing : ArxivLanding D) (sourceDay : Day) (records : List (OaiRecord D)) :
    ArxivLanding D :=
  { landing with records := landing.records.filter (·.datestampDate ≠ sourceDay) ++ records }

/-- `overwrite(day_filter)` of the publication. -/
def overwritePublication (landing : ArxivLanding D) (publication : OaiPublication) :
    ArxivLanding D :=
  { landing with
    publications := landing.publications.filter
      (·.datestampDate ≠ publication.datestampDate) ++ [publication] }

/-- `landing.publish`, with whether it replaced the day. -/
def publish (landing : ArxivLanding D) (records : List (OaiRecord D))
    (publication : OaiPublication) : ArxivLanding D × Bool :=
  if landing.isCurrent publication then (landing, false)
  else ((landing.overwriteRecords publication.datestampDate records).overwritePublication
    publication, true)

end ArxivLanding

/-! ## Curated rows -/

/-- A row of `papers`. -/
structure Paper (D : Type) where
  arxivId : String
  oaiIdentifier : String
  title : Option String
  abstract : Option String
  licenseUri : Option String
  doi : Option String
  journalRef : Option String
  comments : Option String
  createdDate : Option Day
  updatedDate : Option Day
  oaiDatestamp : Day
  pdfUrl : String
  isDeleted : Bool
  sourceRecordSha256 : D
  deriving DecidableEq

/-- A row of `paper_authors`. -/
structure PaperAuthor where
  arxivId : String
  authorPosition : Nat
  keyname : String
  forenames : Option String
  suffix : Option String
  affiliation : Option String
  oaiDatestamp : Day
  deriving DecidableEq

/-- A row of `paper_categories`. -/
structure PaperCategory where
  arxivId : String
  category : String
  isPrimary : Option Bool
  oaiDatestamp : Day
  deriving DecidableEq

/-- The curated tables. -/
structure ArxivTables (D : Type) where
  papers : List (Paper D) := []
  authors : List PaperAuthor := []
  categories : List PaperCategory := []
  deriving DecidableEq

/-- `trim(value)` -/
def sqlTrim (value : String) : String :=
  String.ofList ((value.toList.dropWhile (· = ' ')).reverse.dropWhile (· = ' ')).reverse

/-- `nullif(trim(value), '')` -/
def nullIfBlank (value : Option String) : Option String :=
  (value.map sqlTrim).filter (· ≠ "")

namespace OaiContent

/-- The row of an article in `papers`. -/
def paper (content : OaiContent D) : Paper D where
  arxivId := content.arxivId
  oaiIdentifier := content.oaiIdentifier
  title := nullIfBlank content.title
  abstract := nullIfBlank content.abstract
  licenseUri := nullIfBlank content.licenseUri
  doi := nullIfBlank content.doi
  journalRef := nullIfBlank content.journalRef
  comments := nullIfBlank content.comments
  createdDate := content.createdDate
  updatedDate := content.updatedDate
  oaiDatestamp := content.datestampDate
  pdfUrl := content.pdfUrl
  isDeleted := content.isDeleted
  sourceRecordSha256 := content.recordSha256

/-- The row of one author, who has a name. -/
def author (content : OaiContent D) (entry : OaiAuthor × Nat) : Option PaperAuthor :=
  (entry.1.keyname.filter (sqlTrim · ≠ "")).map fun keyname => {
    arxivId := content.arxivId
    authorPosition := entry.2 + 1
    keyname := keyname
    forenames := nullIfBlank entry.1.forenames
    suffix := nullIfBlank entry.1.suffix
    affiliation := nullIfBlank entry.1.affiliation
    oaiDatestamp := content.datestampDate }

/-- The rows of an article in `paper_authors`. -/
def authorRows (content : OaiContent D) : List PaperAuthor :=
  if content.isDeleted then [] else content.authors.zipIdx.filterMap content.author

/-- The row of one category. -/
def category (content : OaiContent D) (category : String) : Option PaperCategory :=
  (nullIfBlank (some category)).map fun category => {
    arxivId := content.arxivId
    category := category
    isPrimary := content.primaryCategory.map (category = ·)
    oaiDatestamp := content.datestampDate }

/-- The rows of an article in `paper_categories`. -/
def categoryRows (content : OaiContent D) : List PaperCategory :=
  if content.isDeleted then []
  else ((((content.categories.getD "").toList.splitOn ' ').map String.ofList).filterMap
    content.category).dedup

end OaiContent

/-! ## Publication -/

section Publication

variable [Hashing D]

/-- `ORDER BY datestamp_date DESC, ingested_at DESC, record_sha256 DESC` -/
def mutationOrder (row : OaiRecord D) : Day ×ₗ Instant ×ₗ D :=
  toLex (row.datestampDate, toLex (row.ingestedAt, row.recordSha256))

/-- `arxiv_day_latest` -/
def dayLatest (records : List (OaiRecord D)) (sourceDate : Day) : List (OaiRecord D) :=
  firstInGroup (fun row : OaiRecord D => row.arxivId) mutationOrder
    (records.filter (·.datestampDate = sourceDate))

/-- The row supersedes the paper. -/
def supersedes (row : OaiRecord D) (paper : Paper D) : Bool :=
  paper.oaiDatestamp < row.datestampDate ||
    (row.datestampDate = paper.oaiDatestamp && row.recordSha256 ≠ paper.sourceRecordSha256)

/-- The rows of `arxiv_pending` that one row comes to. -/
def pendingRow (papers : List (Paper D)) (row : OaiRecord D) : List (OaiRecord D) :=
  match papers.filter (·.arxivId = row.arxivId) with
  | [] => [row]
  | stored => (stored.filter (supersedes row)).map fun _ => row

/-- `arxiv_pending` -/
def arxivPending (records : List (OaiRecord D)) (papers : List (Paper D)) (sourceDate : Day) :
    List (OaiRecord D) :=
  (dayLatest records sourceDate).flatMap (pendingRow papers)

namespace ArxivTables

variable (pending : List (OaiRecord D)) (tables : ArxivTables D)

/-- The article is pending. -/
def isPending (arxivId : String) : Bool := pending.any (·.arxivId = arxivId)

def deleteAuthors : Except Raised (ArxivTables D) :=
  .ok { tables with authors := tables.authors.filter fun row => !isPending pending row.arxivId }

def deleteCategories : Except Raised (ArxivTables D) :=
  .ok { tables with
    categories := tables.categories.filter fun row => !isPending pending row.arxivId }

def appendAuthors : Except Raised (ArxivTables D) :=
  .ok { tables with authors := tables.authors ++ pending.flatMap (·.authorRows) }

def appendCategories : Except Raised (ArxivTables D) :=
  .ok { tables with categories := tables.categories ++ pending.flatMap (·.categoryRows) }

def mergePapers : Except Raised (ArxivTables D) := do
  let papers ← merge
    (.runtimeError "MERGE statement matched a single row from the target table with multiple rows")
    (fun target source => target.arxivId = source.arxivId) (fun _ source => source) some
    tables.papers (pending.map (·.paper))
  return { tables with papers := papers }

end ArxivTables

/-- The statements of a publication. -/
def curatedStatements (pending : List (OaiRecord D)) :
    List (ArxivTables D → Except Raised (ArxivTables D)) :=
  [ArxivTables.deleteAuthors pending, ArxivTables.deleteCategories pending,
    ArxivTables.appendAuthors pending, ArxivTables.appendCategories pending,
    ArxivTables.mergePapers pending]

/-- Statements, one after another. -/
def runStatements (statements : List (ArxivTables D → Except Raised (ArxivTables D)))
    (tables : ArxivTables D) : Except Raised (ArxivTables D) :=
  statements.foldlM (fun tables statement => statement tables) tables

/-- `curated.publish`.  Where nothing is pending, nothing is written. -/
def publishCurated (records : List (OaiRecord D)) (sourceDate : Day) (tables : ArxivTables D) :
    Except Raised (ArxivTables D) :=
  let pending := arxivPending records tables.papers sourceDate
  if pending = [] then .ok tables else runStatements (curatedStatements pending) tables

/-- A publication that stops after some of its statements, before the last. -/
def interruptCurated (records : List (OaiRecord D)) (sourceDate : Day) (executed : Fin 5)
    (tables : ArxivTables D) : Except Raised (ArxivTables D) :=
  let pending := arxivPending records tables.papers sourceDate
  if pending = [] then .ok tables
  else runStatements ((curatedStatements pending).take executed) tables

end Publication

end MiniLakehouse
