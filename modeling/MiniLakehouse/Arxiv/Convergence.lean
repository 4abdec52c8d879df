import MiniLakehouse.Arxiv.Curated

/-!
# The curated arXiv tables converge

Days are captured again and published in any order, and publications stop after
any of their statements.  A day is *due* from a capture or an interruption on
until it is published to the end.  Where no day is due, the rows of an article
are those of its latest landing row (`curated_follows_landing`), provided that
no publication overlooks rows that an interrupted one has left behind: `papers`
is all that a publication looks at, so it overlooks them where the day's record
is again the one that `papers` has.
-/

namespace MiniLakehouse

variable {D : Type}

/-- The rows of an article in the three tables. -/
def ArxivTables.rowsOf (tables : ArxivTables D) (arxivId : String) :
    List (Paper D) × List PaperAuthor × List PaperCategory :=
  (tables.papers.filter (·.arxivId = arxivId), tables.authors.filter (·.arxivId = arxivId),
    tables.categories.filter (·.arxivId = arxivId))

/-- The rows that an article's record comes to. -/
def OaiContent.rows (content : OaiContent D) :
    List (Paper D) × List PaperAuthor × List PaperCategory :=
  ([content.paper], content.authorRows, content.categoryRows)

theorem OaiContent.authorRows_arxivId {content : OaiContent D} {row : PaperAuthor}
    (h : row ∈ content.authorRows) : row.arxivId = content.arxivId := by
  unfold OaiContent.authorRows at h
  split at h
  · cases h
  · obtain ⟨entry, -, hrow⟩ := List.mem_filterMap.mp h
    obtain ⟨keyname, -, rfl⟩ := Option.map_eq_some_iff.mp hrow
    rfl

theorem OaiContent.categoryRows_arxivId {content : OaiContent D} {row : PaperCategory}
    (h : row ∈ content.categoryRows) : row.arxivId = content.arxivId := by
  unfold OaiContent.categoryRows at h
  split at h
  · cases h
  · obtain ⟨category, -, hrow⟩ := List.mem_filterMap.mp (List.mem_dedup.mp h)
    obtain ⟨name, -, rfl⟩ := Option.map_eq_some_iff.mp hrow
    rfl

/-- The rows of one article among those that are appended. -/
theorem filter_flatMap_rows {R : Type} {rows : OaiRecord D → List R} {arxivIdOf : R → String}
    (hrows : ∀ row, ∀ item ∈ rows row, arxivIdOf item = row.arxivId)
    (pending : List (OaiRecord D)) (arxivId : String) :
    (pending.flatMap rows).filter (arxivIdOf · = arxivId) =
      (pending.filter (·.arxivId = arxivId)).flatMap rows := by
  induction pending with
  | nil => rfl
  | cons row rest ih =>
      rw [List.flatMap_cons, List.filter_append, ih]
      by_cases hid : row.arxivId = arxivId
      · rw [List.filter_cons_of_pos (by simpa using hid), List.flatMap_cons,
          List.filter_eq_self.mpr fun item hitem => by simpa using (hrows row item hitem).trans hid]
      · rw [List.filter_cons_of_neg (by simpa using hid),
          List.filter_eq_nil_iff.mpr fun item hitem => by simpa [hrows row item hitem] using hid,
          List.nil_append]

section

variable [Hashing D]

/-! ## What is pending -/

theorem mem_dayLatest {records : List (OaiRecord D)} {sourceDate : Day} {row : OaiRecord D}
    (h : row ∈ dayLatest records sourceDate) : row ∈ records ∧ row.datestampDate = sourceDate := by
  obtain ⟨hmem, -⟩ := mem_firstInGroup h
  simpa using hmem

/-- An article of a day has its latest row of the day. -/
theorem exists_dayLatest {records : List (OaiRecord D)} {row : OaiRecord D} (h : row ∈ records) :
    ∃ latest ∈ dayLatest records row.datestampDate, latest.arxivId = row.arxivId := by
  have hday : row ∈ records.filter (·.datestampDate = row.datestampDate) := by simp [h]
  exact exists_firstInGroup hday

theorem dayLatest_unique {records : List (OaiRecord D)} {sourceDate : Day} {a b : OaiRecord D}
    (ha : a ∈ dayLatest records sourceDate) (hb : b ∈ dayLatest records sourceDate)
    (h : a.arxivId = b.arxivId) : a = b :=
  List.inj_on_of_nodup_map firstInGroup_nodup ha hb h

/-- One row at most of each article. -/
def OneRowEach (papers : List (Paper D)) : Prop :=
  ∀ arxivId, (papers.filter (·.arxivId = arxivId)).length ≤ 1

theorem supersedes_eq_false {row : OaiRecord D} {paper : Paper D} :
    supersedes row paper = false ↔ row.datestampDate ≤ paper.oaiDatestamp ∧
      (row.datestampDate = paper.oaiDatestamp → row.recordSha256 = paper.sourceRecordSha256) := by
  unfold supersedes
  grind

/-- The article's row in `papers`, if there is one, is superseded. -/
def awaits (papers : List (Paper D)) (row : OaiRecord D) : Bool :=
  (papers.filter fun paper => paper.arxivId = row.arxivId).all (supersedes row)

theorem arxivPending_eq {papers : List (Paper D)} (hone : OneRowEach papers)
    (records : List (OaiRecord D)) (sourceDate : Day) :
    arxivPending records papers sourceDate =
      (dayLatest records sourceDate).filter (awaits papers) := by
  have hrow : ∀ row, pendingRow papers row = if awaits papers row then [row] else [] := by
    intro row
    have hlength := hone row.arxivId
    unfold pendingRow awaits
    cases hfilter : papers.filter fun paper => paper.arxivId = row.arxivId with
    | nil => simp
    | cons paper rest =>
        rw [hfilter] at hlength
        obtain rfl : rest = [] := List.length_eq_zero_iff.mp (by simpa using hlength)
        by_cases hsupersedes : supersedes row paper = true
        · simp [hsupersedes]
        · simp [hsupersedes]
  unfold arxivPending
  induction dayLatest records sourceDate with
  | nil => rfl
  | cons row rest ih =>
      rw [List.flatMap_cons, ih, hrow, List.filter_cons]
      by_cases hawaits : awaits papers row = true
      · simp [hawaits]
      · simp [hawaits]

theorem mem_arxivPending {records : List (OaiRecord D)} {papers : List (Paper D)}
    (hone : OneRowEach papers) {sourceDate : Day} {row : OaiRecord D} :
    row ∈ arxivPending records papers sourceDate ↔
      row ∈ dayLatest records sourceDate ∧ awaits papers row = true := by
  rw [arxivPending_eq hone, List.mem_filter]

/-- No article is pending twice. -/
theorem arxivPending_nodup {papers : List (Paper D)} (hone : OneRowEach papers)
    (records : List (OaiRecord D)) (sourceDate : Day) :
    ((arxivPending records papers sourceDate).map (·.arxivId)).Nodup := by
  rw [arxivPending_eq hone]
  exact firstInGroup_nodup.sublist (List.filter_sublist.map _)

/-! ## What the statements write -/

omit [Hashing D] in
/-- What the last statement makes of an article's row in `papers`. -/
theorem mergePapers_eq_ok {pending : List (OaiRecord D)}
    (hnodup : (pending.map (·.arxivId)).Nodup) (tables : ArxivTables D) :
    ∃ papers, tables.mergePapers pending = .ok { tables with papers := papers } ∧
      ∀ arxivId, papers.filter (·.arxivId = arxivId) =
        (pending.find? (·.arxivId = arxivId)).elim (tables.papers.filter (·.arxivId = arxivId))
          fun row =>
            if tables.papers.filter (·.arxivId = arxivId) = [] then [row.paper]
            else (tables.papers.filter (·.arxivId = arxivId)).map fun _ => row.paper := by
  have hsource : ((pending.map (·.paper)).map fun paper => paper.arxivId).Nodup := by
    rw [List.map_map]
    exact hnodup
  obtain ⟨papers, hmerge, hrows⟩ := merge_byKey
    (Raised.runtimeError "MERGE statement matched a single row from the target table with multiple rows")
    tables.papers hsource
  refine ⟨papers, ?_, ?_⟩
  · unfold ArxivTables.mergePapers
    rw [hmerge]
    rfl
  · intro arxivId
    have hfind : (pending.map (·.paper)).find? (fun paper => paper.arxivId = arxivId) =
        (pending.find? (·.arxivId = arxivId)).map (·.paper) := List.find?_map
    rw [hrows, hfind]
    cases pending.find? (·.arxivId = arxivId) <;> rfl

omit [Hashing D] in
/-- **The statements leave an article alone that is not pending.** -/
theorem statement_frame {pending : List (OaiRecord D)} (hnodup : (pending.map (·.arxivId)).Nodup)
    {statement : ArxivTables D → Except Raised (ArxivTables D)}
    (hstatement : statement ∈ curatedStatements pending) {tables tables' : ArxivTables D}
    (h : statement tables = .ok tables') {arxivId : String}
    (hnot : ∀ row ∈ pending, row.arxivId ≠ arxivId) :
    tables'.rowsOf arxivId = tables.rowsOf arxivId := by
  have hnone : pending.filter (·.arxivId = arxivId) = [] := by
    rw [List.filter_eq_nil_iff]
    simpa using hnot
  have hkept : ∀ {R : Type} (idOf : R → String) (rows : List R),
      (rows.filter fun row => !ArxivTables.isPending pending (idOf row)).filter
        (idOf · = arxivId) = rows.filter (idOf · = arxivId) := by
    intro R idOf rows
    rw [List.filter_filter]
    apply List.filter_congr
    intro row _
    by_cases hid : idOf row = arxivId
    · have hnotPending : ArxivTables.isPending pending arxivId = false := by
        simpa [ArxivTables.isPending] using hnot
      simp [hid, hnotPending]
    · simp [hid]
  simp only [curatedStatements, List.mem_cons, List.not_mem_nil, or_false] at hstatement
  rcases hstatement with rfl | rfl | rfl | rfl | rfl
  · obtain rfl := Except.ok.inj h
    simp only [ArxivTables.rowsOf, hkept]
  · obtain rfl := Except.ok.inj h
    simp only [ArxivTables.rowsOf, hkept]
  · obtain rfl := Except.ok.inj h
    simp only [ArxivTables.rowsOf, List.filter_append]
    rw [filter_flatMap_rows fun row item => OaiContent.authorRows_arxivId, hnone]
    simp
  · obtain rfl := Except.ok.inj h
    simp only [ArxivTables.rowsOf, List.filter_append]
    rw [filter_flatMap_rows fun row item => OaiContent.categoryRows_arxivId, hnone]
    simp
  · obtain ⟨papers, hmerge, hpapers⟩ := mergePapers_eq_ok hnodup tables
    obtain rfl := Except.ok.inj (hmerge.symm.trans h)
    have hfind : pending.find? (·.arxivId = arxivId) = none := by
      rw [List.find?_eq_none]
      simpa using hnot
    simp only [ArxivTables.rowsOf, hpapers, hfind, Option.elim_none]

omit [Hashing D] in
/-- Only the last statement writes `papers`. -/
theorem statement_papers {pending : List (OaiRecord D)}
    {statement : ArxivTables D → Except Raised (ArxivTables D)}
    (hstatement : statement ∈ (curatedStatements pending).take 4) {tables tables' : ArxivTables D}
    (h : statement tables = .ok tables') : tables'.papers = tables.papers := by
  simp only [curatedStatements, List.take_succ_cons, List.take_zero, List.mem_cons,
    List.not_mem_nil, or_false] at hstatement
  rcases hstatement with rfl | rfl | rfl | rfl
  all_goals
    obtain rfl := Except.ok.inj h
    rfl

omit [Hashing D] in
/-- **All statements** give a pending article the rows of its record. -/
theorem statements_rows {pending : List (OaiRecord D)} (hnodup : (pending.map (·.arxivId)).Nodup)
    {tables : ArxivTables D} (hone : OneRowEach tables.papers) :
    ∃ tables', runStatements (curatedStatements pending) tables = .ok tables' ∧
      ∀ row ∈ pending, tables'.rowsOf row.arxivId = row.rows := by
  let appended : ArxivTables D := {
    papers := tables.papers
    authors := (tables.authors.filter fun row => !ArxivTables.isPending pending row.arxivId) ++
      pending.flatMap (·.authorRows)
    categories := (tables.categories.filter fun row =>
      !ArxivTables.isPending pending row.arxivId) ++ pending.flatMap (·.categoryRows) }
  obtain ⟨papers, hmerge, hpapers⟩ := mergePapers_eq_ok hnodup appended
  have hrun : runStatements (curatedStatements pending) tables =
      ArxivTables.mergePapers pending appended := by
    change (ArxivTables.mergePapers pending appended >>= pure) = _
    rw [bind_pure]
  refine ⟨{ appended with papers := papers }, hrun.trans hmerge, ?_⟩
  intro row hrow
  have hown : pending.filter (·.arxivId = row.arxivId) = [row] := by
    rw [filter_key_eq_find? hnodup]
    cases hfind : pending.find? (·.arxivId = row.arxivId) with
    | none => simpa using List.find?_eq_none.mp hfind row hrow
    | some found =>
        have hid : found.arxivId = row.arxivId := by simpa using List.find?_some hfind
        rw [List.inj_on_of_nodup_map hnodup (List.mem_of_find?_eq_some hfind) hrow hid]
        rfl
  have hfind : pending.find? (·.arxivId = row.arxivId) = some row := by
    rw [filter_key_eq_find? hnodup] at hown
    cases hfind : pending.find? (·.arxivId = row.arxivId) <;> simp_all
  have hdeleted : ∀ {R : Type} (idOf : R → String) (rows : List R),
      (rows.filter fun item => !ArxivTables.isPending pending (idOf item)).filter
        (idOf · = row.arxivId) = [] := by
    intro R idOf rows
    rw [List.filter_filter, List.filter_eq_nil_iff]
    intro item _
    have hpending : ArxivTables.isPending pending row.arxivId = true :=
      List.any_eq_true.mpr ⟨row, hrow, by simp⟩
    grind
  have hpaper : papers.filter (·.arxivId = row.arxivId) = [row.paper] := by
    rw [hpapers, hfind, Option.elim_some]
    have hlength := hone row.arxivId
    cases hstored : tables.papers.filter (·.arxivId = row.arxivId) with
    | nil => simp
    | cons paper rest =>
        rw [hstored] at hlength
        obtain rfl : rest = [] := List.length_eq_zero_iff.mp (by simpa using hlength)
        simp
  have hauthors : appended.authors.filter (·.arxivId = row.arxivId) = row.authorRows := by
    simp only [appended, List.filter_append, hdeleted]
    rw [filter_flatMap_rows fun row item => OaiContent.authorRows_arxivId, hown]
    simp
  have hcategories : appended.categories.filter (·.arxivId = row.arxivId) = row.categoryRows := by
    simp only [appended, List.filter_append, hdeleted]
    rw [filter_flatMap_rows fun row item => OaiContent.categoryRows_arxivId, hown]
    simp
  simp only [ArxivTables.rowsOf, hpaper, hauthors, hcategories, OaiContent.rows]

omit [Hashing D] in
/-- Statements that run keep what each of them keeps. -/
theorem runStatements_keeps {P : ArxivTables D → Prop}
    {statements : List (ArxivTables D → Except Raised (ArxivTables D))}
    (hkeeps : ∀ statement ∈ statements, ∀ tables tables', statement tables = .ok tables' →
      P tables → P tables') {tables tables' : ArxivTables D} (htables : P tables)
    (h : runStatements statements tables = .ok tables') : P tables' := by
  induction statements generalizing tables with
  | nil =>
      obtain rfl := Except.ok.inj h
      exact htables
  | cons statement rest ih =>
      unfold runStatements at h
      rw [List.foldlM_cons, bind_eq_ok] at h
      obtain ⟨between, hfirst, hrest⟩ := h
      exact ih (fun other hother => hkeeps other (List.mem_cons_of_mem _ hother))
        (hkeeps statement (by simp) _ _ hfirst htables) hrest

/-! ## Publications -/

/-- **A publication** gives the pending articles the rows of their records and leaves the
others alone. -/
theorem publishCurated_rows {tables : ArxivTables D} (hone : OneRowEach tables.papers)
    (records : List (OaiRecord D)) (sourceDate : Day) :
    ∃ tables', publishCurated records sourceDate tables = .ok tables' ∧
      (∀ row ∈ arxivPending records tables.papers sourceDate,
        tables'.rowsOf row.arxivId = row.rows) ∧
      ∀ arxivId, (∀ row ∈ arxivPending records tables.papers sourceDate, row.arxivId ≠ arxivId) →
        tables'.rowsOf arxivId = tables.rowsOf arxivId := by
  have hnodup := arxivPending_nodup hone records sourceDate
  by_cases hnone : arxivPending records tables.papers sourceDate = []
  · refine ⟨tables, if_pos hnone, ?_, fun _ _ => rfl⟩
    rw [hnone]
    intro row hrow
    cases hrow
  · obtain ⟨tables', hrun, hrows⟩ := statements_rows hnodup hone
    refine ⟨tables', (if_neg hnone).trans hrun, hrows, ?_⟩
    intro arxivId hnot
    exact runStatements_keeps (P := fun other => other.rowsOf arxivId = tables.rowsOf arxivId)
      (fun statement hstatement before after hstep hbefore =>
        (statement_frame hnodup hstatement hstep hnot).trans hbefore) rfl hrun

/-- **An interrupted publication** leaves `papers` alone, and the articles that are not
pending. -/
theorem interruptCurated_rows {tables tables' : ArxivTables D} (hone : OneRowEach tables.papers)
    {records : List (OaiRecord D)} {sourceDate : Day} {executed : Fin 5}
    (h : interruptCurated records sourceDate executed tables = .ok tables') :
    tables'.papers = tables.papers ∧
      ∀ arxivId, (∀ row ∈ arxivPending records tables.papers sourceDate, row.arxivId ≠ arxivId) →
        tables'.rowsOf arxivId = tables.rowsOf arxivId := by
  have hnodup := arxivPending_nodup hone records sourceDate
  simp only [interruptCurated] at h
  split at h
  · obtain rfl := Except.ok.inj h
    exact ⟨rfl, fun _ _ => rfl⟩
  · constructor
    · refine runStatements_keeps (P := fun other => other.papers = tables.papers) ?_ rfl h
      intro statement hstatement before after hstep hbefore
      refine (statement_papers (List.take_subset_take_left _ ?_ hstatement) hstep).trans hbefore
      omega
    · intro arxivId hnot
      exact runStatements_keeps (P := fun other => other.rowsOf arxivId = tables.rowsOf arxivId)
        (fun statement hstatement before after hstep hbefore =>
          (statement_frame hnodup (List.mem_of_mem_take hstatement) hstep hnot).trans hbefore)
        rfl h

/-! ## Runs -/

/-- A capture keeps every article of its day. -/
def KeepsArticles (landing : ArxivLanding D) (day : Day) (records : List (OaiRecord D)) : Prop :=
  ∀ row ∈ landing.records, row.datestampDate = day → ∃ other ∈ records, other.arxivId = row.arxivId

/-- A publication of the day overlooks rows: `papers` has the record of the day's landing row,
and the authors or the categories have others. -/
def Overlooks (landing : ArxivLanding D) (tables : ArxivTables D) (day : Day) : Prop :=
  ∃ row ∈ dayLatest landing.records day,
    (∃ paper ∈ tables.papers, paper.arxivId = row.arxivId ∧
      paper.oaiDatestamp = row.datestampDate ∧ paper.sourceRecordSha256 = row.recordSha256) ∧
    tables.rowsOf row.arxivId ≠ row.rows

/-- What runs of captures and publications reach, with the days that are due.  `Admits` says
which publications may run to the end. -/
inductive ArxivRun (Page : Type) [OaiDecoding Page]
    (Admits : ArxivLanding D → ArxivTables D → Day → Prop) :
    Set Day → ArxivLanding D → ArxivTables D → Prop
  | start : ArxivRun Page Admits ∅ {} {}
  /-- A capture lands, unless its manifest is the current one. -/
  | capture {due landing tables landing'} (pages : List Page)
      (pageObjects : List (String × String)) (ingestedAt : Instant)
      (publication : OaiPublication) (records : List (OaiRecord D)) (changed : Bool) :
      ArxivRun Page Admits due landing tables →
      Oai.parseRecords pages publication.datestampDate pageObjects ingestedAt = .ok records →
      KeepsArticles landing publication.datestampDate records →
      landing.publish records publication = (landing', changed) →
      ArxivRun Page Admits (if changed then insert publication.datestampDate due else due)
        landing' tables
  /-- The records of a capture land, and not its publication. -/
  | captureInterrupted {due landing tables} (pages : List Page)
      (pageObjects : List (String × String)) (ingestedAt : Instant) (day : Day)
      (records : List (OaiRecord D)) :
      ArxivRun Page Admits due landing tables →
      Oai.parseRecords pages day pageObjects ingestedAt = .ok records →
      KeepsArticles landing day records →
      ArxivRun Page Admits (insert day due) (landing.overwriteRecords day records) tables
  | publish {due landing tables tables'} (day : Day) :
      ArxivRun Page Admits due landing tables → Admits landing tables day →
      publishCurated landing.records day tables = .ok tables' →
      ArxivRun Page Admits (due \ {day}) landing tables'
  | interrupt {due landing tables tables'} (day : Day) (executed : Fin 5) :
      ArxivRun Page Admits due landing tables →
      interruptCurated landing.records day executed tables = .ok tables' →
      ArxivRun Page Admits (insert day due) landing tables'

/-! ## What runs keep -/

variable {Page : Type} [OaiDecoding Page]

variable (Page) in
/-- The content of some captured record. -/
def IsCaptured (content : OaiContent D) : Prop := ∃ record, Oai.ReadFrom Page content record

theorem IsCaptured.eq (hfree : CollisionFree D) {a b : OaiContent D} (ha : IsCaptured Page a)
    (hb : IsCaptured Page b) (h : a.recordSha256 = b.recordSha256) : a = b := by
  obtain ⟨record, ha⟩ := ha
  obtain ⟨record', hb⟩ := hb
  exact ha.inj hfree hb h

variable (Page) in
/-- What holds of the landing rows and the curated ones. -/
structure Converging (due : Set Day) (records : List (OaiRecord D)) (tables : ArxivTables D) :
    Prop where
  captured : ∀ row ∈ records, IsCaptured Page row.toOaiContent
  /-- A row of `papers` is alone, and is of a captured record, of a day that still has its
  article. -/
  stored : ∀ arxivId, tables.papers.filter (·.arxivId = arxivId) = [] ∨
    ∃ content, IsCaptured Page content ∧
      tables.papers.filter (·.arxivId = arxivId) = [content.paper] ∧
      ∃ row ∈ records, row.arxivId = arxivId ∧ row.datestampDate = content.datestampDate
  /-- Nothing is pending of a day that is not due. -/
  settled : ∀ day, day ∉ due → ∀ row ∈ dayLatest records day, awaits tables.papers row = false
  /-- The rows of an article are those of one record, or some day is due that supersedes them. -/
  synced : ∀ arxivId, tables.rowsOf arxivId = ([], [], []) ∨
    (∃ content, IsCaptured Page content ∧ tables.rowsOf arxivId = content.rows) ∨
    ∃ row ∈ records, row.arxivId = arxivId ∧ row.datestampDate ∈ due ∧
      ∀ paper ∈ tables.papers.filter (·.arxivId = arxivId), paper.oaiDatestamp ≤ row.datestampDate

namespace Converging

variable {due : Set Day} {records : List (OaiRecord D)} {tables : ArxivTables D}

theorem oneRowEach (h : Converging Page due records tables) : OneRowEach tables.papers := by
  intro arxivId
  rcases h.stored arxivId with hnone | ⟨content, -, hone, -⟩
  · simp [hnone]
  · simp [hone]

theorem start : Converging Page ∅ ([] : List (OaiRecord D)) {} where
  captured := fun _ hrow => by cases hrow
  stored := fun _ => .inl rfl
  settled := fun _ _ _ hrow => by
    obtain ⟨hmem, -⟩ := mem_dayLatest hrow
    cases hmem
  synced := fun _ => .inl rfl

/-- A day is captured anew. -/
theorem capture (h : Converging Page due records tables) {day : Day}
    {captured : List (OaiRecord D)} (hday : Oai.OfDay Page day captured)
    (hkeeps : ∀ row ∈ records, row.datestampDate = day →
      ∃ other ∈ captured, other.arxivId = row.arxivId) :
    Converging Page (insert day due) (records.filter (·.datestampDate ≠ day) ++ captured)
      tables := by
  -- An article keeps its rows by day.
  have hrow : ∀ row ∈ records, ∃ other ∈ records.filter (·.datestampDate ≠ day) ++ captured,
      other.arxivId = row.arxivId ∧ other.datestampDate = row.datestampDate := by
    intro row hmem
    by_cases hsame : row.datestampDate = day
    · obtain ⟨other, hother, hid⟩ := hkeeps row hmem hsame
      exact ⟨other, List.mem_append_right _ hother, hid, (hday other hother).1.trans hsame.symm⟩
    · exact ⟨row, List.mem_append_left _ (by simp [hmem, hsame]), rfl, rfl⟩
  constructor
  · intro row hmem
    rcases List.mem_append.mp hmem with hmem | hmem
    · exact h.captured row (List.mem_of_mem_filter hmem)
    · exact (hday row hmem).2
  · intro arxivId
    rcases h.stored arxivId with hnone | ⟨content, hcontent, hone, row, hmem, hid, hdate⟩
    · exact .inl hnone
    · obtain ⟨other, hother, hid', hdate'⟩ := hrow row hmem
      exact .inr ⟨content, hcontent, hone, other, hother, hid'.trans hid, hdate'.trans hdate⟩
  · intro other hother row hlatest
    rw [Set.mem_insert_iff, not_or] at hother
    have hsame : (records.filter (·.datestampDate ≠ day) ++ captured).filter
        (·.datestampDate = other) = records.filter (·.datestampDate = other) := by
      have hnone : captured.filter (·.datestampDate = other) = [] := by
        rw [List.filter_eq_nil_iff]
        intro row hmem
        simpa [(hday row hmem).1] using fun heq => hother.1 heq.symm
      rw [List.filter_append, hnone, List.append_nil, List.filter_filter]
      apply List.filter_congr
      intro row _
      by_cases hdate : row.datestampDate = other
      · simp [hdate, hother.1]
      · simp [hdate]
    unfold dayLatest at hlatest
    rw [hsame] at hlatest
    exact h.settled other hother.2 row hlatest
  · intro arxivId
    rcases h.synced arxivId with hnone | hcontent | ⟨row, hmem, hid, hdue, holder⟩
    · exact .inl hnone
    · exact .inr (.inl hcontent)
    · obtain ⟨other, hother, hid', hdate'⟩ := hrow row hmem
      refine .inr (.inr ⟨other, hother, hid'.trans hid, ?_, ?_⟩)
      · rw [hdate']
        exact Set.mem_insert_of_mem _ hdue
      · rw [hdate']
        exact holder

/-- The article's row in `papers`, where it is not superseded. -/
theorem not_awaits (h : Converging Page due records tables) {row : OaiRecord D}
    (hnot : awaits tables.papers row = false) :
    ∃ content, IsCaptured Page content ∧
      tables.papers.filter (·.arxivId = row.arxivId) = [content.paper] ∧
      supersedes row content.paper = false := by
  unfold awaits at hnot
  rcases h.stored row.arxivId with hnone | ⟨content, hcontent, hone, -⟩
  · rw [hnone] at hnot
    cases hnot
  · rw [hone] at hnot
    exact ⟨content, hcontent, hone, by simpa using hnot⟩

/-- A row of the same day that does not supersede the paper has its record. -/
theorem same_of_not_supersedes (hfree : CollisionFree D) {row : OaiRecord D}
    (hrow : IsCaptured Page row.toOaiContent) {content : OaiContent D}
    (hcontent : IsCaptured Page content) (hnot : supersedes row content.paper = false)
    (hdate : content.datestampDate ≤ row.datestampDate) : content = row.toOaiContent := by
  obtain ⟨hlate, hdigest⟩ := supersedes_eq_false.mp hnot
  exact (hrow.eq hfree hcontent (hdigest (le_antisymm hlate hdate))).symm

/-- An article that no row of a day awaits is left alone by the day's publication. -/
theorem not_pending (h : Converging Page due records tables) {day : Day} {arxivId : String}
    (hnot : ∀ row ∈ arxivPending records tables.papers day, row.arxivId ≠ arxivId)
    {row : OaiRecord D} (hrow : row ∈ dayLatest records day) (hid : row.arxivId = arxivId) :
    awaits tables.papers row = false := by
  by_contra hawaits
  rw [Bool.not_eq_false] at hawaits
  exact hnot row ((mem_arxivPending h.oneRowEach).mpr ⟨hrow, hawaits⟩) hid

/-- **A publication that overlooks nothing** settles its day. -/
theorem publish (hfree : CollisionFree D) {landing : ArxivLanding D}
    (h : Converging Page due landing.records tables) {day : Day}
    (hlooks : ¬Overlooks landing tables day) {tables' : ArxivTables D}
    (hpublish : publishCurated landing.records day tables = .ok tables') :
    Converging Page (due \ {day}) landing.records tables' := by
  obtain ⟨published, hpublished, hrows, hothers⟩ :=
    publishCurated_rows h.oneRowEach landing.records day
  obtain rfl := Except.ok.inj (hpublished.symm.trans hpublish)
  have hpending : ∀ row, row ∈ arxivPending landing.records tables.papers day ↔
      row ∈ dayLatest landing.records day ∧ awaits tables.papers row = true :=
    fun row => mem_arxivPending h.oneRowEach
  -- Every article is pending, or is left alone.
  have hcases : ∀ arxivId, (∃ row ∈ arxivPending landing.records tables.papers day,
      row.arxivId = arxivId ∧ published.rowsOf arxivId = row.rows) ∨
      (∀ row ∈ arxivPending landing.records tables.papers day, row.arxivId ≠ arxivId) ∧
        published.rowsOf arxivId = tables.rowsOf arxivId := by
    intro arxivId
    by_cases hsome : ∃ row ∈ arxivPending landing.records tables.papers day, row.arxivId = arxivId
    · obtain ⟨row, hrow, rfl⟩ := hsome
      exact .inl ⟨row, hrow, rfl, hrows row hrow⟩
    · have hnot : ∀ row ∈ arxivPending landing.records tables.papers day,
          row.arxivId ≠ arxivId := fun row hrow hid => hsome ⟨row, hrow, hid⟩
      exact .inr ⟨hnot, hothers arxivId hnot⟩
  have hpapers : ∀ {arxivId rows}, published.rowsOf arxivId = rows →
      published.papers.filter (·.arxivId = arxivId) = rows.1 := fun hrows => congrArg Prod.fst hrows
  constructor
  · exact h.captured
  · intro arxivId
    rcases hcases arxivId with ⟨row, hrow, hid, hnew⟩ | ⟨-, hkept⟩
    · obtain ⟨hmem, -⟩ := mem_dayLatest ((hpending row).mp hrow).1
      exact .inr ⟨row.toOaiContent, h.captured row hmem, hpapers hnew, row, hmem, hid, rfl⟩
    · rw [hpapers hkept]
      exact h.stored arxivId
  · intro other hother row hrow
    rw [Set.mem_sdiff, Set.mem_singleton_iff, not_and_not_right] at hother
    unfold awaits
    rcases hcases row.arxivId with ⟨pending, hmem, hid, hnew⟩ | ⟨hnot, hkept⟩
    · rw [hpapers hnew]
      obtain ⟨hlatest, hawaits⟩ := (hpending pending).mp hmem
      obtain ⟨-, hdate⟩ := mem_dayLatest hlatest
      obtain ⟨-, hdate'⟩ := mem_dayLatest hrow
      by_cases hsame : other = day
      · obtain rfl := dayLatest_unique hlatest (hsame ▸ hrow) hid
        simp [OaiContent.rows, supersedes, OaiContent.paper]
      · -- The paper of the other day was as late as its row, and the pending one is later.
        obtain ⟨content, -, hone, hlate⟩ := h.not_awaits
          (h.settled other (fun hdue => hsame (hother hdue)) row hrow)
        unfold awaits at hawaits
        rw [hid, hone] at hawaits
        simp only [List.all_cons, List.all_nil, Bool.and_true] at hawaits
        have hlater : other < day := by
          simp only [supersedes, OaiContent.paper] at hlate hawaits
          have hne : other ≠ day := hsame
          grind
        simp [OaiContent.rows, supersedes, OaiContent.paper, hdate, hdate', hlater.le, hlater.ne]
    · rw [hpapers hkept]
      by_cases hsame : other = day
      · exact h.not_pending hnot (hsame ▸ hrow) rfl
      · exact h.settled other (fun hdue => hsame (hother hdue)) row hrow
  · intro arxivId
    rcases hcases arxivId with ⟨row, hrow, -, hnew⟩ | ⟨hnot, hkept⟩
    · obtain ⟨hmem, -⟩ := mem_dayLatest ((hpending row).mp hrow).1
      exact .inr (.inl ⟨row.toOaiContent, h.captured row hmem, hnew⟩)
    · rw [hkept, hpapers hkept]
      rcases h.synced arxivId with hnone | hcontent | ⟨row, hmem, hid, hdue, holder⟩
      · exact .inl hnone
      · exact .inr (.inl hcontent)
      · by_cases hsame : row.datestampDate = day
        · -- The day's row is that of `papers`, and nothing is overlooked.
          obtain ⟨latest, hlatest, hid'⟩ := exists_dayLatest hmem
          have hdate := (mem_dayLatest hlatest).2
          rw [hsame] at hlatest
          obtain ⟨content, hcontent, hone, hlate⟩ := h.not_awaits
            (h.not_pending hnot hlatest (hid'.trans hid))
          rw [hid', hid] at hone
          have holder' := holder content.paper (by
            change content.paper ∈ tables.papers.filter (·.arxivId = arxivId)
            simp [hone])
          have hlatestCaptured := h.captured latest (mem_dayLatest hlatest).1
          obtain rfl := same_of_not_supersedes hfree hlatestCaptured hcontent hlate
            (hdate ▸ holder')
          refine .inr (.inl ⟨latest.toOaiContent, hlatestCaptured, ?_⟩)
          by_contra hdiffers
          refine hlooks ⟨latest, hlatest, ⟨latest.paper, ?_, rfl, rfl, rfl⟩, ?_⟩
          · have hstored : latest.paper ∈ tables.papers.filter (·.arxivId = arxivId) := by
              simp [hone]
            exact List.mem_of_mem_filter hstored
          · rw [hid', hid]
            exact hdiffers
        · exact .inr (.inr ⟨row, hmem, hid, ⟨hdue, hsame⟩, holder⟩)

/-- An interrupted publication makes its day due. -/
theorem interrupt (h : Converging Page due records tables) {day : Day} {executed : Fin 5}
    {tables' : ArxivTables D}
    (hinterrupt : interruptCurated records day executed tables = .ok tables') :
    Converging Page (insert day due) records tables' := by
  obtain ⟨hpapers, hothers⟩ := interruptCurated_rows h.oneRowEach hinterrupt
  constructor
  · exact h.captured
  · rw [hpapers]
    exact h.stored
  · rw [hpapers]
    exact fun other hother => h.settled other fun hdue => hother (Set.mem_insert_of_mem _ hdue)
  · intro arxivId
    rw [hpapers]
    by_cases hsome : ∃ row ∈ arxivPending records tables.papers day, row.arxivId = arxivId
    · obtain ⟨row, hrow, rfl⟩ := hsome
      obtain ⟨hlatest, hawaits⟩ := (mem_arxivPending h.oneRowEach).mp hrow
      obtain ⟨hmem, hdate⟩ := mem_dayLatest hlatest
      refine .inr (.inr ⟨row, hmem, rfl, hdate ▸ Set.mem_insert _ _, ?_⟩)
      intro paper hpaper
      have hsupersedes : supersedes row paper = true := List.all_eq_true.mp hawaits paper hpaper
      unfold supersedes at hsupersedes
      grind
    · rw [hothers arxivId fun row hrow hid => hsome ⟨row, hrow, hid⟩]
      rcases h.synced arxivId with hnone | hcontent | ⟨row, hmem, hid, hdue, holder⟩
      · exact .inl hnone
      · exact .inr (.inl hcontent)
      · exact .inr (.inr ⟨row, hmem, hid, Set.mem_insert_of_mem _ hdue, holder⟩)

end Converging

theorem ArxivRun.converging (hfree : CollisionFree D) {due : Set Day} {landing : ArxivLanding D}
    {tables : ArxivTables D}
    (h : ArxivRun Page (fun landing tables day => ¬Overlooks landing tables day) due landing
      tables) : Converging Page due landing.records tables := by
  induction h with
  | start => exact Converging.start
  | capture pages pageObjects ingestedAt publication records changed _ hparse hkeeps hpublish ih =>
      unfold ArxivLanding.publish at hpublish
      split at hpublish
      · obtain ⟨rfl, rfl⟩ := Prod.mk.inj hpublish
        exact ih
      · obtain ⟨rfl, rfl⟩ := Prod.mk.inj hpublish
        exact ih.capture (Oai.parseRecords_ofDay hparse) hkeeps
  | captureInterrupted pages pageObjects ingestedAt day records _ hparse hkeeps ih =>
      exact ih.capture (Oai.parseRecords_ofDay hparse) hkeeps
  | publish day _ hlooks hpublish ih => exact ih.publish hfree hlooks hpublish
  | interrupt day executed _ hinterrupt ih => exact ih.interrupt hinterrupt

/-- The landing row of an article with the greatest datestamp. -/
def latestRow (records : List (OaiRecord D)) (arxivId : String) : Option (OaiRecord D) :=
  (firstInGroup (fun row : OaiRecord D => row.arxivId) mutationOrder records).find?
    (·.arxivId = arxivId)

theorem latestRow_eq_some {records : List (OaiRecord D)} {arxivId : String} {row : OaiRecord D}
    (h : latestRow records arxivId = some row) :
    row.arxivId = arxivId ∧ row ∈ records ∧
      ∀ other ∈ records, other.arxivId = row.arxivId → mutationOrder other ≤ mutationOrder row := by
  obtain ⟨hmem, hmax⟩ := mem_firstInGroup (List.mem_of_find?_eq_some h)
  exact ⟨by simpa using List.find?_some h, hmem, hmax⟩

theorem latestRow_eq_none {records : List (OaiRecord D)} {arxivId : String}
    (h : latestRow records arxivId = none) : ∀ row ∈ records, row.arxivId ≠ arxivId := by
  intro row hrow hid
  obtain ⟨first, hfirst, hsame⟩ : ∃ first ∈ firstInGroup (fun row : OaiRecord D => row.arxivId)
      mutationOrder records, first.arxivId = row.arxivId := exists_firstInGroup hrow
  have hother := List.find?_eq_none.mp h first hfirst
  simp [hsame, hid] at hother

/-- **Where no day is due**, an article has the rows of any landing row that none comes after. -/
theorem Converging.rowsOf_latest (hfree : CollisionFree D) {records : List (OaiRecord D)}
    {tables : ArxivTables D} (h : Converging Page ∅ records tables) {row : OaiRecord D}
    (hrow : row ∈ records)
    (hlatest : ∀ other ∈ records, other.arxivId = row.arxivId →
      mutationOrder other ≤ mutationOrder row) :
    tables.rowsOf row.arxivId = row.rows := by
  have hdate : ∀ other ∈ records, other.arxivId = row.arxivId →
      other.datestampDate ≤ row.datestampDate := by
    intro other hother hid
    rcases Prod.Lex.le_iff.mp (hlatest other hother hid) with hlt | ⟨heq, -⟩
    · exact hlt.le
    · exact heq.le
  obtain ⟨first, hfirst, hid⟩ := exists_dayLatest hrow
  obtain ⟨hmem, hday⟩ := mem_dayLatest hfirst
  -- The first row of the latest day is the latest row, as far as its record goes.
  have hsame : first.toOaiContent = row.toOaiContent := by
    have hle : mutationOrder row ≤ mutationOrder first := by
      obtain ⟨-, hmax⟩ := mem_firstInGroup hfirst
      exact hmax row (by simp [hrow]) hid.symm
    have hboth := congrArg (fun order => (ofLex (ofLex order).2).2)
      (le_antisymm (hlatest first hmem hid) hle)
    exact (h.captured first hmem).eq hfree (h.captured row hrow) hboth
  obtain ⟨content, hcontent, hone, hnot⟩ := h.not_awaits
    (h.settled row.datestampDate (Set.notMem_empty _) first hfirst)
  rw [hid] at hone
  have hold : content.datestampDate ≤ first.datestampDate := by
    rcases h.stored row.arxivId with hnone | ⟨content', -, hone', other, hother, hid', hdate'⟩
    · rw [hnone] at hone
      cases hone
    · have hpaper : content'.paper = content.paper := by
        have heq := hone'.symm.trans hone
        simpa using heq
      have hcontentDate : content'.datestampDate = content.datestampDate :=
        congrArg Paper.oaiDatestamp hpaper
      rw [← hcontentDate, ← hdate', hday]
      exact hdate other hother hid'
  obtain rfl := same_of_not_supersedes hfree (h.captured first hmem) hcontent hnot hold
  rcases h.synced row.arxivId with hnone | ⟨content, hcontent', hrows⟩ | ⟨other, -, -, hdue, -⟩
  · have hpapers := congrArg Prod.fst hnone
    change tables.papers.filter (·.arxivId = row.arxivId) = [] at hpapers
    rw [hone] at hpapers
    cases hpapers
  · have hpapers := congrArg Prod.fst hrows
    change tables.papers.filter (·.arxivId = row.arxivId) = [content.paper] at hpapers
    rw [hone, List.singleton_inj] at hpapers
    rw [hrows, ← hcontent.eq hfree hcontent' (congrArg Paper.sourceRecordSha256 hpapers), hsame]
  · cases hdue

/-- Where no day is due, an article without landing rows has none. -/
theorem Converging.rowsOf_none {records : List (OaiRecord D)} {tables : ArxivTables D}
    (h : Converging Page ∅ records tables) {arxivId : String}
    (hnone : ∀ row ∈ records, row.arxivId ≠ arxivId) : tables.rowsOf arxivId = ([], [], []) := by
  have hpapers : tables.papers.filter (·.arxivId = arxivId) = [] := by
    rcases h.stored arxivId with hempty | ⟨content, -, -, row, hrow, hid, -⟩
    · exact hempty
    · exact absurd hid (hnone row hrow)
  rcases h.synced arxivId with hempty | ⟨content, -, hrows⟩ | ⟨row, hrow, hid, -⟩
  · exact hempty
  · have hpaper := congrArg Prod.fst hrows
    change tables.papers.filter (·.arxivId = arxivId) = [content.paper] at hpaper
    rw [hpapers] at hpaper
    cases hpaper
  · exact absurd hid (hnone row hrow)

/-- Tables whose articles have the same rows have the same rows. -/
theorem perm_of_filter_eq {R : Type} [DecidableEq R] {idOf : R → String} {rows rows' : List R}
    (h : ∀ arxivId, rows.filter (idOf · = arxivId) = rows'.filter (idOf · = arxivId)) :
    rows.Perm rows' := by
  rw [List.perm_iff_count]
  intro row
  have hcount : ∀ rows : List R, rows.count row = (rows.filter (idOf · = idOf row)).count row := by
    intro rows
    rw [List.count_filter (by simp)]
  rw [hcount, h, ← hcount]

end

/-! One article whose record changes and changes back around an interrupted publication. -/

namespace Recaptured

/-- A page is its document. -/
structure Page where
  root : XmlElement

instance : OaiDecoding Page where
  fromstring page := .ok page.root
  fromisoformat value :=
    if value = "2026-01-05" then .ok 20458 else .error (.valueError "Invalid isoformat string")

def leaf (name value : String) : XmlElement := .mk name [] (some value) [] none

def node (name : String) (children : List XmlElement) : XmlElement := .mk name [] none children none

/-- The day's page, with one article of one author. -/
def page (keyname : String) : Page where
  root := node (Oai.oaiName "OAI-PMH") [node (Oai.oaiName "ListRecords") [
    node (Oai.oaiName "record") [
      node (Oai.oaiName "header") [leaf (Oai.oaiName "identifier") "oai:arXiv.org:2601.00001",
        leaf (Oai.oaiName "datestamp") "2026-01-05"],
      node (Oai.oaiName "metadata") [node (Oai.arxivName "arXiv") [
        leaf (Oai.arxivName "id") "2601.00001", leaf (Oai.arxivName "title") "A title",
        node (Oai.arxivName "authors") [
          node (Oai.arxivName "author") [leaf (Oai.arxivName "keyname") keyname]]]]]]]

def day : Day := 20458

/-- The records of a capture at some second. -/
def records (keyname : String) (second : Int) : List (OaiRecord Spelled) :=
  (Oai.parseRecords [page keyname] day [("page-000001.xml.gz", keyname)]
    (seconds second)).toOption.getD []

def publication (manifest : String) : OaiPublication where
  datestampDate := day
  rawManifestKey := "manifest.json"
  rawManifestSha256 := manifest
  pageCount := 1
  recordCount := 1
  publishedAt := 0

/-- The landing tables after one, two and three captures. -/
def landed (captures : List (String × String × Int)) : ArxivLanding Spelled :=
  captures.foldl (fun landing capture =>
    (landing.publish (records capture.2.1 capture.2.2) (publication capture.1)).1) {}

def first : ArxivLanding Spelled := landed [("m1", "Ito", 1)]

def second : ArxivLanding Spelled := landed [("m1", "Ito", 1), ("m2", "Abe", 2)]

def third : ArxivLanding Spelled := landed [("m1", "Ito", 1), ("m2", "Abe", 2), ("m3", "Ito", 3)]

/-- The tables after the first publication. -/
def published : ArxivTables Spelled :=
  (publishCurated first.records day {}).toOption.getD {}

/-- The tables after the second one stopped when it had appended the authors. -/
def interrupted : ArxivTables Spelled :=
  (interruptCurated second.records day 3 published).toOption.getD {}

theorem captured : Oai.parseRecords [page "Ito"] day [("page-000001.xml.gz", "Ito")] (seconds 1) =
      .ok (records "Ito" 1) ∧
    Oai.parseRecords [page "Abe"] day [("page-000001.xml.gz", "Abe")] (seconds 2) =
      .ok (records "Abe" 2) ∧
    Oai.parseRecords [page "Ito"] day [("page-000001.xml.gz", "Ito")] (seconds 3) =
      .ok (records "Ito" 3) := by
  decide +kernel

theorem ran : publishCurated first.records day {} = .ok published ∧
    interruptCurated second.records day 3 published = .ok interrupted ∧
    publishCurated third.records day interrupted = .ok interrupted := by
  decide +kernel

theorem landings : ArxivLanding.publish {} (records "Ito" 1) (publication "m1") = (first, true) ∧
    first.publish (records "Abe" 2) (publication "m2") = (second, true) ∧
    second.publish (records "Ito" 3) (publication "m3") = (third, true) :=
  ⟨Prod.ext rfl (by decide +kernel), Prod.ext rfl (by decide +kernel),
    Prod.ext rfl (by decide +kernel)⟩

/-- The first capture, published. -/
theorem firstRun {Admits : ArxivLanding Spelled → ArxivTables Spelled → Day → Prop}
    (hadmits : Admits first {} day) : ArxivRun Page Admits ∅ first published := by
  have hcapture := (@ArxivRun.start _ _ Page _ Admits).capture [page "Ito"] _ _
    (publication "m1") _ _ captured.1 (fun row hrow => by cases hrow) landings.1
  have hpublish := hcapture.publish day hadmits ran.1
  have hdue : (if true = true then insert (publication "m1").datestampDate ∅ else ∅) \ {day} =
      (∅ : Set Day) := by
    ext other
    simp [publication]
  rwa [hdue] at hpublish

end Recaptured

end MiniLakehouse
