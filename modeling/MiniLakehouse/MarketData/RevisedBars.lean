import MiniLakehouse.Library.Revisions
import MiniLakehouse.MarketData.Views

/-!
# Revisioned market tables

`_publish_daily`, `_publish_bars` and `_publish_index_bars`
(`market_data/rest_curated.py`) append what a capture says about a key under the
key's next revision, unless the table has the same source records for the key
already, at whatever revision.  Readers pick the highest revision.
-/

namespace MiniLakehouse

/-- A capture of one trade date: its scope and the landed records of its requests. -/
structure MarketCapture where
  tradeDate : String
  symbols : List String
  indices : List String
  capturedIndexBars : List String
  records : List RestRecord

/-- A row of `intraday_bars_1m` or, with an index code, of `index_bars_1m`. -/
structure MinuteBar (D : Type) where
  symbol : Option String
  tradeDate : Option Day
  values : MinuteOhlc
  sourceRecordSha256 : D
  availableAt : Instant
  deriving DecidableEq

/-- A row of `daily_security_summaries`. -/
structure DailySummary (D : Type) extends MasterData, Turnover where
  symbol : Option String
  tradeDate : Option Day
  openPrice : Option Rat
  highPrice : Option Rat
  lowPrice : Option Rat
  closePrice : Option Rat
  sourceRecordSha256 : D
  availableAt : Instant
  deriving DecidableEq

section Model

variable {D : Type} [Hashing D]

/-- `existing.bar_start = candidate.bar_start AND existing.source_record_sha256 = …` -/
def minuteScheme : RevisionScheme (MinuteBar D) (Option String × Option Instant) D where
  key row := (row.symbol, row.values.barStart)
  fingerprint := (·.sourceRecordSha256)

/-- `existing.trade_date = candidate.trade_date AND existing.source_record_sha256 = …` -/
def dailyScheme : RevisionScheme (DailySummary D) (Option String × Option Day) D where
  key row := (row.symbol, row.tradeDate)
  fingerprint := (·.sourceRecordSha256)

/-- A row of `ssi_bar_candidates` or `ssi_index_bar_candidates`. -/
def minuteBar (row : ViewRow MinuteOhlc) : MinuteBar D where
  symbol := row.symbol
  tradeDate := row.tradeDate
  values := row.values
  sourceRecordSha256 := row.record.recordSha256
  availableAt := row.record.receivedAt

/-- A row of `ssi_daily_candidates`. -/
def dailyCandidate (daily : ViewRow Ohlc) (master : ViewRow MasterData)
    (summary : ViewRow SecuritySummary) : DailySummary D where
  toMasterData := master.values
  toTurnover := summary.values.toTurnover
  symbol := daily.symbol
  tradeDate := daily.tradeDate
  openPrice := daily.values.openPrice
  highPrice := daily.values.highPrice
  lowPrice := daily.values.lowPrice
  closePrice := daily.values.closePrice
  sourceRecordSha256 := sha256 (.arr [.sha daily.record.recordSha256,
    .sha master.record.recordSha256, .sha summary.record.recordSha256])
  availableAt := max daily.record.receivedAt
    (max master.record.receivedAt summary.record.receivedAt)

/-- `ssi_daily_candidates` -/
def dailyCandidates (daily : List (ViewRow Ohlc)) (master : List (ViewRow MasterData))
    (summary : List (ViewRow SecuritySummary)) : List (DailySummary D) :=
  daily.flatMap fun row => (master.filter (joins row)).flatMap fun reference =>
    (summary.filter (joins row)).map fun traded => dailyCandidate row reference traded

/-- The revisioned tables. -/
structure BarTables (D : Type) where
  dailySummaries : List (Revision (DailySummary D)) := []
  intradayBars : List (Revision (MinuteBar D)) := []
  indexBars : List (Revision (MinuteBar D)) := []

namespace MarketCapture

variable [SparkSql] (capture : MarketCapture)

def minuteView : List (ViewRow MinuteOhlc) :=
  minuteOhlc capture.tradeDate capture.symbols capture.records

def indexView : List (ViewRow MinuteOhlc) :=
  indexMinuteOhlc capture.tradeDate capture.indices capture.records

/-- Both checks of the views. -/
def validate : Except Raised Unit := do
  validateMarketData capture.symbols.length (dailyOhlc capture.tradeDate capture.records)
    capture.minuteView (securitySummary capture.tradeDate capture.records)
    (masterData capture.tradeDate capture.records)
  validateIndexBars capture.capturedIndexBars.length capture.indexView

/-- What the capture offers to `daily_security_summaries`. -/
def dailySummaries : List (DailySummary D) :=
  dailyCandidates (dailyOhlc capture.tradeDate capture.records)
    (masterData capture.tradeDate capture.records)
    (securitySummary capture.tradeDate capture.records)

/-- What it offers to `intraday_bars_1m`. -/
def intradayBars : List (MinuteBar D) := capture.minuteView.map minuteBar

/-- What it offers to `index_bars_1m`. -/
def indexBars : List (MinuteBar D) := capture.indexView.map minuteBar

/-- The part of `publish` that writes the revisioned tables. -/
def publishBars (tables : BarTables D) : Except Raised (BarTables D) := do
  capture.validate
  return {
    dailySummaries := dailyScheme.publishNew tables.dailySummaries capture.dailySummaries
    intradayBars := minuteScheme.publishNew tables.intradayBars capture.intradayBars
    indexBars := minuteScheme.publishNew tables.indexBars capture.indexBars }

end MarketCapture

/-- Captures, published one after another. -/
def publishCaptures [SparkSql] (captures : List MarketCapture) : Except Raised (BarTables D) :=
  captures.foldlM (fun tables capture => capture.publishBars tables) {}

end Model

section Facts

variable {D : Type} [Hashing D] [SparkSql]

/-! ## What a published capture offers -/

omit [SparkSql] in
/-- One row for each symbol: no two rows share theirs. -/
theorem CoversSymbols.nodup {V : Type} {count : Nat} {rows : List (ViewRow V)}
    (h : CoversSymbols count rows) : (rows.map (·.symbol)).Nodup := by
  obtain ⟨hrows, hdistinct⟩ := h
  have hpresent : (rows.filterMap (·.symbol)).length ≤ rows.length := List.length_filterMap_le _ _
  have hdedup := (List.dedup_sublist (rows.filterMap (·.symbol))).length_le
  unfold distinctSymbols at hdistinct
  have hsame : (rows.filterMap (·.symbol)).dedup = rows.filterMap (·.symbol) :=
    (List.dedup_sublist _).eq_of_length (by omega)
  have hlength : (rows.filterMap (·.symbol)).length = rows.length := by omega
  have hall : ∀ row ∈ rows, row.symbol.isSome := List.filterMap_length_eq_length.mp hlength
  have hmap : rows.map (·.symbol) = (rows.filterMap (·.symbol)).map some := by
    clear hrows hdistinct hpresent hdedup hsame hlength
    induction rows with
    | nil => rfl
    | cons row rows ih =>
        obtain ⟨symbol, hsymbol⟩ := Option.isSome_iff_exists.mp (hall row (by simp))
        rw [List.map_cons, List.filterMap_cons_some hsymbol, List.map_cons, hsymbol,
          ih fun other hother => hall other (by simp [hother])]
  rw [hmap, ← hsame]
  exact (List.nodup_dedup _).map (Option.some_injective _)

omit [SparkSql] in
/-- A row joins one row at most of a view without repeated symbols. -/
theorem filter_joins_length {V W : Type} {row : ViewRow V} {rows : List (ViewRow W)}
    (h : (rows.map (·.symbol)).Nodup) : (rows.filter (joins row)).length ≤ 1 := by
  have hnodup : ((rows.filter (joins row)).map (·.symbol)).Nodup :=
    h.sublist (List.filter_sublist.map _)
  have hsymbol : ∀ other ∈ rows.filter (joins row), other.symbol = row.symbol := by
    intro other hother
    have hjoins := (List.mem_filter.mp hother).2
    unfold joins at hjoins
    grind
  cases hfilter : rows.filter (joins row) with
  | nil => simp
  | cons first rest =>
      cases rest with
      | nil => simp
      | cons second rest =>
          rw [hfilter] at hnodup hsymbol
          rw [List.map_cons, List.map_cons, List.nodup_cons, hsymbol first (by simp),
            hsymbol second (by simp)] at hnodup
          exact absurd (by simp) hnodup.1

omit [SparkSql] in
theorem dailyCandidates_onePerKey {daily : List (ViewRow Ohlc)}
    {master : List (ViewRow MasterData)} {summary : List (ViewRow SecuritySummary)}
    (hdaily : (daily.map (·.symbol)).Nodup) (hmaster : (master.map (·.symbol)).Nodup)
    (hsummary : (summary.map (·.symbol)).Nodup) :
    dailyScheme.OnePerKey (dailyCandidates daily master summary : List (DailySummary D)) := by
  have hkeys : ∀ row : ViewRow Ohlc,
      (((master.filter (joins row)).flatMap fun reference =>
        (summary.filter (joins row)).map fun traded =>
          (dailyCandidate row reference traded : DailySummary D)).map dailyScheme.key) =
      List.replicate ((master.filter (joins row)).length * (summary.filter (joins row)).length)
        (row.symbol, row.tradeDate) := by
    intro row
    rw [List.eq_replicate_iff]
    constructor
    · simp [List.length_flatMap]
    · intro key hkey
      simp only [List.mem_map, List.mem_flatMap] at hkey
      obtain ⟨candidate, ⟨reference, -, traded, -, rfl⟩, rfl⟩ := hkey
      rfl
  unfold RevisionScheme.OnePerKey dailyCandidates
  rw [List.map_flatMap, List.nodup_flatMap]
  constructor
  · intro row hrow
    rw [hkeys, List.nodup_replicate]
    exact Nat.mul_le_mul (filter_joins_length hmaster) (filter_joins_length hsummary)
  · refine (List.pairwise_map.mp hdaily).imp ?_
    intro row other hne
    rw [Function.onFun, hkeys, hkeys]
    intro key hkey hkey'
    have hrow := List.eq_of_mem_replicate hkey
    have hother := List.eq_of_mem_replicate hkey'
    exact hne (congrArg Prod.fst (hrow.symm.trans hother))

omit [SparkSql] in
theorem minuteBar_onePerKey {rows : List (ViewRow MinuteOhlc)} (h : OneRowPerBar rows) :
    minuteScheme.OnePerKey (rows.map minuteBar : List (MinuteBar D)) := by
  unfold RevisionScheme.OnePerKey
  rw [List.map_map]
  exact h

/-- A capture that passes the checks offers one row for each key. -/
theorem MarketCapture.offers_one {capture : MarketCapture} (h : capture.validate = .ok ()) :
    dailyScheme.OnePerKey (capture.dailySummaries : List (DailySummary D)) ∧
    minuteScheme.OnePerKey (capture.intradayBars : List (MinuteBar D)) ∧
    minuteScheme.OnePerKey (capture.indexBars : List (MinuteBar D)) := by
  unfold MarketCapture.validate at h
  obtain ⟨_, hmarket, hindex⟩ := bind_eq_ok.mp h
  unfold validateMarketData at hmarket
  obtain ⟨_, hcoverage, -⟩ := bind_eq_ok.mp hmarket
  obtain ⟨hdaily, hmaster, hsummary, -, hminutes⟩ := require_eq_ok.mp hcoverage
  obtain ⟨-, -, hbars⟩ := require_eq_ok.mp hindex
  exact ⟨dailyCandidates_onePerKey hdaily.nodup hmaster.nodup hsummary.nodup,
    minuteBar_onePerKey hminutes, minuteBar_onePerKey hbars⟩

theorem MarketCapture.publishBars_eq_ok {capture : MarketCapture} {tables tables' : BarTables D} :
    capture.publishBars tables = .ok tables' ↔ capture.validate = .ok () ∧ tables' = {
      dailySummaries := dailyScheme.publishNew tables.dailySummaries capture.dailySummaries
      intradayBars := minuteScheme.publishNew tables.intradayBars capture.intradayBars
      indexBars := minuteScheme.publishNew tables.indexBars capture.indexBars } := by
  unfold MarketCapture.publishBars
  rw [bind_eq_ok]
  constructor
  · rintro ⟨_, hvalid, hpublished⟩
    exact ⟨hvalid, (Except.ok.inj hpublished).symm⟩
  · rintro ⟨hvalid, rfl⟩
    exact ⟨(), hvalid, rfl⟩

theorem publishCaptures_snoc {before : List MarketCapture} {capture : MarketCapture}
    {tables : BarTables D} :
    publishCaptures (before ++ [capture]) = .ok tables ↔
      ∃ earlier, publishCaptures before = .ok earlier ∧ capture.publishBars earlier = .ok tables := by
  simp only [publishCaptures, List.foldlM_append, List.foldlM_cons, List.foldlM_nil, bind_pure,
    bind_eq_ok]

/-- What a run of publications leaves in the tables. -/
theorem publishCaptures_eq_ok {captures : List MarketCapture} {tables : BarTables D} :
    publishCaptures captures = .ok tables ↔
      (∀ capture ∈ captures, capture.validate = .ok ()) ∧
      tables = {
        dailySummaries := dailyScheme.publishAll (captures.map (·.dailySummaries))
        intradayBars := minuteScheme.publishAll (captures.map (·.intradayBars))
        indexBars := minuteScheme.publishAll (captures.map (·.indexBars)) } := by
  induction captures using List.reverseRecOn generalizing tables with
  | nil => simp [publishCaptures, RevisionScheme.publishAll, pure, Except.pure, eq_comm]
  | append_singleton before capture ih =>
      rw [publishCaptures_snoc]
      simp only [List.map_append, List.map_cons, List.map_nil, RevisionScheme.publishAll_snoc]
      constructor
      · rintro ⟨earlier, hearlier, hpublished⟩
        obtain ⟨hbefore, rfl⟩ := ih.mp hearlier
        obtain ⟨hvalid, rfl⟩ := MarketCapture.publishBars_eq_ok.mp hpublished
        refine ⟨?_, rfl⟩
        intro other hother
        rcases List.mem_append.mp hother with hother | hother
        · exact hbefore other hother
        · rw [List.mem_singleton.mp hother]
          exact hvalid
      · rintro ⟨hvalid, rfl⟩
        refine ⟨_, ih.mpr ⟨fun other hother => hvalid other (by simp [hother]), rfl⟩, ?_⟩
        exact MarketCapture.publishBars_eq_ok.mpr ⟨hvalid capture (by simp), rfl⟩

/-! ## Content -/

/-- The same values and source records under the same key. -/
def MinuteBar.SameContent (a b : MinuteBar D) : Prop := { a with availableAt := b.availableAt } = b

/-- The same values and source records under the same key. -/
def DailySummary.SameContent (a b : DailySummary D) : Prop :=
  { a with availableAt := b.availableAt } = b

/-- The columns of a record are read out of its text. -/
theorem RestRecord.columns_congr {a b : RestRecord} (h : a.recordJson = b.recordJson) :
    a.tradingDay = b.tradingDay ∧ a.barStart = b.barStart ∧ (∀ scale, a.ohlc scale = b.ohlc scale) ∧
      a.summary = b.summary ∧ a.reference = b.reference := by
  obtain ⟨endpoint, symbol, receivedAt, recordJson⟩ := a
  obtain ⟨endpoint', symbol', receivedAt', recordJson'⟩ := b
  obtain rfl : recordJson = recordJson' := h
  exact ⟨rfl, rfl, fun _ => rfl, rfl, rfl⟩

omit [SparkSql] in
theorem recordSha256_inj (hfree : CollisionFree D) {a b : RestRecord}
    (h : (a.recordSha256 : D) = b.recordSha256) : a.recordJson = b.recordJson :=
  Json.str_injective (hfree h)

/-- Bars of one table that share the key and the digest of their record are the same. -/
theorem minuteBar_sameContent (hfree : CollisionFree D) (values : RestRecord → MinuteOhlc)
    (hvalues : ∀ a b : RestRecord, a.recordJson = b.recordJson → values a = values b)
    {record record' : RestRecord} {a b : MinuteBar D}
    (ha : a = minuteBar (record.viewRow (values record)))
    (hb : b = minuteBar (record'.viewRow (values record')))
    (hkey : minuteScheme.key a = minuteScheme.key b) :
    minuteScheme.fingerprint a = minuteScheme.fingerprint b ↔ a.SameContent b := by
  unfold MinuteBar.SameContent
  constructor
  · intro hdigest
    have hsymbol : a.symbol = b.symbol := congrArg Prod.fst hkey
    have hrecord : record.recordJson = record'.recordJson := by
      rw [ha, hb] at hdigest
      exact recordSha256_inj hfree hdigest
    have hday := (RestRecord.columns_congr hrecord).1
    rw [ha, hb] at hsymbol hdigest ⊢
    simp only [minuteBar, minuteScheme, RestRecord.viewRow] at hsymbol hdigest ⊢
    rw [hsymbol, hday, hvalues _ _ hrecord, hdigest]
  · intro hsame
    rw [← hsame]
    rfl

/-- A row of a view, as the record that it was read from makes it. -/
theorem mem_intradayBars {capture : MarketCapture} {bar : MinuteBar D}
    (h : bar ∈ capture.intradayBars) :
    ∃ record : RestRecord,
      bar = minuteBar (record.viewRow ⟨(record.ohlc 6).normalized, record.barStart⟩) := by
  obtain ⟨row, hrow, rfl⟩ := List.mem_map.mp h
  obtain ⟨record, -, hrow⟩ := List.mem_flatMap.mp hrow
  obtain ⟨symbol, -, rfl⟩ := List.mem_map.mp hrow
  exact ⟨record, rfl⟩

theorem mem_indexBars {capture : MarketCapture} {bar : MinuteBar D}
    (h : bar ∈ capture.indexBars) :
    ∃ record : RestRecord, bar = minuteBar (record.viewRow ⟨record.ohlc 6, record.barStart⟩) := by
  obtain ⟨row, hrow, rfl⟩ := List.mem_map.mp h
  obtain ⟨record, -, hrow⟩ := List.mem_flatMap.mp hrow
  obtain ⟨symbol, -, rfl⟩ := List.mem_map.mp hrow
  exact ⟨record, rfl⟩

theorem intradayBars_sameContent (hfree : CollisionFree D) {capture capture' : MarketCapture}
    {a b : MinuteBar D} (ha : a ∈ capture.intradayBars) (hb : b ∈ capture'.intradayBars)
    (hkey : minuteScheme.key a = minuteScheme.key b) :
    minuteScheme.fingerprint a = minuteScheme.fingerprint b ↔ a.SameContent b := by
  obtain ⟨record, ha⟩ := mem_intradayBars ha
  obtain ⟨record', hb⟩ := mem_intradayBars hb
  refine minuteBar_sameContent hfree
    (fun record => ⟨(record.ohlc 6).normalized, record.barStart⟩) ?_ ha hb hkey
  intro a b htext
  obtain ⟨-, hstart, hohlc, -⟩ := RestRecord.columns_congr htext
  rw [hstart, hohlc]

theorem indexBars_sameContent (hfree : CollisionFree D) {capture capture' : MarketCapture}
    {a b : MinuteBar D} (ha : a ∈ capture.indexBars) (hb : b ∈ capture'.indexBars)
    (hkey : minuteScheme.key a = minuteScheme.key b) :
    minuteScheme.fingerprint a = minuteScheme.fingerprint b ↔ a.SameContent b := by
  obtain ⟨record, ha⟩ := mem_indexBars ha
  obtain ⟨record', hb⟩ := mem_indexBars hb
  refine minuteBar_sameContent hfree (fun record => ⟨record.ohlc 6, record.barStart⟩) ?_ ha hb
    hkey
  intro a b htext
  obtain ⟨-, hstart, hohlc, -⟩ := RestRecord.columns_congr htext
  rw [hstart, hohlc]

theorem mem_dailySummaries {capture : MarketCapture} {row : DailySummary D}
    (h : row ∈ capture.dailySummaries) :
    ∃ daily master summary : RestRecord, row = dailyCandidate (daily.viewRow (daily.ohlc 0))
      (master.viewRow master.reference) (summary.viewRow summary.summary) := by
  simp only [MarketCapture.dailySummaries, dailyCandidates, List.mem_flatMap, List.mem_map,
    List.mem_filter] at h
  obtain ⟨daily, hdaily, master, ⟨hmaster, -⟩, summary, ⟨hsummary, -⟩, rfl⟩ := h
  obtain ⟨daily, -, rfl⟩ := List.mem_map.mp hdaily
  obtain ⟨master, -, rfl⟩ := List.mem_map.mp hmaster
  obtain ⟨summary, -, rfl⟩ := List.mem_map.mp hsummary
  exact ⟨daily, master, summary, rfl⟩

theorem dailySummaries_sameContent (hfree : CollisionFree D) {capture capture' : MarketCapture}
    {a b : DailySummary D} (ha : a ∈ capture.dailySummaries) (hb : b ∈ capture'.dailySummaries)
    (hkey : dailyScheme.key a = dailyScheme.key b) :
    dailyScheme.fingerprint a = dailyScheme.fingerprint b ↔ a.SameContent b := by
  unfold DailySummary.SameContent
  constructor
  · intro hdigest
    have hsymbol : a.symbol = b.symbol := congrArg Prod.fst hkey
    have hdate : a.tradeDate = b.tradeDate := congrArg Prod.snd hkey
    obtain ⟨daily, master, summary, rfl⟩ := mem_dailySummaries ha
    obtain ⟨daily', master', summary', rfl⟩ := mem_dailySummaries hb
    obtain ⟨hdaily, hmaster, hsummary⟩ : daily.recordSha256 (D := D) = daily'.recordSha256 ∧
        master.recordSha256 (D := D) = master'.recordSha256 ∧
        summary.recordSha256 (D := D) = summary'.recordSha256 := by
      have hdigests := Json.arr_inj.mp (hfree hdigest)
      simp only [List.cons.injEq, Json.sha.injEq, and_true] at hdigests
      exact hdigests
    have hohlc := (RestRecord.columns_congr (recordSha256_inj hfree hdaily)).2.2.1 0
    have hreference := (RestRecord.columns_congr (recordSha256_inj hfree hmaster)).2.2.2.2
    have htraded := (RestRecord.columns_congr (recordSha256_inj hfree hsummary)).2.2.2.1
    simp only [dailyCandidate, RestRecord.viewRow] at hsymbol hdate ⊢
    rw [hsymbol, hdate, hohlc, hreference, htraded, hdaily, hmaster, hsummary]
  · intro hsame
    rw [← hsame]
    rfl

/-! ## The highest revisions -/

/-- The highest revision of every key carries what the last capture that has the key says. -/
structure BarTables.HeadsCarry (tables : BarTables D) (captures : List MarketCapture) : Prop where
  dailySummaries : dailyScheme.HeadsCarry DailySummary.SameContent tables.dailySummaries
    (captures.map (·.dailySummaries))
  intradayBars : minuteScheme.HeadsCarry MinuteBar.SameContent tables.intradayBars
    (captures.map (·.intradayBars))
  indexBars : minuteScheme.HeadsCarry MinuteBar.SameContent tables.indexBars
    (captures.map (·.indexBars))

/-- The revisions of every key are 0, 1, …, n. -/
structure BarTables.Numbered (tables : BarTables D) : Prop where
  dailySummaries : dailyScheme.Numbered tables.dailySummaries
  intradayBars : minuteScheme.Numbered tables.intradayBars
  indexBars : minuteScheme.Numbered tables.indexBars

/-- In one of the tables, a capture brings a key back to content that an earlier capture gave it,
and the last one did not. -/
def MarketCapture.GoesBack (D : Type) [Hashing D] (before : List MarketCapture)
    (capture : MarketCapture) : Prop :=
  (dailyScheme (D := D)).GoesBack (before.map (·.dailySummaries)) capture.dailySummaries ∨
  (minuteScheme (D := D)).GoesBack (before.map (·.intradayBars)) capture.intradayBars ∨
  (minuteScheme (D := D)).GoesBack (before.map (·.indexBars)) capture.indexBars

omit [SparkSql] [Hashing D] in
/-- One table, over the captures of a run. -/
theorem headsCarry_offers_iff {C κ σ : Type} [DecidableEq κ] [DecidableEq σ]
    {s : RevisionScheme C κ σ} {Same : C → C → Prop} {offer : MarketCapture → List C}
    {captures : List MarketCapture} (hone : ∀ capture ∈ captures, s.OnePerKey (offer capture))
    (hsame : ∀ capture capture', ∀ a ∈ offer capture, ∀ b ∈ offer capture', s.key a = s.key b →
      (s.fingerprint a = s.fingerprint b ↔ Same a b)) :
    (∀ before after, captures = before ++ after →
      s.HeadsCarry Same (s.publishAll (before.map offer)) (before.map offer)) ↔
    ∀ before capture after, captures = before ++ capture :: after →
      ¬s.GoesBack (before.map offer) (offer capture) := by
  have hcontent : ∀ before : List MarketCapture,
      s.HeadsCarry Same (s.publishAll (before.map offer)) (before.map offer) ↔
        s.HeadsFollow (before.map offer) := by
    intro before
    refine RevisionScheme.headsCarry_iff ?_
    intro candidates hcandidates a ha others hothers b hb
    obtain ⟨capture, -, rfl⟩ := List.mem_map.mp hcandidates
    obtain ⟨capture', -, rfl⟩ := List.mem_map.mp hothers
    exact hsame capture capture' a ha b hb
  have hoffers : ∀ candidates ∈ captures.map offer, s.OnePerKey candidates := by
    intro candidates hcandidates
    obtain ⟨capture, hcapture, rfl⟩ := List.mem_map.mp hcandidates
    exact hone capture hcapture
  have hiff := RevisionScheme.heads_follow_iff hoffers
  constructor
  · intro hcarry before capture after hsplit
    refine hiff.mp ?_ (before.map offer) (offer capture) (after.map offer) (by simp [hsplit])
    intro earlier rest hearlier
    obtain ⟨before', after', hsplit', rfl, rfl⟩ := List.map_eq_append_iff.mp hearlier
    exact (hcontent before').mp (hcarry before' after' hsplit')
  · intro hnot before after hsplit
    refine (hcontent before).mpr (hiff.mpr ?_ _ (after.map offer) (by simp [hsplit]))
    intro earlier candidates rest hearlier
    obtain ⟨before', after', hsplit', rfl, hrest⟩ := List.map_eq_append_iff.mp hearlier
    obtain ⟨capture, after'', rfl, rfl, rfl⟩ := List.map_eq_cons_iff.mp hrest
    exact hnot before' capture after'' hsplit'

/-- **The revision tables.**  They are numbered without gaps, and the last capture published
again adds no row.  The highest revisions carry the latest content, at every point of a run,
exactly where no capture goes back to earlier content. -/
theorem revision_tables (hfree : CollisionFree D) {captures : List MarketCapture}
    {tables : BarTables D} (h : publishCaptures captures = .ok tables) :
    tables.Numbered ∧
    (∀ before last, captures = before ++ [last] → last.publishBars tables = .ok tables) ∧
    ((∀ before after, captures = before ++ after → ∀ earlier : BarTables D,
        publishCaptures before = .ok earlier → earlier.HeadsCarry before) ↔
      ∀ before capture after, captures = before ++ capture :: after →
        ¬capture.GoesBack D before) := by
  obtain ⟨hvalid, rfl⟩ := publishCaptures_eq_ok.mp h
  have hone := fun capture hcapture => MarketCapture.offers_one (D := D) (hvalid capture hcapture)
  have hdaily := headsCarry_offers_iff (s := dailyScheme)
    (fun capture hcapture => (hone capture hcapture).1)
    (fun _ _ a ha b hb => dailySummaries_sameContent hfree ha hb)
  have hbars := headsCarry_offers_iff (s := minuteScheme)
    (fun capture hcapture => (hone capture hcapture).2.1)
    (fun _ _ a ha b hb => intradayBars_sameContent hfree ha hb)
  have hindex := headsCarry_offers_iff (s := minuteScheme)
    (fun capture hcapture => (hone capture hcapture).2.2)
    (fun _ _ a ha b hb => indexBars_sameContent hfree ha hb)
  refine ⟨⟨?_, ?_, ?_⟩, ?_, ?_⟩
  · apply RevisionScheme.numbered_publishAll
    simpa using fun capture hcapture => (hone capture hcapture).1
  · apply RevisionScheme.numbered_publishAll
    simpa using fun capture hcapture => (hone capture hcapture).2.1
  · apply RevisionScheme.numbered_publishAll
    simpa using fun capture hcapture => (hone capture hcapture).2.2
  · intro before last hsplit
    refine MarketCapture.publishBars_eq_ok.mpr ⟨hvalid last (by simp [hsplit]), ?_⟩
    simp [hsplit, RevisionScheme.publishAll_snoc, RevisionScheme.publishNew_again]
  · constructor
    · intro hcarry before capture after hsplit hback
      have hearlier : ∀ before after, captures = before ++ after →
          BarTables.HeadsCarry (D := D) {
            dailySummaries := dailyScheme.publishAll (before.map (·.dailySummaries))
            intradayBars := minuteScheme.publishAll (before.map (·.intradayBars))
            indexBars := minuteScheme.publishAll (before.map (·.indexBars)) } before := by
        intro before after hsplit
        refine hcarry before after hsplit _ (publishCaptures_eq_ok.mpr ⟨?_, rfl⟩)
        exact fun capture hcapture => hvalid capture (by simp [hsplit, hcapture])
      rcases hback with hback | hback | hback
      · exact hdaily.mp (fun before after hsplit => (hearlier before after hsplit).dailySummaries)
          before capture after hsplit hback
      · exact hbars.mp (fun before after hsplit => (hearlier before after hsplit).intradayBars)
          before capture after hsplit hback
      · exact hindex.mp (fun before after hsplit => (hearlier before after hsplit).indexBars)
          before capture after hsplit hback
    · intro hnot before after hsplit earlier hearlier
      obtain ⟨-, rfl⟩ := publishCaptures_eq_ok.mp hearlier
      constructor
      · exact hdaily.mpr (fun before capture after hsplit hback =>
          hnot before capture after hsplit (.inl hback)) before after hsplit
      · exact hbars.mpr (fun before capture after hsplit hback =>
          hnot before capture after hsplit (.inr (.inl hback))) before after hsplit
      · exact hindex.mpr (fun before capture after hsplit hback =>
          hnot before capture after hsplit (.inr (.inr hback))) before after hsplit

end Facts

/-! One minute of an index that changes and changes back. -/

namespace BackAndForth

/-- The prices and quantities of a security, and the limits of its day. -/
def stock : String :=
  "\x7b\"trading_date\":\"2026/01/05 09:15:00\",\"open_price\":20,\"high_price\":20," ++
  "\"low_price\":20,\"close_price\":20,\"volume\":100,\"value\":2000,\"total_match\":100," ++
  "\"total_match_value\":2000,\"ref_price\":20,\"ceiling\":20,\"floor\":20\x7d"

def indexAt (level : String) : String :=
  "\x7b\"trading_date\":\"2026/01/05 09:15:00\",\"open_price\":" ++ level ++
  ",\"high_price\":" ++ level ++ ",\"low_price\":" ++ level ++ ",\"close_price\":" ++ level ++
  "\x7d"

/-- The members of the texts. -/
def member (json path : String) : Option String :=
  if path = "$.trading_date" then some "2026/01/05 09:15:00"
  else if json = stock then
    if path ∈ ["$.open_price", "$.high_price", "$.low_price", "$.close_price", "$.ref_price",
      "$.ceiling", "$.floor"] then some "20"
    else if path ∈ ["$.volume", "$.total_match"] then some "100"
    else if path ∈ ["$.value", "$.total_match_value"] then some "2000"
    else none
  else if path ∈ ["$.open_price", "$.high_price", "$.low_price", "$.close_price"] then
    if json = indexAt "1200" then some "1200"
    else if json = indexAt "1210" then some "1210" else none
  else none

/-- The numbers that occur. -/
def number (text : String) : Option Int :=
  if text = "20" then some 20 else if text = "100" then some 100
  else if text = "2000" then some 2000 else if text = "1200" then some 1200
  else if text = "1210" then some 1210 else none

/-- Spark on these texts; 2026-01-05 is day 20458. -/
@[reducible] def sparkSql : SparkSql where
  getJsonObject := member
  upper := id
  trim := id
  substr text first count := String.ofList ((text.toList.drop (first - 1)).take count)
  tryCastBigint := number
  tryCastDecimal _ _ text := (number text).map fun value => (value : Rat)
  castDecimal _ _ value := some value
  toDate text := if text = "2026/01/05" then some 20458 else none
  toTimestamp text :=
    if text = "2026/01/05 09:15:00" then some (20458 * dayLength + seconds 33300) else none

/-- A capture at some hour of the evening, with the index at a level. -/
def capture (hour : Int) (level : String) : MarketCapture :=
  let receivedAt := 20458 * dayLength + seconds (hour * 3600)
  { tradeDate := "2026/01/05"
    symbols := ["VIC"]
    indices := ["VNINDEX"]
    capturedIndexBars := ["VNINDEX"]
    records :=
      [⟨"get_ohlc_1day_historical", some "VIC", receivedAt, stock⟩,
       ⟨"get_ohlc_1minute_historical", some "VIC", receivedAt, stock⟩,
       ⟨"get_securities_summary_historical", some "VIC", receivedAt, stock⟩,
       ⟨"get_master_data_historical", some "VIC", receivedAt, stock⟩,
       ⟨"get_ohlc_1minute", some "VNINDEX", receivedAt, indexAt level⟩] }

def captures : List MarketCapture := [capture 10 "1200", capture 11 "1210", capture 12 "1200"]

def publish (captures : List MarketCapture) : Except Raised (BarTables Spelled) :=
  letI := sparkSql
  publishCaptures captures

/-- The minute of the index. -/
def key : Option String × Option Instant :=
  (some "VNINDEX", some (20458 * dayLength + seconds 8100))

end BackAndForth

/-- After 1200, 1210 and 1200 again, the highest revision of the minute is still 1210. -/
theorem revisions_end_behind :
    letI := BackAndForth.sparkSql
    ∃ tables : BarTables Spelled, publishCaptures BackAndForth.captures = .ok tables ∧
      ¬tables.HeadsCarry BackAndForth.captures := by
  let _ := BackAndForth.sparkSql
  have hrun : (BackAndForth.publish BackAndForth.captures).toOption.any (fun tables =>
      (minuteScheme.head tables.indexBars BackAndForth.key).any fun stored =>
        stored.row.values.closePrice = some 1210) = true := by
    decide +kernel
  have hlatest : (minuteScheme.latest
      (BackAndForth.captures.map fun capture => (capture.indexBars : List (MinuteBar Spelled)))
      BackAndForth.key).any (·.values.closePrice = some 1200) = true := by
    decide +kernel
  obtain ⟨tables, htables, hhead⟩ := (Option.any_eq_true _ _).mp hrun
  obtain ⟨stored, hstored, hstale⟩ := (Option.any_eq_true _ _).mp hhead
  obtain ⟨last, hlast, hclose⟩ := (Option.any_eq_true _ _).mp hlatest
  refine ⟨tables, toOption_eq_some.mp htables, ?_⟩
  intro hcarry
  obtain ⟨other, hother, hsame⟩ := hcarry.indexBars _ last hlast
  obtain rfl : stored = other := Option.some_inj.mp (hstored.symm.trans hother)
  have hprice : stored.row.values.closePrice = last.values.closePrice := by
    rw [← hsame]
  rw [of_decide_eq_true hstale, of_decide_eq_true hclose] at hprice
  exact absurd hprice (by decide)

/-- The same run: its revisions are numbered, and publishing the last capture again adds none. -/
theorem revision_tables_backAndForth :
    letI := BackAndForth.sparkSql
    ∃ tables : BarTables Spelled, publishCaptures BackAndForth.captures = .ok tables ∧
      tables.Numbered ∧ (BackAndForth.capture 12 "1200").publishBars tables = .ok tables := by
  let _ := BackAndForth.sparkSql
  have hrun : (BackAndForth.publish BackAndForth.captures).toOption.isSome = true := by
    decide +kernel
  obtain ⟨tables, htables⟩ := Option.isSome_iff_exists.mp hrun
  have hpublished := toOption_eq_some.mp htables
  obtain ⟨hnumbered, hagain, -⟩ := revision_tables collisionFree_spelled hpublished
  exact ⟨tables, hpublished, hnumbered,
    hagain [BackAndForth.capture 10 "1200", BackAndForth.capture 11 "1210"] _ rfl⟩

end MiniLakehouse
