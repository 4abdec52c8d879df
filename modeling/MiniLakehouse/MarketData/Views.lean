import MiniLakehouse.MarketData.Records

/-!
# Market views of a capture

The views that `_market_views` (`market_data/rest_curated.py`) reads out of a
capture's records for one trade date, written `yyyy/MM/dd` as the records write
it, and the checks of `_validate_market_data` and `_validate_index_bars` on them.
A comparison with `NULL` is not true, so a check that only compares lets it pass.
-/

namespace MiniLakehouse

/-- A row of a view: what it is about, its values, and the record they were read from. -/
structure ViewRow (V : Type) where
  symbol : Option String
  tradeDate : Option Day
  values : V
  record : RestRecord
  deriving DecidableEq

structure Ohlc where
  openPrice : Option Rat
  highPrice : Option Rat
  lowPrice : Option Rat
  closePrice : Option Rat
  volume : Option Int
  value : Option Rat
  deriving DecidableEq

structure MinuteOhlc extends Ohlc where
  barStart : Option Instant
  deriving DecidableEq

/-- What a day's trading came to. -/
structure Turnover where
  matchedVolume : Option Int
  matchedValue : Option Rat
  dealVolume : Option Int
  dealValue : Option Rat
  foreignBuyVolume : Option Int
  foreignSellVolume : Option Int
  foreignBuyValue : Option Rat
  foreignSellValue : Option Rat
  remainingForeignRoom : Option Int
  totalForeignRoom : Option Int
  openInterest : Option Rat
  settlementPrice : Option Rat
  deriving DecidableEq

structure SecuritySummary extends Turnover where
  openPrice : Option Rat
  highPrice : Option Rat
  lowPrice : Option Rat
  closePrice : Option Rat
  deriving DecidableEq

structure MasterData where
  referencePrice : Option Rat
  ceilingPrice : Option Rat
  floorPrice : Option Rat
  deriving DecidableEq

section Views

variable [SparkSql]

namespace RestRecord

variable (record : RestRecord)

/-- `substr(get_json_object(record_json, '$.trading_date'), 1, 10)` -/
def tradingDay : Option String :=
  (record.field "trading_date").map fun text => SparkSql.substr text 1 10

/-- `to_utc_timestamp(to_timestamp(…), 'Asia/Ho_Chi_Minh')` -/
def barStart : Option Instant :=
  ((record.field "trading_date").bind SparkSql.toTimestamp).map (marketTimezone.combine 0)

/-- The prices of a bar to a scale, and its quantities. -/
def ohlc (scale : Nat) : Ohlc where
  openPrice := record.decimalField 18 scale "open_price"
  highPrice := record.decimalField 18 scale "high_price"
  lowPrice := record.decimalField 18 scale "low_price"
  closePrice := record.decimalField 18 scale "close_price"
  volume := record.bigintField "volume"
  value := record.decimalField 24 0 "value"

/-- The columns of a security summary. -/
def summary : SecuritySummary where
  openPrice := record.decimalField 18 0 "open_price"
  highPrice := record.decimalField 18 0 "high_price"
  lowPrice := record.decimalField 18 0 "low_price"
  closePrice := record.decimalField 18 0 "close_price"
  matchedVolume := record.bigintField "total_match"
  matchedValue := record.decimalField 24 0 "total_match_value"
  dealVolume := record.bigintField "total_deal"
  dealValue := record.decimalField 24 0 "total_deal_value"
  foreignBuyVolume := record.bigintField "total_foreign_buy"
  foreignSellVolume := record.bigintField "total_foreign_sell"
  foreignBuyValue := record.decimalField 24 0 "total_foreign_buy_value"
  foreignSellValue := record.decimalField 24 0 "total_foreign_sell_value"
  remainingForeignRoom := record.bigintField "remain_foreign_room"
  totalForeignRoom := record.bigintField "total_foreign_room"
  openInterest := record.decimalField 24 0 "open_interest"
  settlementPrice := record.decimalField 18 0 "settlement_price"

/-- The columns of master data. -/
def reference : MasterData where
  referencePrice := record.decimalField 18 0 "ref_price"
  ceilingPrice := record.decimalField 18 0 "ceiling"
  floorPrice := record.decimalField 18 0 "floor"

/-- A row of the record's symbol and date. -/
def viewRow {V : Type} (values : V) : ViewRow V where
  symbol := record.symbol
  tradeDate := record.tradingDay.bind SparkSql.toDate
  values := values
  record := record

end RestRecord

/-- The records of an endpoint about the trade date. -/
def recordsAbout (endpoint tradeDate : String) (records : List RestRecord) : List RestRecord :=
  records.filter fun record =>
    record.endpoint = endpoint && record.tradingDay = some tradeDate

/-- `ssi_daily_ohlc` -/
def dailyOhlc (tradeDate : String) (records : List RestRecord) : List (ViewRow Ohlc) :=
  (recordsAbout "get_ohlc_1day_historical" tradeDate records).map fun record =>
    record.viewRow (record.ohlc 0)

/-- `nullif(…, 0)` -/
def nullifZero (value : Option Rat) : Option Rat := value.filter (· ≠ 0)

/-- Nothing was traded: a placeholder. -/
def Ohlc.isPlaceholder (ohlc : Ohlc) : Bool :=
  ohlc.openPrice.getD 0 = 0 && ohlc.highPrice.getD 0 = 0 && ohlc.lowPrice.getD 0 = 0 &&
    ohlc.closePrice.getD 0 = 0 && ohlc.volume.getD 0 = 0 && ohlc.value.getD 0 = 0

/-- The zero prices of an auction bar are its close; prices are cast to whole VND. -/
def Ohlc.normalized (ohlc : Ohlc) : Ohlc where
  openPrice := ((nullifZero ohlc.openPrice).or (nullifZero ohlc.closePrice)).bind
    (SparkSql.castDecimal 18 0)
  highPrice := ((nullifZero ohlc.highPrice).or (nullifZero ohlc.closePrice)).bind
    (SparkSql.castDecimal 18 0)
  lowPrice := ((nullifZero ohlc.lowPrice).or (nullifZero ohlc.closePrice)).bind
    (SparkSql.castDecimal 18 0)
  closePrice := (nullifZero ohlc.closePrice).bind (SparkSql.castDecimal 18 0)
  volume := ohlc.volume
  value := ohlc.value

/-- `ssi_minute_ohlc`: the traded minutes of the symbols in scope. -/
def minuteOhlc (tradeDate : String) (symbols : List String) (records : List RestRecord) :
    List (ViewRow MinuteOhlc) :=
  let traded := (recordsAbout "get_ohlc_1minute_historical" tradeDate records).filter fun record =>
    !(record.ohlc 6).isPlaceholder
  traded.flatMap fun record =>
    (symbols.filter (record.symbol = some ·)).map fun _ =>
      record.viewRow ⟨(record.ohlc 6).normalized, record.barStart⟩

/-- `ssi_index_minute_ohlc`: the minutes of the indices in scope. -/
def indexMinuteOhlc (tradeDate : String) (indices : List String) (records : List RestRecord) :
    List (ViewRow MinuteOhlc) :=
  (recordsAbout "get_ohlc_1minute" tradeDate records).flatMap fun record =>
    (indices.filter (record.symbol = some ·)).map fun _ =>
      record.viewRow ⟨record.ohlc 6, record.barStart⟩

/-- `ssi_security_summary` -/
def securitySummary (tradeDate : String) (records : List RestRecord) :
    List (ViewRow SecuritySummary) :=
  (recordsAbout "get_securities_summary_historical" tradeDate records).map fun record =>
    record.viewRow record.summary

/-- `ssi_master_data` -/
def masterData (tradeDate : String) (records : List RestRecord) : List (ViewRow MasterData) :=
  (recordsAbout "get_master_data_historical" tradeDate records).map fun record =>
    record.viewRow record.reference

end Views

/-! ## Checks -/

/-- `count(DISTINCT symbol)` -/
def distinctSymbols {V : Type} (rows : List (ViewRow V)) : Nat :=
  (rows.filterMap (·.symbol)).dedup.length

/-- One row for each of `count` symbols. -/
def CoversSymbols {V : Type} (count : Nat) (rows : List (ViewRow V)) : Prop :=
  rows.length = count ∧ distinctSymbols rows = count

/-- No symbol has two rows for one bar. -/
def OneRowPerBar (rows : List (ViewRow MinuteOhlc)) : Prop :=
  (rows.map fun row => (row.symbol, row.values.barStart)).Nodup

/-- The prices are present, positive and ordered. -/
def Ohlc.ordered (ohlc : Ohlc) : Bool :=
  match ohlc.openPrice, ohlc.highPrice, ohlc.lowPrice, ohlc.closePrice with
  | some open', some high, some low, some close =>
      0 < open' && 0 < high && 0 < low && 0 < close &&
        max open' (max low close) ≤ high && low ≤ min open' (min high close)
  | _, _, _, _ => false

/-- A bar of a security: its identity and quantities are there as well. -/
def validBar (symbol : Option String) (tradeDate : Option Day) (ohlc : Ohlc) : Bool :=
  symbol.isSome && tradeDate.isSome && ohlc.ordered && ohlc.volume.any (0 ≤ ·) &&
    !ohlc.value.any (· < 0)

/-- A row of master data. -/
def validReference (row : ViewRow MasterData) : Bool :=
  row.symbol.isSome && row.tradeDate.isSome &&
    match row.values.referencePrice, row.values.ceilingPrice, row.values.floorPrice with
    | some reference, some ceiling, some floor =>
        0 < reference && reference ≤ ceiling && floor ≤ reference && 0 < floor
    | _, _, _ => false

/-- A row of the security summary. -/
def validSummary (row : ViewRow SecuritySummary) : Bool :=
  let values := row.values
  row.symbol.isSome && row.tradeDate.isSome && values.openPrice.isSome &&
    values.highPrice.isSome && values.lowPrice.isSome && values.closePrice.isSome &&
    values.matchedVolume.any (0 ≤ ·) && values.matchedValue.any (0 ≤ ·) &&
    [values.dealVolume, values.foreignBuyVolume, values.foreignSellVolume,
      values.remainingForeignRoom, values.totalForeignRoom].all (!·.any (· < 0)) &&
    [values.dealValue, values.foreignBuyValue, values.foreignSellValue, values.openInterest,
      values.settlementPrice].all (!·.any (· < 0))

/-- Two values that are both there and differ. -/
def differ {α : Type} [DecidableEq α] (a b : Option α) : Bool :=
  a.any fun a => b.any fun b => a ≠ b

/-- `JOIN … USING (symbol, trade_date)` -/
def joins {V W : Type} (left : ViewRow V) (right : ViewRow W) : Bool :=
  left.symbol.isSome && left.symbol = right.symbol && left.tradeDate.isSome &&
    left.tradeDate = right.tradeDate

/-- A daily bar and the summary of its symbol and date disagree. -/
def summaryDiffers (daily : ViewRow Ohlc) (summary : ViewRow SecuritySummary) : Bool :=
  joins daily summary &&
    (differ daily.values.openPrice summary.values.openPrice ||
      differ daily.values.highPrice summary.values.highPrice ||
      differ daily.values.lowPrice summary.values.lowPrice ||
      differ daily.values.closePrice summary.values.closePrice ||
      differ daily.values.volume summary.values.matchedVolume)

/-- The row that a comparison of bar starts prefers: `min_by` and `max_by`. -/
def preferredMinute (prefers : Instant → Instant → Bool) (minutes : List (ViewRow MinuteOhlc)) :
    Option (ViewRow MinuteOhlc) :=
  minutes.foldl (fun best row =>
    match best.bind (·.values.barStart), row.values.barStart with
    | some bestStart, some start => if prefers start bestStart then some row else best
    | none, some _ => some row
    | _, none => best) none

/-- The minutes of a symbol as one bar: `min_by`, `max`, `min`, `max_by` and `sum`. -/
def dayOfMinutes (minutes : List (ViewRow MinuteOhlc)) : Ohlc where
  openPrice := (preferredMinute (· < ·) minutes).bind (·.values.openPrice)
  highPrice := (minutes.filterMap (·.values.highPrice)).max?
  lowPrice := (minutes.filterMap (·.values.lowPrice)).min?
  closePrice := (preferredMinute (· > ·) minutes).bind (·.values.closePrice)
  volume := some (minutes.filterMap (·.values.volume)).sum
  value := none

/-- A daily bar and the minutes of its symbol disagree. -/
def minutesDiffer (daily : ViewRow Ohlc) (minutes : List (ViewRow MinuteOhlc)) : Bool :=
  let own := minutes.filter fun row => row.symbol.isSome && row.symbol = daily.symbol
  let day := dayOfMinutes own
  own ≠ [] && (differ daily.values.openPrice day.openPrice ||
    differ daily.values.highPrice day.highPrice || differ daily.values.lowPrice day.lowPrice ||
    differ daily.values.closePrice day.closePrice || differ daily.values.volume day.volume)

instance {V : Type} (count : Nat) (rows : List (ViewRow V)) : Decidable (CoversSymbols count rows) := by
  unfold CoversSymbols; infer_instance

instance (rows : List (ViewRow MinuteOhlc)) : Decidable (OneRowPerBar rows) := by
  unfold OneRowPerBar; infer_instance

/-- `_validate_market_data` -/
def validateMarketData (count : Nat) (daily : List (ViewRow Ohlc))
    (minutes : List (ViewRow MinuteOhlc)) (summary : List (ViewRow SecuritySummary))
    (master : List (ViewRow MasterData)) : Except Raised Unit := do
  require (CoversSymbols count daily ∧ CoversSymbols count master ∧ CoversSymbols count summary ∧
      distinctSymbols minutes = count ∧ OneRowPerBar minutes)
    (.runtimeError "SSI completed-day records are missing or duplicated")
  require ((∀ row ∈ daily, validBar row.symbol row.tradeDate row.values = true) ∧
      ∀ row ∈ minutes, validBar row.symbol row.tradeDate row.values.toOhlc = true ∧
        row.values.barStart.isSome)
    (.runtimeError "SSI OHLC normalization produced invalid values")
  require (∀ row ∈ master, validReference row = true)
    (.runtimeError "SSI reference-price normalization produced invalid values")
  require (∀ row ∈ summary, validSummary row = true)
    (.runtimeError "SSI security-summary normalization produced invalid values")
  require (∀ row ∈ daily, ∀ other ∈ summary, summaryDiffers row other = false)
    (.runtimeError "SSI daily OHLC and security-summary records do not reconcile")
  require (∀ row ∈ daily, minutesDiffer row minutes = false)
    (.runtimeError "SSI daily and one-minute OHLC records do not reconcile")

/-- `_validate_index_bars`, where `expected` indices were captured. -/
def validateIndexBars (expected : Nat) (rows : List (ViewRow MinuteOhlc)) : Except Raised Unit :=
  require ((∀ row ∈ rows, row.symbol.isSome ∧ row.tradeDate.isSome ∧ row.values.barStart.isSome ∧
      row.values.toOhlc.ordered = true ∧ row.values.volume.any (· < 0) = false ∧
      row.values.value.any (· < 0) = false) ∧
      distinctSymbols rows = expected ∧ OneRowPerBar rows)
    (.runtimeError "SSI same-day index OHLC normalization produced invalid values")

end MiniLakehouse
