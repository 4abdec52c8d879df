import MiniLakehouse.Controls.Model
import MiniLakehouse.Identity
import MiniLakehouse.Library.Checked
import MiniLakehouse.Library.Sql
import MiniLakehouse.Raised

/-!
# Landed REST records

The rows of the landing table that one capture's requests select
(`ssi_capture_records` of `market_data/rest_curated.py`), and the functions of
Spark SQL that the normalizing views apply to their texts.
-/

namespace MiniLakehouse

/-- Functions of Spark SQL on texts; `none` is `NULL`.  A decimal is cast to a precision and
a scale, dates are `yyyy/MM/dd` and timestamps `yyyy/MM/dd HH:mm:ss` wall-clock readings. -/
class SparkSql where
  getJsonObject : String → String → Option String
  upper : String → String
  trim : String → String
  substr : String → Nat → Nat → String
  tryCastBigint : String → Option Int
  tryCastDecimal : Nat → Nat → String → Option Rat
  castDecimal : Nat → Nat → Rat → Option Rat
  toDate : String → Option Day
  toTimestamp : String → Option Int

/-- A landed record.  Landing refuses a record whose digest is not that of its text. -/
structure RestRecord where
  endpoint : String
  symbol : Option String
  receivedAt : Instant
  recordJson : String
  deriving DecidableEq

namespace RestRecord

/-- `record_sha256` -/
def recordSha256 {D : Type} [Hashing D] (record : RestRecord) : D :=
  sha256 (.str record.recordJson)

/-- `to_date(from_utc_timestamp(received_at, 'Asia/Ho_Chi_Minh'))` -/
def receivedDate (record : RestRecord) : Day := marketTimezone.date record.receivedAt

variable [SparkSql] (record : RestRecord)

/-- `get_json_object(record_json, '$.name')` -/
def field (name : String) : Option String :=
  SparkSql.getJsonObject record.recordJson ("$." ++ name)

/-- `nullif(trim(get_json_object(…)), '')` -/
def textField (name : String) : Option String :=
  ((record.field name).map SparkSql.trim).filter (· ≠ "")

/-- `try_cast(get_json_object(…) AS bigint)` -/
def bigintField (name : String) : Option Int :=
  (record.field name).bind SparkSql.tryCastBigint

/-- `try_cast(get_json_object(…) AS decimal(precision, scale))` -/
def decimalField (precision scale : Nat) (name : String) : Option Rat :=
  (record.field name).bind (SparkSql.tryCastDecimal precision scale)

/-- `to_date(get_json_object(…), 'yyyy/MM/dd')` -/
def dateField (name : String) : Option Day :=
  (record.field name).bind SparkSql.toDate

end RestRecord

/-- A later receipt is not on an earlier local date. -/
theorem marketDate_mono {a b : Instant} (h : a ≤ b) :
    marketTimezone.date a ≤ marketTimezone.date b := by
  have hoffset : ∀ i : Instant, marketTimezone.date i = (i + seconds 25200) / dayLength :=
    fun _ => rfl
  rw [hoffset, hoffset]
  exact Int.ediv_le_ediv (by decide) (Int.add_le_add_right h _)

end MiniLakehouse
