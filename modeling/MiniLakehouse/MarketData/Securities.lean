import MiniLakehouse.Library.Versions
import MiniLakehouse.MarketData.Records

/-!
# Effective-dated securities

`_publish_securities` (`market_data/rest_curated.py`) merges the latest record of
each symbol in a capture into the versions of the `securities` table: a first
statement closes the open version that the record supersedes, a second one
inserts the new version, or replaces the one that starts on the same day.

Both statements read the changes anew.
-/

namespace MiniLakehouse

variable {D : Type}

/-- The attributes that tell versions apart. -/
structure SecurityAttributes where
  exchange : String
  board : Option String
  securityName : Option String
  securityNameEn : Option String
  boardLot : Option Int
  listedShares : Option Int
  icbCode : Option String
  firstTradingDate : Option Day
  lastTradingDate : Option Day
  isActive : Bool
  deriving DecidableEq

/-- A row of `securities`. -/
structure SecurityVersion (D : Type) extends SecurityAttributes where
  symbol : String
  effectiveFrom : Day
  effectiveTo : Option Day
  availableAt : Instant
  processedAt : Instant
  sourceRecordSha256 : D
  deriving DecidableEq

/-- The days of a version, both inclusive. -/
def securityDating : Dating (SecurityVersion D) String where
  key := (·.symbol)
  start := (·.effectiveFrom)
  stop := (·.effectiveTo)

namespace SecurityVersion

/-- The open version of a symbol. -/
def isOpen (row : SecurityVersion D) : Bool := row.effectiveTo = none

/-- `effective_to = date_sub(source.effective_from, 1)` -/
def close (row : SecurityVersion D) (source : SecurityVersion D) : SecurityVersion D :=
  { row with effectiveTo := some (source.effectiveFrom - 1) }

end SecurityVersion

section

variable [Hashing D] [SparkSql]

/-- A row of `ssi_security_candidates`, absent where a required field is `NULL`. -/
def securityCandidate (processedAt : Instant) (record : RestRecord) :
    Option (SecurityVersion D) :=
  match record.symbol, (record.field "board").map SparkSql.upper with
  | some symbol, some exchange =>
      some {
        exchange := exchange
        board := some exchange
        securityName := record.textField "symbol_name_vi"
        securityNameEn := record.textField "symbol_name_en"
        boardLot := record.bigintField "lot_size"
        listedShares := record.bigintField "listed_shares"
        icbCode := record.textField "icb_code"
        firstTradingDate := record.dateField "first_trading_date"
        lastTradingDate := record.dateField "last_trading_date"
        isActive := (record.dateField "last_trading_date").all (record.receivedDate ≤ ·)
        symbol := symbol
        effectiveFrom := record.receivedDate
        effectiveTo := none
        availableAt := record.receivedAt
        processedAt := processedAt
        sourceRecordSha256 := record.recordSha256 }
  | _, _ => none

/-- The latest record of each symbol. -/
def latestSecurities (D : Type) [Hashing D] (records : List RestRecord) : List RestRecord :=
  firstInGroup (·.symbol)
    (fun record => (toLex (record.receivedAt, record.recordSha256) : Instant ×ₗ D))
    (records.filter (·.endpoint = "get_securities_info"))

/-- `ssi_security_candidates`, with its check. -/
def securityCandidates (processedAt : Instant) (records : List RestRecord) :
    Except Raised (List (SecurityVersion D)) :=
  (latestSecurities D records).mapM fun record =>
    (securityCandidate processedAt record).elim
      (.error (.runtimeError "SSI security normalization produced invalid required fields")) .ok

end

/-- The rows of `ssi_security_changes` that one candidate comes to: one for each open version of
its symbol that differs, or one where there is none at all. -/
def candidateChanges (target : List (SecurityVersion D)) (candidate : SecurityVersion D) :
    List (SecurityVersion D) :=
  match target.filter fun current => current.symbol = candidate.symbol && current.isOpen with
  | [] => [candidate]
  | open' => (open'.filter fun current =>
      current.toSecurityAttributes ≠ candidate.toSecurityAttributes).map fun _ => candidate

/-- `ssi_security_changes` -/
def securityChanges (target candidates : List (SecurityVersion D)) :
    List (SecurityVersion D) :=
  candidates.flatMap (candidateChanges target)

/-- The `ON` of the first statement. -/
def closesVersion (target source : SecurityVersion D) : Bool :=
  target.symbol = source.symbol && target.isOpen && target.effectiveFrom < source.effectiveFrom

/-- The `ON` of the second statement. -/
def sameVersion (target source : SecurityVersion D) : Bool :=
  target.symbol = source.symbol && target.effectiveFrom = source.effectiveFrom

/-- `WHEN MATCHED AND source.available_at > target.available_at THEN UPDATE SET …` -/
def reviseVersion (target source : SecurityVersion D) : SecurityVersion D :=
  if target.availableAt < source.availableAt then source else target

/-- What `MERGE` raises where several source rows match. -/
def mergeCardinality : Raised :=
  .runtimeError "MERGE statement matched a single row from the target table with multiple rows"

/-- Both statements. -/
def mergeSecurities (target candidates : List (SecurityVersion D)) :
    Except Raised (List (SecurityVersion D)) := do
  let closed ← merge mergeCardinality closesVersion SecurityVersion.close (fun _ => none) target
    (securityChanges target candidates)
  merge mergeCardinality sameVersion reviseVersion some closed (securityChanges closed candidates)

/-- `_publish_securities` of the records of a capture. -/
def publishSecurities [Hashing D] [SparkSql] (processedAt : Instant)
    (records : List RestRecord) (target : List (SecurityVersion D)) :
    Except Raised (List (SecurityVersion D)) := do
  let candidates ← securityCandidates processedAt records
  mergeSecurities target candidates

end MiniLakehouse
