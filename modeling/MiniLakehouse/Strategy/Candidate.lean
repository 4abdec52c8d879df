import MiniLakehouse.Identity
import MiniLakehouse.Raised
import MiniLakehouse.Library.Time
import MiniLakehouse.Library.Validation

/-!
# Baseline candidates

The immutable records of `strategy/baselines.py`: the evidence of one group and
the candidate, or abstention, of one strategy on one decision clock.  The
scoring that produces them is in `Strategy/Baselines.lean`.
-/

namespace MiniLakehouse

inductive MarketRegime where
  | trendUp
  | trendDown
  | range
  | highVolatility
  | highDispersion
  | unknown
  deriving DecidableEq, Repr

inductive ContextDataMode where
  | live
  | historicalProxy
  deriving DecidableEq, Repr

inductive BaselineName where
  | meanReversion
  | momentumPullback
  | vicVhmRelative
  deriving DecidableEq, Repr

/-- `BASELINE_NAMES` -/
def baselineNames : List BaselineName :=
  [.meanReversion, .momentumPullback, .vicVhmRelative]

/-- `BASELINE_VERSION` -/
def baselineVersion : String := "buy-first-baselines-v3"

/-- `RELATIVE_PEER_LAG` -/
def relativePeerLag : Int := seconds 30

/-- The strategy's name as configuration and hashes spell it. -/
def BaselineName.text : BaselineName → String
  | .meanReversion => "mean_reversion"
  | .momentumPullback => "momentum_pullback"
  | .vicVhmRelative => "vic_vhm_relative"

/-- `BASELINE_GROUP_NAMES` -/
def baselineGroupNames : BaselineName → String × String × String
  | .meanReversion => ("price_stretch", "zone", "reversal_confirmation")
  | .momentumPullback =>
      ("trend_strength", "pullback_quality", "reacceleration_confirmation")
  | .vicVhmRelative =>
      ("relative_divergence", "lagged_peer_confirmation", "market_confirmation")

inductive GroupStatus where
  | unavailable
  | fail
  | «match»
  deriving DecidableEq, Repr

/-- A group is unavailable, failed, or matched. -/
structure GroupEvidence where
  name : String
  strength : Option Rat
  strength_bounds : ∀ value ∈ strength, 0 ≤ value ∧ value ≤ 1
  deriving DecidableEq

def GroupEvidence.status (group : GroupEvidence) : GroupStatus :=
  match group.strength with
  | none => .unavailable
  | some value => if 0 < value then .match else .fail

structure BaselineCandidateFields (D : Type) where
  strategy : BaselineName
  symbol : String
  tradeDate : Day
  decisionAt : Instant
  featureSnapshotSha256 : D
  peerFeatureSnapshotSha256 : Option D
  contextSnapshotSha256 : Option D
  contextVersion : Option String
  contextConfigurationSha256 : Option D
  contextDataMode : Option ContextDataMode
  marketRegime : MarketRegime
  groups : GroupEvidence × GroupEvidence × GroupEvidence
  strength : Rat
  blockReasons : List String
  deriving DecidableEq

namespace BaselineCandidateFields

variable {D : Type}

def groupList (fields : BaselineCandidateFields D) : List GroupEvidence :=
  [fields.groups.1, fields.groups.2.1, fields.groups.2.2]

/-- `value == value.strip().upper()`, the empty text included. -/
private def isUppercase (value : String) : Bool :=
  value.isEmpty || isUpperIdentifier value

/-- `BaselineCandidate.validate_candidate` with the field constraints. -/
def checks (fields : BaselineCandidateFields D) : List (Check Raised) :=
  let status := fields.groupList.map GroupEvidence.status
  let lineage := [fields.contextSnapshotSha256.isSome, fields.contextVersion.isSome,
    fields.contextConfigurationSha256.isSome, fields.contextDataMode.isSome]
  [⟨fields.contextVersion.all isVersionName, .fieldError "context_version"⟩,
    ⟨0 ≤ fields.strength && fields.strength ≤ 1, .fieldError "strength"⟩,
    ⟨(fields.groups.1.name, fields.groups.2.1.name, fields.groups.2.2.name) ==
      baselineGroupNames fields.strategy,
      .valueError "baseline group contract is inconsistent"⟩,
    ⟨isUppercase fields.symbol, .valueError "baseline symbol must be uppercase"⟩,
    ⟨fields.strategy == .vicVhmRelative || fields.peerFeatureSnapshotSha256.isNone,
      .valueError "only relative baselines may carry peer lineage"⟩,
    ⟨fields.strategy != .vicVhmRelative || fields.peerFeatureSnapshotSha256.isSome ||
      fields.blockReasons != [],
      .valueError "active relative baseline requires peer lineage"⟩,
    ⟨fields.contextSnapshotSha256.isSome || fields.marketRegime == .unknown,
      .valueError "classified market regime requires context lineage"⟩,
    ⟨lineage.all id || !lineage.any id,
      .valueError "context lineage must be wholly present or absent"⟩,
    ⟨fields.blockReasons.Nodup, .valueError "baseline block reasons must be unique"⟩,
    ⟨fields.blockReasons != [] || fields.strategy == .momentumPullback ||
      status.all (· == .match),
      .valueError "context-dependent candidate must match every group"⟩,
    ⟨fields.blockReasons != [] || (fields.groups.1.status == .match &&
      status.tail.any (· == .match) && fields.strength != 0),
      .valueError "candidate must match its required and confirming groups"⟩,
    ⟨fields.blockReasons == [] || fields.strength == 0,
      .valueError "blocked baseline cannot carry actionable strength"⟩]

private def modeText : ContextDataMode → String
  | .live => "LIVE"
  | .historicalProxy => "HISTORICAL_PROXY"

private def regimeText : MarketRegime → String
  | .trendUp => "TREND_UP"
  | .trendDown => "TREND_DOWN"
  | .range => "RANGE"
  | .highVolatility => "HIGH_VOLATILITY"
  | .highDispersion => "HIGH_DISPERSION"
  | .unknown => "UNKNOWN"

private def groupDump (group : GroupEvidence) : Json D :=
  .arr [.str group.name, .opt .num group.strength]

def modelDump (fields : BaselineCandidateFields D) : Json D :=
  .arr [.str fields.strategy.text, .str fields.symbol, .int fields.tradeDate,
    .int fields.decisionAt, .sha fields.featureSnapshotSha256,
    .opt .sha fields.peerFeatureSnapshotSha256, .opt .sha fields.contextSnapshotSha256,
    .opt .str fields.contextVersion, .opt .sha fields.contextConfigurationSha256,
    .opt (fun mode => .str (modeText mode)) fields.contextDataMode,
    .str (regimeText fields.marketRegime), .list groupDump fields.groupList,
    .num fields.strength, .list .str fields.blockReasons]

end BaselineCandidateFields

/-- Research-only BUY candidate; neither a signal nor an order intent. -/
structure BaselineCandidate (D : Type) extends BaselineCandidateFields D where
  valid : AllHold toBaselineCandidateFields.checks
  deriving DecidableEq

namespace BaselineCandidate

variable {D : Type}

/-- A candidate's symbol is uppercase, or empty. -/
theorem symbol_upper (candidate : BaselineCandidate D) :
    candidate.symbol = "" ∨ isUpperIdentifier candidate.symbol := by
  have hsymbol := candidate.valid
  simp only [BaselineCandidateFields.checks, allHold_cons] at hsymbol
  have hupper := hsymbol.2.2.2.1
  simpa [BaselineCandidateFields.isUppercase] using hupper

theorem strength_bounds (candidate : BaselineCandidate D) :
    0 ≤ candidate.strength ∧ candidate.strength ≤ 1 := by
  have hstrength := candidate.valid
  simp only [BaselineCandidateFields.checks, allHold_cons] at hstrength
  simpa using hstrength.2.1

def modelValidate (fields : BaselineCandidateFields D) :
    Except Raised (BaselineCandidate D) :=
  validated fields.checks fun valid => ⟨fields, valid⟩

def isCandidate (candidate : BaselineCandidate D) : Bool := candidate.blockReasons == []

def sha256 [Hashing D] (candidate : BaselineCandidate D) : D :=
  Hashing.sha256 candidate.modelDump

end BaselineCandidate

end MiniLakehouse
