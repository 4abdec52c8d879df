import MiniLakehouse.Strategy.Candidate
import MiniLakehouse.Library.Checked

/-!
# Candidate arbitration

One policy decision for one immutable candidate (`arbitration/model.py`).
-/

namespace MiniLakehouse

inductive ArbitrationStatus where
  | selected
  | rejected
  deriving DecidableEq, Repr

inductive RejectionReason where
  | upstreamBlocked
  | belowMinimumStrength
  | lowerStrategyPriority
  | symbolCooldown
  | clockCapacity
  deriving DecidableEq, Repr

namespace RejectionReason

def text : RejectionReason → String
  | .upstreamBlocked => "UPSTREAM_BLOCKED"
  | .belowMinimumStrength => "BELOW_MINIMUM_STRENGTH"
  | .lowerStrategyPriority => "LOWER_STRATEGY_PRIORITY"
  | .symbolCooldown => "SYMBOL_COOLDOWN"
  | .clockCapacity => "CLOCK_CAPACITY"

/-- A conflict rejection names the selected candidate it lost to. -/
def isConflict : RejectionReason → Bool
  | .lowerStrategyPriority | .symbolCooldown => true
  | .upstreamBlocked | .belowMinimumStrength | .clockCapacity => false

end RejectionReason

structure CandidateArbitrationFields (D : Type) where
  arbitrationVersion : String
  arbitrationConfigurationSha256 : D
  candidateVersion : String
  candidateSha256 : D
  strategy : String
  symbol : String
  tradeDate : Day
  decisionAt : Instant
  horizonSeconds : Nat
  strength : Rat
  status : ArbitrationStatus
  rejectionReason : Option RejectionReason
  priority : Option Nat
  selectedCandidateSha256 : Option D
  deriving DecidableEq

namespace CandidateArbitrationFields

variable {D : Type}

/-- `CandidateArbitration.validate_result` with the field constraints. -/
def checks [Hashing D] (fields : CandidateArbitrationFields D) : List (Check Raised) :=
  [⟨isVersionName fields.arbitrationVersion, .fieldError "arbitration_version"⟩,
    ⟨isVersionName fields.candidateVersion, .fieldError "candidate_version"⟩,
    ⟨isStrategyName fields.strategy, .fieldError "strategy"⟩,
    ⟨isUpperIdentifier fields.symbol, .valueError "arbitration symbol must be uppercase"⟩,
    ⟨1 ≤ fields.horizonSeconds && fields.horizonSeconds ≤ 86400,
      .fieldError "horizon_seconds"⟩,
    ⟨0 ≤ fields.strength && fields.strength ≤ 1, .fieldError "strength"⟩,
    ⟨fields.status != .selected || (fields.rejectionReason.isNone && fields.priority.isSome &&
      fields.selectedCandidateSha256 == some fields.candidateSha256),
      .valueError "selected arbitration result is inconsistent"⟩,
    ⟨fields.status == .selected || (fields.rejectionReason.isSome && fields.priority.isNone),
      .valueError "rejected arbitration result is inconsistent"⟩,
    ⟨!fields.rejectionReason.any (·.isConflict) || fields.selectedCandidateSha256.isSome,
      .valueError "conflict rejection requires selected-candidate lineage"⟩,
    ⟨!fields.rejectionReason.any (!·.isConflict) || fields.selectedCandidateSha256.isNone,
      .valueError "non-conflict rejection cannot reference a selected candidate"⟩]

private def statusText : ArbitrationStatus → String
  | .selected => "SELECTED"
  | .rejected => "REJECTED"

def modelDump (fields : CandidateArbitrationFields D) : Json D :=
  .arr [.str fields.arbitrationVersion, .sha fields.arbitrationConfigurationSha256,
    .str fields.candidateVersion, .sha fields.candidateSha256, .str fields.strategy,
    .str fields.symbol, .int fields.tradeDate, .int fields.decisionAt,
    .nat fields.horizonSeconds, .num fields.strength, .str (statusText fields.status),
    .opt (fun reason => .str reason.text) fields.rejectionReason, .opt .nat fields.priority,
    .opt .sha fields.selectedCandidateSha256]

end CandidateArbitrationFields

/-- One policy decision for one immutable strategy candidate. -/
structure CandidateArbitration (D : Type) [Hashing D]
    extends CandidateArbitrationFields D where
  valid : AllHold toCandidateArbitrationFields.checks

@[ext] theorem CandidateArbitration.ext_fields {D : Type} [Hashing D]
    {a b : CandidateArbitration D}
    (h : a.toCandidateArbitrationFields = b.toCandidateArbitrationFields) : a = b := by
  cases a; cases b; cases h; rfl

instance {D : Type} [Hashing D] : DecidableEq (CandidateArbitration D) :=
  fun _ _ => decidable_of_iff _ ⟨CandidateArbitration.ext_fields, fun h => by rw [h]⟩

section

variable {D : Type} [Hashing D]

namespace CandidateArbitration

def modelValidate (fields : CandidateArbitrationFields D) :
    Except Raised (CandidateArbitration D) :=
  validated fields.checks fun valid => ⟨fields, valid⟩

def sha256 (arbitration : CandidateArbitration D) : D :=
  Hashing.sha256 arbitration.modelDump

end CandidateArbitration

/-- The arbitration selects exactly this candidate. -/
def SelectsCandidate (candidate : BaselineCandidate D)
    (arbitration : CandidateArbitration D) : Prop :=
  candidate.isCandidate ∧ arbitration.status = .selected ∧
    arbitration.candidateVersion = baselineVersion ∧
    arbitration.candidateSha256 = candidate.sha256 ∧
    arbitration.strategy = candidate.strategy.text ∧
    arbitration.symbol = candidate.symbol ∧
    arbitration.tradeDate = candidate.tradeDate ∧
    arbitration.decisionAt = candidate.decisionAt ∧
    arbitration.strength = candidate.strength ∧
    arbitration.selectedCandidateSha256 = some candidate.sha256

instance (candidate : BaselineCandidate D) (arbitration : CandidateArbitration D) :
    Decidable (SelectsCandidate candidate arbitration) := by
  unfold SelectsCandidate; infer_instance

/-- `require_selected_candidate` -/
def requireSelectedCandidate (candidate : BaselineCandidate D)
    (arbitration : CandidateArbitration D) : Except Raised Unit :=
  require (SelectsCandidate candidate arbitration)
    (.valueError "candidate and selected arbitration lineage do not match")

end

end MiniLakehouse
