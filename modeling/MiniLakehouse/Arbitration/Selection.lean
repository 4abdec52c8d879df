import MiniLakehouse.Arbitration.Model
import MiniLakehouse.Context.Model
import MiniLakehouse.Features.Model
import MiniLakehouse.Library.Validation

/-!
# Realtime selections

The immutable handoff of one selected candidate with its evidence (`arbitration/selection.py`).
`Notifications/Store.lean` has the part of it that a delivery reads.
-/

namespace MiniLakehouse

variable {D : Type} [Hashing D]

/-- The fields of `RealtimeSelection`. -/
structure SelectionFields (D : Type) [Hashing D] where
  candidate : BaselineCandidate D
  arbitration : CandidateArbitration D
  context : DecisionContext D
  features : List (FeatureSnapshot D)
  laggedPeer : Option (FeatureSnapshot D)

namespace SelectionFields

variable (fields : SelectionFields D)

/-- The context is the live one that the candidate names. -/
def contextMatches : Bool :=
  fields.candidate.contextSnapshotSha256 == some fields.context.sha256 &&
    fields.candidate.contextConfigurationSha256 == some fields.context.contextConfigurationSha256 &&
    fields.candidate.contextVersion == some fields.context.contextVersion &&
    fields.candidate.contextDataMode == some fields.context.dataMode &&
    fields.candidate.marketRegime == fields.context.regime &&
    fields.candidate.decisionAt == fields.context.decisionAt &&
    fields.candidate.tradeDate == fields.context.tradeDate &&
    fields.context.dataMode == .live

/-- A feature of the candidate's clock and configuration without reasons. -/
def featureMatches (item : FeatureSnapshot D) : Bool :=
  item.decisionAt == fields.candidate.decisionAt &&
    item.tradeDate == fields.candidate.tradeDate &&
    item.configurationSha256 == fields.context.featureConfigurationSha256 &&
    item.isEligible

/-- The features are eligible and hold the candidate's own and its peer's. -/
def featuresMatch : Bool :=
  decide (fields.features.map (·.symbol)).Nodup &&
    fields.features.any (fun item => item.symbol == fields.candidate.symbol &&
      item.sha256 == fields.candidate.featureSnapshotSha256) &&
    fields.features.all fields.featureMatches &&
    fields.candidate.peerFeatureSnapshotSha256.all fun peer =>
      fields.features.any fun item => item.symbol != fields.candidate.symbol && item.sha256 == peer

/-- The eligible peer of the clock that a relative candidate looks back to. -/
def laggedMatches (lag : FeatureSnapshot D) : Bool :=
  lag.symbol != fields.candidate.symbol &&
    fields.features.any (fun item => item.symbol == lag.symbol) &&
    lag.decisionAt == fields.candidate.decisionAt - relativePeerLag &&
    lag.tradeDate == fields.candidate.tradeDate &&
    lag.configurationSha256 == fields.context.featureConfigurationSha256 &&
    lag.isEligible

/-- `RealtimeSelection.validate_lineage` -/
def checks : List (Check Raised) :=
  [⟨SelectsCandidate fields.candidate fields.arbitration,
      .valueError "candidate and selected arbitration lineage do not match"⟩,
    ⟨fields.contextMatches, .valueError "realtime selection requires matching live context"⟩,
    ⟨(fields.context.selectionBlockReason true).isNone, .valueError
      "realtime selection requires healthy regime and verified market status"⟩,
    ⟨fields.featuresMatch,
      .valueError "realtime selection feature lineage is incomplete or ineligible"⟩,
    ⟨fields.candidate.strategy != .vicVhmRelative || fields.laggedPeer.any fields.laggedMatches,
      .valueError "relative selection requires eligible causal peer history"⟩,
    ⟨fields.candidate.strategy == .vicVhmRelative || fields.laggedPeer.isNone,
      .valueError "only relative selection may carry lagged peer history"⟩]

end SelectionFields

/-- `RealtimeSelection` with all of its evidence. -/
structure SelectedEvidence (D : Type) [Hashing D] extends SelectionFields D where
  valid : AllHold toSelectionFields.checks

def SelectedEvidence.modelValidate (fields : SelectionFields D) :
    Except Raised (SelectedEvidence D) :=
  validated fields.checks fun valid => ⟨fields, valid⟩

end MiniLakehouse
