import MiniLakehouse.Identity
import MiniLakehouse.Numeric
import MiniLakehouse.Library.Time
import MiniLakehouse.Library.Validation

/-!
# Outcome labels

One gross markout conditional on an action at a feature snapshot
(`outcomes/model.py`).
-/

namespace MiniLakehouse

inductive Action where
  | buy
  | sell
  deriving DecidableEq, Repr

structure OutcomeLabelFields (D : Type) where
  outcomeVersion : String
  outcomeConfigurationSha256 : D
  featureVersion : String
  featureConfigurationSha256 : D
  featureSnapshotSha256 : D
  streamSessionId : String
  symbol : String
  tradeDate : Day
  decisionAt : Instant
  action : Action
  horizonSeconds : Nat
  orderQuantity : Nat
  entryAt : Instant
  horizonAt : Instant
  entryQuoteReceivedAt : Option Instant
  entryReceiveSequence : Option Nat
  entryVwap : Option Rat
  horizonQuoteReceivedAt : Option Instant
  horizonReceiveSequence : Option Nat
  horizonVwap : Option Rat
  grossReturnBps : Option Rat
  reasons : List String
  deriving DecidableEq

namespace OutcomeLabelFields

variable {D : Type}

/-- `value == value.strip().upper()`, the empty text included. -/
private def isUppercaseSymbol (value : String) : Bool :=
  value.isEmpty || isUpperIdentifier value

/-- The checks on one quote of a label, at the instant that it is evaluated. -/
private def quoteChecks (receivedAt : Option Instant) (sequence : Option Nat)
    (price : Option Rat) (evaluatedAt : Instant) : List (Check Raised) :=
  [⟨receivedAt.isNone == sequence.isNone,
      .valueError "quote position must be wholly present or absent"⟩,
    ⟨price.isNone || receivedAt.isSome,
      .valueError "simulated price requires quote lineage"⟩,
    ⟨receivedAt.all (· ≤ evaluatedAt),
      .valueError "outcome uses a quote unavailable at its evaluation time"⟩]

/-- Movement in favour of an action. -/
def movement (action : Action) (entry horizon : Rat) : Rat :=
  match action with
  | .buy => horizon - entry
  | .sell => entry - horizon

/-- The gross return that two simulated prices reconcile with. -/
private def reconciles (fields : OutcomeLabelFields D) : Bool :=
  match fields.entryVwap, fields.horizonVwap with
  | some entry, some horizon =>
      match basisPoints (movement fields.action entry horizon) entry with
      | .ok gross => fields.grossReturnBps == some gross
      | .error _ => false
  | _, _ => true

/-- `OutcomeLabel.validate_label` with the field constraints. -/
def checks (fields : OutcomeLabelFields D) : List (Check Raised) :=
  let priced := fields.entryVwap.isSome && fields.horizonVwap.isSome
  [⟨isVersionName fields.outcomeVersion, .fieldError "outcome_version"⟩,
    ⟨isVersionName fields.featureVersion, .fieldError "feature_version"⟩,
    ⟨fields.streamSessionId != "", .fieldError "stream_session_id"⟩,
    ⟨1 ≤ fields.horizonSeconds, .fieldError "horizon_seconds"⟩,
    ⟨1 ≤ fields.orderQuantity, .fieldError "order_quantity"⟩,
    ⟨fields.entryReceiveSequence.all (1 ≤ ·), .fieldError "entry_receive_sequence"⟩,
    ⟨fields.entryVwap.all (0 < ·), .fieldError "entry_vwap"⟩,
    ⟨fields.horizonReceiveSequence.all (1 ≤ ·), .fieldError "horizon_receive_sequence"⟩,
    ⟨fields.horizonVwap.all (0 < ·), .fieldError "horizon_vwap"⟩,
    ⟨isUppercaseSymbol fields.symbol, .valueError "symbol must be uppercase"⟩,
    ⟨fields.decisionAt ≤ fields.entryAt && fields.entryAt < fields.horizonAt,
      .valueError "outcome timestamps are not ordered"⟩,
    ⟨fields.horizonAt - fields.decisionAt == seconds fields.horizonSeconds,
      .valueError "horizon_seconds does not match horizon_at"⟩] ++
  quoteChecks fields.entryQuoteReceivedAt fields.entryReceiveSequence fields.entryVwap
    fields.entryAt ++
  quoteChecks fields.horizonQuoteReceivedAt fields.horizonReceiveSequence
    fields.horizonVwap fields.horizonAt ++
  [⟨priced == fields.grossReturnBps.isSome,
      .valueError "gross return requires both simulated prices"⟩,
    ⟨fields.reasons != [] || priced,
      .valueError "eligible outcome requires both simulated prices"⟩,
    ⟨fields.reconciles,
      .valueError "gross return does not reconcile with simulated prices"⟩,
    ⟨fields.reasons.Nodup, .valueError "outcome reasons must be unique and stable"⟩]

private def actionText : Action → String
  | .buy => "BUY"
  | .sell => "SELL"

def modelDump (fields : OutcomeLabelFields D) : Json D :=
  .arr [.str fields.outcomeVersion, .sha fields.outcomeConfigurationSha256,
    .str fields.featureVersion, .sha fields.featureConfigurationSha256,
    .sha fields.featureSnapshotSha256, .str fields.streamSessionId, .str fields.symbol,
    .int fields.tradeDate, .int fields.decisionAt, .str (actionText fields.action),
    .nat fields.horizonSeconds, .nat fields.orderQuantity, .int fields.entryAt,
    .int fields.horizonAt, .opt .int fields.entryQuoteReceivedAt,
    .opt .nat fields.entryReceiveSequence, .opt .num fields.entryVwap,
    .opt .int fields.horizonQuoteReceivedAt, .opt .nat fields.horizonReceiveSequence,
    .opt .num fields.horizonVwap, .opt .num fields.grossReturnBps,
    .list .str fields.reasons]

end OutcomeLabelFields

/-- One gross markout conditional on an action at a feature snapshot. -/
structure OutcomeLabel (D : Type) extends OutcomeLabelFields D where
  valid : AllHold toOutcomeLabelFields.checks
  deriving DecidableEq

namespace OutcomeLabel

variable {D : Type}

def modelValidate (fields : OutcomeLabelFields D) : Except Raised (OutcomeLabel D) :=
  validated fields.checks fun valid => ⟨fields, valid⟩

def sha256 [Hashing D] (label : OutcomeLabel D) : D := Hashing.sha256 label.modelDump

theorem quantity_pos (label : OutcomeLabel D) : 1 ≤ label.orderQuantity := by
  have h := label.valid
  simp only [OutcomeLabelFields.checks, allHold_append, allHold_cons] at h
  simpa using h.1.1.1.2.2.2.2.1

theorem entryVwap_pos (label : OutcomeLabel D) : ∀ price ∈ label.entryVwap, 0 < price := by
  have h := label.valid
  simp only [OutcomeLabelFields.checks, allHold_append, allHold_cons] at h
  intro price hprice
  have hall := h.1.1.1.2.2.2.2.2.2.1
  rw [Option.mem_def.mp hprice] at hall
  simpa using hall

theorem horizonVwap_pos (label : OutcomeLabel D) :
    ∀ price ∈ label.horizonVwap, 0 < price := by
  have h := label.valid
  simp only [OutcomeLabelFields.checks, allHold_append, allHold_cons] at h
  intro price hprice
  have hall := h.1.1.1.2.2.2.2.2.2.2.2.1
  rw [Option.mem_def.mp hprice] at hall
  simpa using hall

theorem entry_before_horizon (label : OutcomeLabel D) : label.entryAt < label.horizonAt := by
  have h := label.valid
  simp only [OutcomeLabelFields.checks, allHold_append, allHold_cons] at h
  have htimes := h.1.1.1.2.2.2.2.2.2.2.2.2.2.1
  simp only [Bool.and_eq_true, decide_eq_true_eq] at htimes
  exact htimes.2

end OutcomeLabel

end MiniLakehouse
