import MiniLakehouse.Context.Model
import MiniLakehouse.Features.Engine
import MiniLakehouse.Library.Keyed

/-!
# Buy-first baselines

The scoring of `strategy/baselines.py`: three candidates, or abstentions, for each feature
snapshot.  The relative baseline looks up one snapshot of the peer on the same clock and one
thirty seconds earlier, in the snapshots of the call and in the history that it is given.
-/

namespace MiniLakehouse

variable {D : Type}

/-! ## Group strengths -/

/-- `_window` -/
def FeatureSnapshot.window (snapshot : FeatureSnapshot D) (windowSeconds : Nat) :
    Except Raised WindowFeatures :=
  match snapshot.windows.filter (·.windowSeconds == windowSeconds) with
  | [window] => .ok window
  | _ => .error (.valueError
      ("baseline requires one " ++ toString windowSeconds ++ "-second feature window"))

/-- `_positive` -/
def positiveShare (numerator denominator : Option Rat) : Except Raised (Option Rat) :=
  match numerator, denominator with
  | some numerator, some denominator =>
      if denominator ≤ 0 then .ok none
      else do
        let share ← ratio numerator denominator ratioPlaces
        return some (min 1 (max 0 share))
  | _, _ => .ok none

/-- `_flow` -/
def WindowFeatures.flow (window : WindowFeatures) : Option Rat :=
  window.tradeVolumeImbalance.map (max 0)

/-- `_positive` of the return of a window against its volatility. -/
def WindowFeatures.rise (window : WindowFeatures) : Except Raised (Option Rat) :=
  positiveShare window.priceReturnBps window.realizedVolatilityBps

/-- `_minimum` -/
def minimumOf (values : List (Option Rat)) : Option Rat :=
  if values.all (·.isSome) then (values.filterMap id).min? else none

/-- `GroupEvidence(…)` -/
def GroupEvidence.modelValidate (name : String) (strength : Option Rat) :
    Except Raised GroupEvidence :=
  if h : ∀ value ∈ strength, 0 ≤ value ∧ value ≤ 1 then .ok ⟨name, strength, h⟩
  else .error (.fieldError "strength")

/-- The strengths of the three groups of a strategy. -/
abbrev GroupStrengths := Option Rat × Option Rat × Option Rat

/-- The groups of a strategy with their strengths. -/
def baselineGroups (strategy : BaselineName) (strengths : GroupStrengths) :
    Except Raised (GroupEvidence × GroupEvidence × GroupEvidence) := do
  let names := baselineGroupNames strategy
  let first ← GroupEvidence.modelValidate names.1 strengths.1
  let second ← GroupEvidence.modelValidate names.2.1 strengths.2.1
  let third ← GroupEvidence.modelValidate names.2.2 strengths.2.2
  return (first, second, third)

/-- Why groups make no candidate.  Momentum needs its first group and one that confirms it;
the other strategies need every group. -/
def groupReasons (strategy : BaselineName)
    (groups : GroupEvidence × GroupEvidence × GroupEvidence) : List String :=
  let (first, second, third) := groups
  if strategy ≠ .momentumPullback then
    let status := [first.status, second.status, third.status]
    if .unavailable ∈ status then ["required_group_unavailable"]
    else if .fail ∈ status then ["required_group_failed"]
    else []
  else if first.status = .unavailable then ["required_group_unavailable"]
  else if first.status = .fail then ["required_group_failed"]
  else if second.status = .unavailable ∧ third.status = .unavailable then
    ["confirming_group_unavailable"]
  else if second.status ≠ .match ∧ third.status ≠ .match then ["confirming_group_failed"]
  else []

/-- The mean of the strengths that are positive. -/
def matchedStrength (groups : GroupEvidence × GroupEvidence × GroupEvidence) :
    Except Raised Rat :=
  let strengths := [groups.1.strength, groups.2.1.strength, groups.2.2.strength]
  let matched := (strengths.filterMap id).filter (0 < ·)
  ratio matched.sum matched.length ratioPlaces

variable [Hashing D]

/-! ## Candidates -/

/-- `_build` -/
def buildCandidate (strategy : BaselineName) (snapshot : FeatureSnapshot D)
    (strengths : GroupStrengths) (peer : Option (FeatureSnapshot D))
    (context : Option (DecisionContext D)) (block : Option String) :
    Except Raised (BaselineCandidate D) := do
  let groups ← baselineGroups strategy strengths
  let reasons := match block with
    | some block => [block]
    | none => groupReasons strategy groups
  let strength ← if reasons ≠ [] then pure 0 else matchedStrength groups
  BaselineCandidate.modelValidate {
    strategy := strategy
    symbol := snapshot.symbol
    tradeDate := snapshot.tradeDate
    decisionAt := snapshot.decisionAt
    featureSnapshotSha256 := snapshot.sha256
    peerFeatureSnapshotSha256 := peer.map (·.sha256)
    contextSnapshotSha256 := context.map (·.sha256)
    contextVersion := context.map (·.contextVersion)
    contextConfigurationSha256 := context.map (·.contextConfigurationSha256)
    contextDataMode := context.map (·.dataMode)
    marketRegime := context.elim .unknown (·.regime)
    groups := groups
    strength := strength
    blockReasons := reasons }

/-- `_mean_reversion` -/
def meanReversion (snapshot : FeatureSnapshot D) (context : Option (DecisionContext D)) :
    Except Raised (BaselineCandidate D) := do
  let short ← snapshot.window 30
  let long ← snapshot.window 300
  let stretch ← positiveShare (long.lastPriceToVwapBps.map (-·)) long.realizedVolatilityBps
  let rise ← short.rise
  let zone ← match context with
    | none => pure none
    | some context => do
        let zone ← context.zone snapshot.symbol
        pure zone.nearSupportStrength
  buildCandidate .meanReversion snapshot (stretch, zone, minimumOf [rise, short.flow]) none
    context none

/-- A short return against the medium one that is more than a pullback. -/
def overshoots (short medium : WindowFeatures) : Bool :=
  match short.priceReturnBps, medium.priceReturnBps with
  | some short, some medium => max 0 medium < |short|
  | _, _ => false

/-- `_momentum_pullback` -/
def momentumPullback (snapshot : FeatureSnapshot D) (context : Option (DecisionContext D)) :
    Except Raised (BaselineCandidate D) := do
  let short ← snapshot.window 30
  let medium ← snapshot.window 60
  let long ← snapshot.window 300
  let mediumRise ← medium.rise
  let longRise ← long.rise
  let fall ← positiveShare (short.priceReturnBps.map (-·)) short.realizedVolatilityBps
  let shortRise ← short.rise
  let pullback := if overshoots short medium then some 0 else minimumOf [fall, short.flow]
  buildCandidate .momentumPullback snapshot
    (minimumOf [mediumRise, longRise], pullback, minimumOf [shortRise, short.flow]) none context
    none

/-- The lagged move of the peer, confirmed by the current window. -/
def laggedPeer (snapshot : FeatureSnapshot D) (lagged : Option (FeatureSnapshot D)) :
    Except Raised (Option Rat) :=
  match lagged.filter (·.isEligible) with
  | none => .ok none
  | some lagged => do
      let previous ← lagged.window 30
      let current ← snapshot.window 30
      let previousRise ← previous.rise
      let currentRise ← current.rise
      return minimumOf [previousRise, currentRise, current.flow]

/-- `_relative` -/
def relativeBaseline (snapshot : FeatureSnapshot D) (peer lagged : Option (FeatureSnapshot D))
    (context : Option (DecisionContext D)) : Except Raised (BaselineCandidate D) :=
  match peer.filter (·.isEligible) with
  | none => buildCandidate .vicVhmRelative snapshot (none, none, none) none context
      (some "missing_peer")
  | some peer => do
      let targetLong ← snapshot.window 300
      let peerLong ← peer.window 300
      let divergence ← positiveShare
        (Option.map₂ (· - ·) peerLong.priceReturnBps targetLong.priceReturnBps)
        (Option.map₂ (· + ·) peerLong.realizedVolatilityBps targetLong.realizedVolatilityBps)
      let laggedMove ← laggedPeer snapshot lagged
      buildCandidate .vicVhmRelative snapshot
        (divergence, laggedMove, context.bind (·.marketConfirmationStrength)) (some peer) context
        none

/-! ## Scoring -/

/-- What the scoring of one snapshot looks up. -/
structure ScoringEvidence (D : Type) where
  available : List (FeatureSnapshot D)
  contexts : List (DecisionContext D)

namespace ScoringEvidence

/-- `by_key.get` -/
def find (evidence : ScoringEvidence D) (symbol : String) (at' : Instant) :
    Option (FeatureSnapshot D) :=
  evidence.available.find? fun item => item.symbol = symbol ∧ item.decisionAt = at'

/-- `context_by_clock.get` -/
def context (evidence : ScoringEvidence D) (at' : Instant) : Option (DecisionContext D) :=
  evidence.contexts.find? (·.decisionAt = at')

end ScoringEvidence

def peerSymbol (symbol : String) : String := if symbol = "VIC" then "VHM" else "VIC"

/-- Why no strategy looks at a snapshot. -/
def snapshotBlock (snapshot : FeatureSnapshot D) (context : Option (DecisionContext D)) :
    Option String :=
  if !snapshot.isEligible then some "feature_ineligible"
  else if snapshot.marketSession ≠ .continuousAm ∧ snapshot.marketSession ≠ .continuousPm then
    some "not_continuous_session"
  else context.bind (·.selectionBlockReason false)

/-- The candidates of one snapshot, in the order of `BASELINE_NAMES`. -/
def scoreSnapshot (evidence : ScoringEvidence D) (snapshot : FeatureSnapshot D) :
    Except Raised (List (BaselineCandidate D)) :=
  let other := peerSymbol snapshot.symbol
  let peer := evidence.find other snapshot.decisionAt
  let context := evidence.context snapshot.decisionAt
  match snapshotBlock snapshot context with
  | some block => baselineNames.mapM fun name =>
      buildCandidate name snapshot (none, none, none)
        (if name = .vicVhmRelative then peer else none) context (some block)
  | none => do
      let meanReversion ← meanReversion snapshot context
      let momentumPullback ← momentumPullback snapshot context
      let relative ← relativeBaseline snapshot peer
        (evidence.find other (snapshot.decisionAt - relativePeerLag)) context
      return [meanReversion, momentumPullback, relative]

/-- The identity of a snapshot within a call. -/
def FeatureSnapshot.clockKey (snapshot : FeatureSnapshot D) : Instant ×ₗ String :=
  toLex (snapshot.decisionAt, snapshot.symbol)

/-- What all snapshots of a call share. -/
def FeatureSnapshot.lineage (snapshot : FeatureSnapshot D) : Day × String × D :=
  (snapshot.tradeDate, snapshot.featureVersion, snapshot.configurationSha256)

/-- A context of the snapshots' date and configuration, with a zone for each symbol. -/
def ContextMatches (snapshots : List (FeatureSnapshot D)) (context : DecisionContext D) : Prop :=
  (∀ first ∈ snapshots.head?, context.tradeDate = first.tradeDate ∧
    context.featureConfigurationSha256 = first.configurationSha256) ∧
  context.zones.map (·.symbol) = sortOn id (snapshots.map (·.symbol)).dedup

instance (snapshots : List (FeatureSnapshot D)) (context : DecisionContext D) :
    Decidable (ContextMatches snapshots context) := by
  unfold ContextMatches; infer_instance

/-- The guards of `score_buy_first_baselines`. -/
def checkScoring (snapshots history : List (FeatureSnapshot D))
    (contexts : List (DecisionContext D)) : Except Raised Unit := do
  require (snapshots ≠ []) (Raised.valueError "baseline scoring requires feature snapshots")
  require (∀ earlier ∈ history, ∀ snapshot ∈ snapshots, earlier.decisionAt < snapshot.decisionAt)
    (Raised.valueError "baseline history must strictly precede scored clocks")
  let available := history ++ snapshots
  require (∀ item ∈ available, ∀ other ∈ available, item.lineage = other.lineage)
    (Raised.valueError "baseline features must share trade date and lineage")
  require (∀ item ∈ available, item.symbol = "VIC" ∨ item.symbol = "VHM")
    (Raised.valueError "V1 baselines support only VIC and VHM")
  require (available.map (·.clockKey)).Nodup
    (Raised.valueError "baseline feature clocks must be unique")
  require (contexts.map (·.decisionAt)).Nodup
    (Raised.valueError "baseline context clocks must be unique")
  require (∀ context ∈ contexts, ContextMatches snapshots context)
    (Raised.valueError "baseline context lineage does not match features")

/-- `score_buy_first_baselines` -/
def scoreBuyFirstBaselines (snapshots : List (FeatureSnapshot D))
    (contexts : List (DecisionContext D)) (history : List (FeatureSnapshot D)) :
    Except Raised (List (BaselineCandidate D)) := do
  checkScoring snapshots history contexts
  let scored ← (sortOn (·.clockKey) snapshots).mapM
    (scoreSnapshot ⟨history ++ snapshots, contexts⟩)
  return scored.flatten

/-! ## What the candidates are of -/

/-- A strategy's candidate of a snapshot, in a context and with the peer of its clock. -/
structure CandidateOf (snapshot : FeatureSnapshot D) (context : Option (DecisionContext D))
    (peer : Option (FeatureSnapshot D)) (strategy : BaselineName)
    (candidate : BaselineCandidate D) : Prop where
  strategy_eq : candidate.strategy = strategy
  symbol_eq : candidate.symbol = snapshot.symbol
  tradeDate_eq : candidate.tradeDate = snapshot.tradeDate
  decisionAt_eq : candidate.decisionAt = snapshot.decisionAt
  snapshot_eq : candidate.featureSnapshotSha256 = snapshot.sha256
  context_eq : candidate.contextSnapshotSha256 = context.map (·.sha256)
  version_eq : candidate.contextVersion = context.map (·.contextVersion)
  configuration_eq :
    candidate.contextConfigurationSha256 = context.map (·.contextConfigurationSha256)
  mode_eq : candidate.contextDataMode = context.map (·.dataMode)
  regime_eq : candidate.marketRegime = context.elim .unknown (·.regime)
  peer_eq : candidate.peerFeatureSnapshotSha256 = none ∨
    strategy = .vicVhmRelative ∧ ∃ other ∈ peer,
      candidate.peerFeatureSnapshotSha256 = some other.sha256

theorem buildCandidate_of {strategy : BaselineName} {snapshot : FeatureSnapshot D}
    {strengths : GroupStrengths} {peer other : Option (FeatureSnapshot D)}
    {context : Option (DecisionContext D)} {block : Option String}
    {candidate : BaselineCandidate D}
    (h : buildCandidate strategy snapshot strengths other context block = .ok candidate)
    (hpeer : other = none ∨ strategy = .vicVhmRelative ∧ ∃ found ∈ peer, other = some found) :
    CandidateOf snapshot context peer strategy candidate := by
  have hsha : other.map (·.sha256) = none ∨ strategy = .vicVhmRelative ∧ ∃ found ∈ peer,
      other.map (·.sha256) = some found.sha256 := by
    rcases hpeer with rfl | ⟨hstrategy, found, hfound, rfl⟩
    · exact .inl rfl
    · exact .inr ⟨hstrategy, found, hfound, rfl⟩
  have hvalid : ∀ {fields : BaselineCandidateFields D},
      BaselineCandidate.modelValidate fields = .ok candidate →
      candidate.toBaselineCandidateFields = fields := by
    intro fields hfields
    obtain ⟨_, rfl⟩ := validated_eq_ok.mp hfields
    rfl
  simp only [buildCandidate, bind_eq_ok] at h
  obtain ⟨groups, -, h⟩ := h
  -- blocked or not, the record is the same but for its strength and its reasons
  have hfields : ∃ strength reasons, candidate.toBaselineCandidateFields = {
      strategy := strategy
      symbol := snapshot.symbol
      tradeDate := snapshot.tradeDate
      decisionAt := snapshot.decisionAt
      featureSnapshotSha256 := snapshot.sha256
      peerFeatureSnapshotSha256 := other.map (·.sha256)
      contextSnapshotSha256 := context.map (·.sha256)
      contextVersion := context.map (·.contextVersion)
      contextConfigurationSha256 := context.map (·.contextConfigurationSha256)
      contextDataMode := context.map (·.dataMode)
      marketRegime := context.elim .unknown (·.regime)
      groups := groups
      strength := strength
      blockReasons := reasons } := by
    cases block with
    | some block => exact ⟨_, _, hvalid h⟩
    | none =>
        by_cases hnone : groupReasons strategy groups = []
        · rw [if_neg (not_not.mpr hnone)] at h
          obtain ⟨strength, -, hbuilt⟩ := bind_eq_ok.mp h
          exact ⟨_, _, hvalid hbuilt⟩
        · rw [if_pos hnone] at h
          exact ⟨_, _, hvalid h⟩
  obtain ⟨strength, reasons, hfields⟩ := hfields
  obtain ⟨fields, valid⟩ := candidate
  obtain rfl : fields = _ := hfields
  exact ⟨rfl, rfl, rfl, rfl, rfl, rfl, rfl, rfl, rfl, rfl, hsha⟩

/-- **The candidates of a snapshot** are one of each strategy, in the order of the names. -/
theorem scoreSnapshot_of {evidence : ScoringEvidence D} {snapshot : FeatureSnapshot D}
    {candidates : List (BaselineCandidate D)}
    (h : scoreSnapshot evidence snapshot = .ok candidates) :
    List.Forall₂ (CandidateOf snapshot (evidence.context snapshot.decisionAt)
      (evidence.find (peerSymbol snapshot.symbol) snapshot.decisionAt)) baselineNames
      candidates := by
  simp only [scoreSnapshot] at h
  split at h
  · refine (mapM_eq_ok.mp h).imp fun name candidate hbuilt => buildCandidate_of hbuilt ?_
    by_cases hname : name = .vicVhmRelative
    · rw [if_pos hname]
      cases hpeer : evidence.find (peerSymbol snapshot.symbol) snapshot.decisionAt with
      | none => exact .inl rfl
      | some found => exact .inr ⟨hname, found, rfl, rfl⟩
    · exact .inl (if_neg hname)
  · simp only [bind_eq_ok, pure_eq_ok] at h
    obtain ⟨first, hfirst, second, hsecond, third, hthird, rfl⟩ := h
    refine .cons ?_ (.cons ?_ (.cons ?_ .nil))
    · simp only [meanReversion, bind_eq_ok] at hfirst
      obtain ⟨_, -, _, -, _, -, _, -, hfirst⟩ := hfirst
      cases hcontext : evidence.context snapshot.decisionAt with
      | none =>
          simp only [hcontext, pure_bind] at hfirst
          exact buildCandidate_of hfirst (.inl rfl)
      | some context =>
          simp only [hcontext, pure_bind, bind_eq_ok] at hfirst
          obtain ⟨zone, -, hbuilt⟩ := hfirst
          exact buildCandidate_of hbuilt (.inl rfl)
    · simp only [momentumPullback, bind_eq_ok] at hsecond
      obtain ⟨_, -, _, -, _, -, _, -, _, -, _, -, _, -, hbuilt⟩ := hsecond
      exact buildCandidate_of hbuilt (.inl rfl)
    · unfold relativeBaseline at hthird
      split at hthird
      · exact buildCandidate_of hthird (.inl rfl)
      · next found hfound =>
          simp only [bind_eq_ok] at hthird
          obtain ⟨_, -, _, -, _, -, _, -, hbuilt⟩ := hthird
          have hpeer := Option.mem_filter_iff.mp hfound
          exact buildCandidate_of hbuilt (.inr ⟨rfl, found, hpeer.1, rfl⟩)

end MiniLakehouse
