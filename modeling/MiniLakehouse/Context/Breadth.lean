import MiniLakehouse.Capture.Membership
import MiniLakehouse.Library.Pruned
import MiniLakehouse.Library.Validation
import MiniLakehouse.Market.Intervals
import MiniLakehouse.Market.Session
import MiniLakehouse.Numeric

/-!
# Breadth

Receipt-time breadth from captured membership and closed minute revisions
(`context/breadth.py`).  The engine keeps one revision of each minute and drops the minutes
that its lookback cannot reach any more; the reference keeps every bar that it has received.
What a context is computed of, the revisions of the current and of the base minute, is the
same for both.
-/

namespace MiniLakehouse

/-! ## Contexts -/

structure BreadthContext (D : Type) where
  index : String
  policyVersion : String
  policySha256 : D
  membershipSha256 : Option D
  observationsSha256 : D
  lookbackSeconds : Nat
  expectedCount : Nat
  observedCount : Nat
  participation : Option Rat
  advanceRatio : Option Rat
  meanReturnBps : Option Rat
  dispersionBps : Option Rat
  upwardConfirmation : Option Bool
  reasons : List String

namespace BreadthContext

variable {D : Type}

/-- The bounds of the fields and `validate_metrics`. -/
def checks (context : BreadthContext D) : List (Check Raised) :=
  let values := [context.advanceRatio, context.meanReturnBps, context.dispersionBps]
  [⟨60 ≤ context.lookbackSeconds, .fieldError "lookback_seconds"⟩,
    ⟨context.participation.all fun value => 0 ≤ value && value ≤ 1, .fieldError "participation"⟩,
    ⟨context.advanceRatio.all fun value => 0 ≤ value && value ≤ 1, .fieldError "advance_ratio"⟩,
    ⟨context.dispersionBps.all (0 ≤ ·), .fieldError "dispersion_bps"⟩,
    ⟨context.observedCount ≤ context.expectedCount,
      .valueError "breadth observations exceed membership"⟩,
    ⟨context.participation.isNone = (context.expectedCount = 0),
      .valueError "breadth participation requires a membership denominator"⟩,
    ⟨values.any (·.isNone) = (context.observedCount = 0) ∧
        values.any (·.isSome) = (0 < context.observedCount),
      .valueError "breadth metrics require observed constituents"⟩,
    ⟨context.participation.all fun value =>
        ratio context.observedCount context.expectedCount ratioPlaces = .ok value,
      .valueError "breadth participation does not match coverage"⟩,
    ⟨context.upwardConfirmation.isNone = (context.reasons ≠ []),
      .valueError "breadth confirmation requires healthy evidence"⟩]

/-- `BreadthContext(…)` -/
def modelValidate (context : BreadthContext D) : Except Raised (BreadthContext D) :=
  validated context.checks fun _ => context

end BreadthContext

/-! ## Revisions -/

/-- `_Revision` -/
structure BarRevision (D : Type) where
  bar : ProviderBar
  receivedAt : Instant
  position : String × Nat × D

/-- The symbol and the minute of a bar. -/
abbrev BarKey := String × Instant

variable {D : Type}

def BarRevision.key (revision : BarRevision D) : BarKey := (revision.bar.symbol, revision.bar.start)

/-- An older provider update delivered late must not rewind the minute. -/
def BarRevision.newer (revision : BarRevision D) (previous : Option (BarRevision D)) :
    Option (BarRevision D) :=
  if previous.all fun previous => previous.bar.observedAt ≤ revision.bar.observedAt then
    some revision
  else previous

/-! ## One request -/

variable [Hashing D] (configuration : TradingVersion) (policy : BreadthVersion)
  (membership : Option (BreadthMembershipSnapshot D))

namespace BreadthVersion

/-- The last minute that is closed at an instant. -/
def currentStart (at' : Instant) : Instant := at' - at' % seconds 60 - seconds 60

/-- The minute that the returns start from. -/
def baseStart (at' : Instant) : Instant := currentStart at' - seconds policy.lookbackSeconds

/-- Both minutes lie in one continuous session. -/
def sameSession (at' : Instant) : Bool :=
  let tradeDate := configuration.market.timezone.date at'
  let session := configuration.market.sessionAt at' tradeDate
  (session = .continuousAm || session = .continuousPm) &&
    configuration.market.sessionAt (policy.baseStart at') tradeDate = session

end BreadthVersion

/-- The membership that is known at an instant. -/
def knownMembership (at' : Instant) : Option (BreadthMembershipSnapshot D) :=
  membership.filter fun snapshot => snapshot.capturedAt ≤ at' &&
    configuration.market.timezone.date snapshot.capturedAt =
      configuration.market.timezone.date at'

/-- The revisions of a constituent that count: its base minute and its current one. -/
structure MinutePair (D : Type) where
  symbol : String
  baseline : BarRevision D
  current : BarRevision D

/-- The pair of a symbol, where both minutes are known and neither is stale. -/
def minutePair (at' : Instant) (baseline current : String → Option (BarRevision D))
    (symbol : String) : Option (MinutePair D) := do
  let current ← current symbol
  let baseline ← baseline symbol
  if at' - current.bar.observedAt > seconds policy.staleAfterSeconds ∨
      at' - seconds policy.lookbackSeconds - baseline.bar.observedAt >
        seconds policy.staleAfterSeconds then none
  else some ⟨symbol, baseline, current⟩

def minutePairs (at' : Instant) (baseline current : String → Option (BarRevision D))
    (symbols : List String) : List (MinutePair D) :=
  (if policy.sameSession configuration at' then symbols else []).filterMap
    (minutePair policy at' baseline current)

namespace MinutePair

def returnBps (pair : MinutePair D) : Except Raised Rat :=
  basisPoints (pair.current.bar.closePrice - pair.baseline.bar.closePrice)
    pair.baseline.bar.closePrice

def positionDump (position : String × Nat × D) : Json D :=
  .arr [.str position.1, .nat position.2.1, .sha position.2.2]

def lineage (pair : MinutePair D) : Json D :=
  .arr [.str pair.symbol, positionDump pair.baseline.position, .int pair.baseline.receivedAt,
    positionDump pair.current.position, .int pair.current.receivedAt]

end MinutePair

/-- What is wrong with the evidence of an index. -/
def breadthReasons (at' : Instant) (symbols : List String) (count : Nat)
    (participation : Option Rat) : List String :=
  (if symbols = [] then ["membership_unavailable"] else []) ++
  (if policy.sameSession configuration at' then [] else ["outside_continuous_lookback"]) ++
  (if count = 0 then ["missing_closed_minute_pairs"] else []) ++
  (if participation.any (· < policy.minimumParticipation) then ["insufficient_participation"]
    else [])

/-- The record of one index. -/
def breadthRecord (at' : Instant) (index : String) (known : Option D) (symbols : List String)
    (pairs : List (MinutePair D)) (returns : List Rat) (participation advance : Option Rat) :
    BreadthContext D :=
  let count := returns.length
  let mean : Option Rat := if count = 0 then none else some (returns.sum / count)
  let reasons := breadthReasons configuration policy at' symbols count participation
  { index := index
    policyVersion := policy.version
    policySha256 := policy.sha256
    membershipSha256 := known
    observationsSha256 := sha256 (.list MinutePair.lineage pairs)
    lookbackSeconds := policy.lookbackSeconds
    expectedCount := symbols.length
    observedCount := count
    participation := participation
    advanceRatio := advance
    meanReturnBps := mean.map (quantizeHalfEven ratioPlaces)
    dispersionBps := mean.map fun mean => quantizeHalfEven ratioPlaces
      (decimalSqrt 28 ((returns.map fun value => (value - mean) ^ 2).sum / count))
    upwardConfirmation :=
      if reasons = [] then
        advance.bind fun advance => mean.map fun mean =>
          policy.confirmationAdvanceRatio ≤ advance && 0 < mean
      else none
    reasons := reasons }

/-- `participation`: the share of the constituents that have a pair. -/
def breadthParticipation (count : Nat) (symbols : List String) : Except Raised (Option Rat) :=
  if symbols = [] then .ok none else some <$> ratio count symbols.length ratioPlaces

/-- `advance`: the share of the returns that are positive. -/
def breadthAdvance (returns : List Rat) : Except Raised (Option Rat) :=
  if returns.length = 0 then .ok none
  else some <$> ratio (returns.countP (0 < ·)) returns.length ratioPlaces

/-- The context of one index. -/
def breadthContext (at' : Instant) (baseline current : String → Option (BarRevision D))
    (index : String) : Except Raised (BreadthContext D) := do
  let known := knownMembership configuration membership at'
  let symbols := (known.bind fun snapshot =>
    snapshot.memberships.find? (·.index = index)).elim [] (·.symbols)
  let pairs := minutePairs configuration policy at' baseline current symbols
  let returns ← pairs.mapM (·.returnBps)
  let participation ← breadthParticipation returns.length symbols
  let advance ← breadthAdvance returns
  (breadthRecord configuration policy at' index (known.map (·.snapshotSha256)) symbols pairs
    returns participation advance).modelValidate

/-- A ratio of a count to a positive total is between zero and one. -/
theorem ratio_between {count total : Nat} (hle : count ≤ total) (hpos : total ≠ 0) :
    ∃ value, ratio count total ratioPlaces = .ok value ∧ 0 ≤ value ∧ value ≤ 1 := by
  have htotal : (0 : Rat) < total := by exact_mod_cast Nat.pos_of_ne_zero hpos
  have hcount : (count : Rat) ≤ total := by exact_mod_cast hle
  have hnonneg : ((0 : Int) : Rat) ≤ count / total := by positivity
  have hone : (count : Rat) / total ≤ ((1 : Int) : Rat) := by
    rw [Int.cast_one]
    exact (div_le_one htotal).mpr hcount
  refine ⟨quantizeHalfUp ratioPlaces (count / total), ?_, ?_, ?_⟩
  · rw [ratio, require_of htotal.ne']
    rfl
  · have hlow := quantizeHalfUp_mono ratioPlaces hnonneg
    rwa [quantizeHalfUp_intCast, Int.cast_zero] at hlow
  · have hhigh := quantizeHalfUp_mono ratioPlaces hone
    rwa [quantizeHalfUp_intCast, Int.cast_one] at hhigh

omit [Hashing D] in
theorem minutePairs_length (at' : Instant) (baseline current : String → Option (BarRevision D))
    (symbols : List String) :
    (minutePairs configuration policy at' baseline current symbols).length ≤ symbols.length := by
  refine (List.length_filterMap_le _ _).trans ?_
  split
  · exact le_refl _
  · exact Nat.zero_le _

omit [Hashing D] in
/-- The prices of bars are positive, so every pair has its return. -/
theorem returns_total (pairs : List (MinutePair D)) :
    ∃ returns, pairs.mapM (·.returnBps) = .ok returns ∧ returns.length = pairs.length := by
  have heach : ∀ pair ∈ pairs, ∃ value, pair.returnBps = .ok value := by
    intro pair _
    rw [MinutePair.returnBps, basisPoints, ratio,
      require_of pair.baseline.bar.closePrice_pos.ne']
    exact ⟨_, rfl⟩
  obtain ⟨returns, hreturns⟩ := mapM_total heach
  exact ⟨returns, hreturns, (mapM_eq_ok.mp hreturns).length_eq.symm⟩

/-- The participation is known where there are constituents, and matches the coverage. -/
theorem breadthParticipation_total {count : Nat} {symbols : List String}
    (hcount : count ≤ symbols.length) : ∃ participation,
      breadthParticipation count symbols = .ok participation ∧
      participation.isNone = (symbols = []) ∧
      ∀ value ∈ participation, 0 ≤ value ∧ value ≤ 1 ∧
        ratio count symbols.length ratioPlaces = .ok value := by
  unfold breadthParticipation
  by_cases hempty : symbols = []
  · exact ⟨none, by rw [if_pos hempty], by simp [hempty], by simp⟩
  · obtain ⟨value, hvalue, hlow, hhigh⟩ :=
      ratio_between hcount fun hzero => hempty (List.length_eq_zero_iff.mp hzero)
    refine ⟨some value, by rw [if_neg hempty, hvalue]; rfl, by simp [hempty], ?_⟩
    intro found hfound
    obtain rfl := Option.some.inj hfound
    exact ⟨hlow, hhigh, hvalue⟩

/-- The advance ratio is known where there are returns. -/
theorem breadthAdvance_total (returns : List Rat) : ∃ advance,
    breadthAdvance returns = .ok advance ∧ advance.isNone = (returns.length = 0) ∧
      ∀ value ∈ advance, 0 ≤ value ∧ value ≤ 1 := by
  unfold breadthAdvance
  by_cases hzero : returns.length = 0
  · exact ⟨none, by rw [if_pos hzero], by simp [hzero], by simp⟩
  · obtain ⟨value, hvalue, hlow, hhigh⟩ :=
      ratio_between (List.countP_le_length (p := (0 < ·)) (l := returns)) hzero
    refine ⟨some value, by rw [if_neg hzero, hvalue]; rfl, by simpa using hzero, ?_⟩
    intro found hfound
    obtain rfl := Option.some.inj hfound
    exact ⟨hlow, hhigh⟩

/-- The record of counts and ratios that belong together is valid. -/
theorem breadthRecord_valid (at' : Instant) (index : String) (known : Option D)
    {symbols : List String} (pairs : List (MinutePair D)) {returns : List Rat}
    {participation advance : Option Rat} (hcount : returns.length ≤ symbols.length)
    (hparticipation : participation.isNone = (symbols = []))
    (hcoverage : ∀ value ∈ participation, 0 ≤ value ∧ value ≤ 1 ∧
      ratio returns.length symbols.length ratioPlaces = .ok value)
    (hadvance : advance.isNone = (returns.length = 0))
    (hbetween : ∀ value ∈ advance, 0 ≤ value ∧ value ≤ 1) :
    AllHold (breadthRecord configuration policy at' index known symbols pairs returns
      participation advance).checks := by
  have hlookback := policy.lookback_bounds.1
  have hadvanceSome : advance.isSome = (0 < returns.length) := by
    rw [← Option.not_isNone, Bool.not_eq_true', ← Bool.not_eq_true, hadvance, Nat.pos_iff_ne_zero]
  simp only [BreadthContext.checks, breadthRecord, allHold_cons, allHold_nil]
  refine ⟨decide_eq_true hlookback, ?_, ?_, ?_, decide_eq_true hcount, ?_, ?_, ?_, ?_, trivial⟩
  · cases participation with
    | none => rfl
    | some value =>
        obtain ⟨hlow, hhigh, -⟩ := hcoverage value rfl
        simp [hlow, hhigh]
  · cases advance with
    | none => rfl
    | some value =>
        obtain ⟨hlow, hhigh⟩ := hbetween value rfl
        simp [hlow, hhigh]
  · by_cases hnone : returns.length = 0
    · rw [if_pos hnone]
      rfl
    · rw [if_neg hnone]
      simp only [Option.map_some, Option.all_some, decide_eq_true_eq]
      exact quantizeHalfEven_nonneg _ (decimalSqrt_nonneg _ _)
  · simp [hparticipation]
  · by_cases hnone : returns.length = 0
    · have hnoAdvance : advance = none := by simpa [hnone] using hadvance
      simp [hnone, hnoAdvance]
    · have hsome : advance.isSome = true := by simpa [Nat.pos_of_ne_zero hnone] using hadvanceSome
      obtain ⟨value, rfl⟩ := Option.isSome_iff_exists.mp hsome
      simp [hnone, Nat.pos_of_ne_zero hnone]
  · cases participation with
    | none => rfl
    | some value => simp [(hcoverage value rfl).2.2]
  · by_cases hreasons : breadthReasons configuration policy at' symbols returns.length
        participation = []
    · have hnone : returns.length ≠ 0 := by
        intro hzero
        simp [breadthReasons, hzero] at hreasons
      have hsome : advance.isSome = true := by simpa [Nat.pos_of_ne_zero hnone] using hadvanceSome
      obtain ⟨value, rfl⟩ := Option.isSome_iff_exists.mp hsome
      simp [hreasons, hnone]
    · simp [hreasons]

/-- **Every request for an index is answered**, by a context that satisfies its validator. -/
theorem breadthContext_valid (at' : Instant) (baseline current : String → Option (BarRevision D))
    (index : String) : ∃ context,
      breadthContext configuration policy membership at' baseline current index = .ok context ∧
      AllHold context.checks := by
  unfold breadthContext
  dsimp only
  generalize ((knownMembership configuration membership at').bind fun snapshot =>
    snapshot.memberships.find? (·.index = index)).elim [] (·.symbols) = symbols
  have hpairs := minutePairs_length configuration policy at' baseline current symbols
  obtain ⟨returns, hreturns, hlength⟩ :=
    returns_total (minutePairs configuration policy at' baseline current symbols)
  rw [hreturns, ok_bind]
  have hcount : returns.length ≤ symbols.length := hlength.trans_le hpairs
  obtain ⟨participation, hparticipation, hnone, hcoverage⟩ := breadthParticipation_total hcount
  obtain ⟨advance, hadvance, hsome, hbetween⟩ := breadthAdvance_total returns
  rw [hparticipation, ok_bind, hadvance, ok_bind]
  have hvalid := breadthRecord_valid configuration policy at' index
    ((knownMembership configuration membership at').map (·.snapshotSha256))
    (minutePairs configuration policy at' baseline current symbols) hcount hnone hcoverage hsome
    hbetween
  exact ⟨_, validated_of hvalid, hvalid⟩

/-- The contexts of every index, in the order of their names. -/
def breadthContexts (at' : Instant) (baseline current : String → Option (BarRevision D)) :
    Except Raised (List (BreadthContext D)) :=
  (policy.indices.mergeSort (· ≤ ·)).mapM
    (breadthContext configuration policy membership at' baseline current)

/-! ## `BreadthEngine` -/

structure BreadthEngine (D : Type) where
  bars : BarKey → Option (BarRevision D)
  lastReceivedAt : Option Instant
  lastDecisionAt : Option Instant

/-- The clocks of an engine: what `build` checks before it computes. -/
def checkBuild (lastReceivedAt lastDecisionAt : Option Instant) (at' : Instant) :
    Except Raised Unit := do
  require (∀ received ∈ lastReceivedAt, received ≤ at')
    (Raised.valueError "breadth cannot build before applied receipts")
  require (∀ decision ∈ lastDecisionAt, decision < at')
    (Raised.valueError "breadth clocks must be strictly increasing")
  require (policy.contains (configuration.market.timezone.date at'))
    (Raised.valueError "breadth policy must cover the decision date")

/-- The bar that an envelope adds: one of a symbol outside the membership is not looked at. -/
def envelopeBar [IntervalSdk] (envelope : StreamEnvelope D) :
    Except Raised (Option (BarRevision D)) := do
  let symbols := membership.elim [] (·.symbols)
  if envelope.symbol.any (symbols.contains ·) then
    let bar ← providerBar envelope configuration.market.timezone
    return bar.map fun bar => ⟨bar, envelope.receivedAt,
      envelope.streamSessionId, envelope.receiveSequence, envelope.messageSha256⟩
  else return none

namespace BreadthEngine

def initial : BreadthEngine D := ⟨fun _ => none, none, none⟩

/-- How long before a receipt a minute may start and still be kept. -/
def retention : Int := seconds (policy.lookbackSeconds + policy.staleAfterSeconds + 60)

/-- `apply`, with the state that it leaves where it raises. -/
def apply [IntervalSdk] (engine : BreadthEngine D) (envelope : StreamEnvelope D) :
    BreadthEngine D × Except Raised Unit :=
  if engine.lastReceivedAt.any (envelope.receivedAt < ·) then
    (engine, .error (.valueError "breadth envelopes must be receipt ordered"))
  else
    let received := { engine with lastReceivedAt := some envelope.receivedAt }
    match envelopeBar configuration membership envelope with
    | .error error => (received, .error error)
    | .ok none => (received, .ok ())
    | .ok (some revision) =>
        let recorded := Function.update engine.bars revision.key
          (revision.newer (engine.bars revision.key))
        ({ received with
          bars := pruneBelow Prod.snd (envelope.receivedAt - retention policy) recorded }, .ok ())

/-- `build` -/
def build (engine : BreadthEngine D) (at' : Instant) :
    BreadthEngine D × Except Raised (List (BreadthContext D)) :=
  match checkBuild configuration policy engine.lastReceivedAt engine.lastDecisionAt at' with
  | .error error => (engine, .error error)
  | .ok () =>
      ({ engine with lastDecisionAt := some at' },
        breadthContexts configuration policy membership at'
          (fun symbol => engine.bars (symbol, policy.baseStart at'))
          (fun symbol => engine.bars (symbol, BreadthVersion.currentStart at')))

end BreadthEngine

end MiniLakehouse
