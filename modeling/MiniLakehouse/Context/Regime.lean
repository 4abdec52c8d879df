import MiniLakehouse.Context.Model

/-!
# Regime classification

Pure source-aware regime classification (`context/regime.py`).  An explicit basis never falls
back to another feed.
-/

namespace MiniLakehouse

variable {D : Type} [Hashing D]

/-- `context_identity`: new analytical assumptions define a new cohort. -/
def contextIdentity (policy : ContextVersion) (regimePolicy : Option RegimeVersion)
    (breadthPolicy : Option BreadthVersion) : Except Raised D := do
  match regimePolicy with
  | none => return policy.sha256
  | some regime =>
      require (regime.basis = .constituentBreadth → ∃ breadth ∈ breadthPolicy,
          ∃ index ∈ regime.referenceIndex, index ∈ breadth.indices)
        (Raised.valueError "constituent regime requires its declared breadth policy")
      let breadthSha256 : Option D :=
        if regime.basis = .constituentBreadth then breadthPolicy.map (·.sha256) else none
      return sha256 (.arr [.sha policy.sha256, .sha regime.sha256, .opt .sha breadthSha256])

/-! ## Classification -/

/-- The confirmation, the regime, and why there is none. -/
abbrev MarketReading := Option Rat × MarketRegime × List String

/-- A share of a threshold, within the unit interval. -/
def clamped (value : Rat) : Rat := min 1 (max 0 value)

/-- The regime of an eligible reference index. -/
def constituentRegime (policy : BreadthVersion) (threshold dispersionThreshold mean dispersion
    advance : Rat) (upward : Option Bool) : MarketRegime :=
  if dispersionThreshold ≤ dispersion then .highDispersion
  else if threshold ≤ mean ∧ upward = some true then .trendUp
  else if mean ≤ -threshold ∧ advance ≤ 1 - policy.confirmationAdvanceRatio then .trendDown
  else .range

/-- `market_state` of a declared constituent basis. -/
def constituentState (regimePolicy : RegimeVersion) (breadth : List (BreadthContext D))
    (breadthPolicy : Option BreadthVersion) : Except Raised MarketReading :=
  match breadthPolicy with
  | none => .error (.valueError "constituent regime requires a breadth policy")
  | some policy =>
      match breadth.find? fun item => some item.index == regimePolicy.referenceIndex with
      | none => .ok (none, .unknown,
          [regimePolicy.referenceIndex.getD "None" ++ "_MISSING_BREADTH"])
      | some reference => do
          require (reference.policySha256 = policy.sha256)
            (Raised.valueError "constituent regime breadth policy lineage mismatch")
          if reference.reasons ≠ [] then
            return (none, .unknown,
              reference.reasons.map fun reason => reference.index ++ "_" ++ reason)
          match regimePolicy.trendThresholdBps, regimePolicy.highDispersionThresholdBps,
              reference.meanReturnBps, reference.dispersionBps, reference.advanceRatio with
          | some threshold, some dispersionThreshold, some mean, some dispersion, some advance => do
              let confirmation ← ratio (clamped (mean / threshold) * advance) 1 ratioPlaces
              return (some confirmation, constituentRegime policy threshold dispersionThreshold
                mean dispersion advance reference.upwardConfirmation, [])
          | _, _, _, _, _ =>
              throw (.valueError "eligible constituent regime requires complete metrics and policy")

omit [Hashing D] in
/-- What is wrong with the official feeds; a declared regime does not look at the statuses. -/
def officialReasons (indices : List (IndexContext D)) (statuses : List (MarketStatusContext D))
    (declared : Bool) : List String :=
  let reasons := (indices.flatMap fun item => item.reasons.map fun reason =>
      item.index ++ "_" ++ reason) ++
    if declared then [] else statuses.flatMap fun item => item.reasons.map fun reason =>
      item.market ++ "_" ++ reason
  reasons.eraseDups ++ if indices.isEmpty then ["MISSING_REQUIRED_INDICES"] else []

/-- The window of an index that the classification reads. -/
def IndexContext.longWindow (policy : ContextVersion) (item : IndexContext D) :
    Option MarketWindowContext :=
  item.windows.find? (·.windowSeconds == policy.marketWindowsSeconds.2)

/-- The regime of mean returns and mean volatilities. -/
def officialRegime (policy : ContextVersion) (windows : List MarketWindowContext) : MarketRegime :=
  let marketReturn := (windows.map (·.returnBps)).sum / windows.length
  let marketVolatility := (windows.map (·.realizedVolatilityBps)).sum / windows.length
  if policy.highVolatilityThresholdBps ≤ marketVolatility then .highVolatility
  else if policy.trendThresholdBps ≤ marketReturn then .trendUp
  else if marketReturn ≤ -policy.trendThresholdBps then .trendDown
  else .range

/-- `market_state` of the official indices. -/
def officialState (indices : List (IndexContext D)) (statuses : List (MarketStatusContext D))
    (policy : ContextVersion) (declared : Bool) : Except Raised MarketReading :=
  let reasons := officialReasons indices statuses declared
  if reasons ≠ [] then .ok (none, .unknown, reasons)
  else
    let missing := (indices.filter fun item => (item.longWindow policy).isNone).map fun item =>
      item.index ++ "_MISSING_REQUIRED_WINDOW"
    if missing ≠ [] then .ok (none, .unknown, missing)
    else do
      let windows := indices.filterMap (·.longWindow policy)
      let shares ← windows.mapM fun window =>
        ratio window.returnBps policy.trendThresholdBps ratioPlaces
      -- There is an index, or its absence would be a reason.
      match shares.min? with
      | none => throw (.valueError "min() iterable argument is empty")
      | some share => return (some (clamped share), officialRegime policy windows, [])

/-- `market_state` -/
def marketState (indices : List (IndexContext D)) (statuses : List (MarketStatusContext D))
    (policy : ContextVersion) (regimePolicy : Option RegimeVersion)
    (breadth : List (BreadthContext D)) (breadthPolicy : Option BreadthVersion) :
    Except Raised MarketReading :=
  match regimePolicy with
  | none => officialState indices statuses policy false
  | some regime =>
      if regime.basis = .constituentBreadth then constituentState regime breadth breadthPolicy
      else officialState indices statuses policy true

end MiniLakehouse
