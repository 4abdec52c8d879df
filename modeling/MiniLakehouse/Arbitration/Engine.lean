import MiniLakehouse.Arbitration.Model
import MiniLakehouse.Configuration
import MiniLakehouse.Library.Keyed

/-!
# Arbitration of candidates

`CandidateArbitrator` and `arbitrate_candidates` (`arbitration/engine.py`): one
call decides a complete clock.  Its guards come first, then the clock is noted;
every symbol puts forward its best eligible candidate unless it is cooling
down, and the best of these are selected up to the capacity of a clock.  A call
returns its result together with the arbitrator it leaves behind, so that what
a call that raises has already changed is part of the model.
-/

namespace MiniLakehouse

/-- `CandidateArbitrator`: the policy, each symbol's last selection, the last clock. -/
structure CandidateArbitrator (D : Type) where
  policy : CandidateArbitrationVersion
  lastSelected : String → Option (Instant × D)
  lastClock : Option (Day ×ₗ Instant)

/-- A winner of its symbol with the contenders that it outranks. -/
abbrev RankedWinner (D : Type) := BaselineCandidate D × List (BaselineCandidate D)

/-- The dictionary of decisions, the latest entry first. -/
abbrev Decisions (D : Type) [Hashing D] := List (D × CandidateArbitration D)

/-- What the loop over the symbols has found. -/
structure Contest (D : Type) [Hashing D] where
  decisions : Decisions D
  winners : List (RankedWinner D)

def BaselineCandidate.clock {D : Type} (candidate : BaselineCandidate D) : Day ×ₗ Instant :=
  toLex (candidate.tradeDate, candidate.decisionAt)

/-- `by_symbol[symbol]` -/
def bySymbol {D : Type} (candidates : List (BaselineCandidate D)) (symbol : String) :
    List (BaselineCandidate D) :=
  candidates.filter (·.symbol == symbol)

/-- `sorted(by_symbol)` -/
def symbolsOf {D : Type} (candidates : List (BaselineCandidate D)) : List String :=
  sortOn id (candidates.map (·.symbol)).dedup

namespace CandidateArbitrator

variable {D : Type}

/-- `CandidateArbitrator(policy)` -/
def new (policy : CandidateArbitrationVersion) : CandidateArbitrator D where
  policy := policy
  lastSelected := fun _ => none
  lastClock := none

def findRule (arbitrator : CandidateArbitrator D) (candidate : BaselineCandidate D) :
    Option CandidateArbitrationRule :=
  arbitrator.policy.rules.find? (·.strategy == candidate.strategy.text)

/-- `self._rules[candidate.strategy]` -/
def rule (arbitrator : CandidateArbitrator D) (candidate : BaselineCandidate D) :
    Except Raised CandidateArbitrationRule :=
  match arbitrator.findRule candidate with
  | some rule => .ok rule
  | none => .error (.lookupError candidate.strategy.text)

/-- The priority in a sort key; the guards leave no candidate without a rule. -/
def precedence (arbitrator : CandidateArbitrator D) (candidate : BaselineCandidate D) : Nat :=
  (arbitrator.findRule candidate).elim arbitrator.policy.rules.length (·.priority)

section

variable [Hashing D]

/-- `_result` -/
def result (arbitrator : CandidateArbitrator D) (candidate : BaselineCandidate D)
    (reason : Option RejectionReason) (priority : Option Nat) (selectedSha256 : Option D) :
    Except Raised (CandidateArbitration D) := do
  let rule ← arbitrator.rule candidate
  CandidateArbitration.modelValidate {
    arbitrationVersion := arbitrator.policy.version
    arbitrationConfigurationSha256 := arbitrator.policy.sha256
    candidateVersion := baselineVersion
    candidateSha256 := candidate.sha256
    strategy := candidate.strategy.text
    symbol := candidate.symbol
    tradeDate := candidate.tradeDate
    decisionAt := candidate.decisionAt
    horizonSeconds := rule.horizonSeconds
    strength := candidate.strength
    status := if reason.isNone then .selected else .rejected
    rejectionReason := reason
    priority := priority
    selectedCandidateSha256 :=
      if reason.isNone then some candidate.sha256 else selectedSha256 }

/-- Every symbol has one candidate of every configured strategy. -/
def CompleteMatrix (arbitrator : CandidateArbitrator D)
    (candidates : List (BaselineCandidate D)) : Prop :=
  ∀ symbol ∈ symbolsOf candidates,
    (bySymbol candidates symbol).length = arbitrator.policy.rules.length ∧
    (∀ rule ∈ arbitrator.policy.rules,
      ∃ item ∈ bySymbol candidates symbol, item.strategy.text = rule.strategy) ∧
    ∀ item ∈ bySymbol candidates symbol,
      ∃ rule ∈ arbitrator.policy.rules, item.strategy.text = rule.strategy

instance (arbitrator : CandidateArbitrator D) (candidates : List (BaselineCandidate D)) :
    Decidable (arbitrator.CompleteMatrix candidates) := by
  unfold CompleteMatrix; infer_instance

/-- The guards of `decide`: the one clock that the candidates complete. -/
def checkClock (arbitrator : CandidateArbitrator D) (candidates : List (BaselineCandidate D)) :
    Except Raised (Day ×ₗ Instant) :=
  match candidates with
  | [] => .error (.valueError "candidate arbitration requires a complete decision clock")
  | first :: rest => do
      require (∀ item ∈ rest, item.clock = first.clock)
        (.valueError "candidate arbitration call must contain exactly one decision clock")
      require (∀ last ∈ arbitrator.lastClock, last < first.clock)
        (.valueError "candidate arbitration clocks must be strictly increasing")
      require (arbitrator.policy.contains first.tradeDate)
        (.valueError "candidate arbitration policy does not cover the trade date")
      require (baselineVersion = arbitrator.policy.candidateVersion)
        (.valueError "candidate arbitration policy and candidate versions differ")
      require (candidates.map (·.sha256)).Nodup
        (.valueError "candidate arbitration inputs must be unique")
      require (arbitrator.CompleteMatrix candidates)
        (.valueError "candidate arbitration requires a complete configured strategy matrix")
      return first.clock

/-- `decisions[candidate.sha256] = self._result(candidate, …)` for a rejection. -/
def reject (arbitrator : CandidateArbitrator D) (reason : RejectionReason)
    (selectedSha256 : Option D) (decisions : Decisions D) (candidate : BaselineCandidate D) :
    Except Raised (Decisions D) := do
  let result ← arbitrator.result candidate (some reason) none selectedSha256
  return (candidate.sha256, result) :: decisions

/-- One candidate on its own: rejected, or eligible within its symbol. -/
def judge (arbitrator : CandidateArbitrator D)
    (state : Decisions D × List (BaselineCandidate D)) (candidate : BaselineCandidate D) :
    Except Raised (Decisions D × List (BaselineCandidate D)) := do
  let rule ← arbitrator.rule candidate
  if !candidate.isCandidate then
    let decisions ← arbitrator.reject .upstreamBlocked none state.1 candidate
    return (decisions, state.2)
  else if candidate.strength < rule.minimumStrength then
    let decisions ← arbitrator.reject .belowMinimumStrength none state.1 candidate
    return (decisions, state.2)
  else
    return (state.1, state.2 ++ [candidate])

/-- The selection that a symbol is still cooling down from. -/
def coolingFrom (arbitrator : CandidateArbitrator D) (symbol : String) (decisionAt : Instant) :
    Option D :=
  match arbitrator.lastSelected symbol with
  | none => none
  | some previous =>
      if decisionAt < previous.1 + seconds arbitrator.policy.cooldownSeconds then
        some previous.2
      else none

/-- The order of eligible candidates within a symbol. -/
def contenderKey (arbitrator : CandidateArbitrator D) (candidate : BaselineCandidate D) :
    Nat ×ₗ Rat ×ₗ D :=
  toLex (arbitrator.precedence candidate, toLex (-candidate.strength, candidate.sha256))

/-- The order of the winners of a clock. -/
def winnerKey (arbitrator : CandidateArbitrator D) (candidate : BaselineCandidate D) :
    Nat ×ₗ Rat ×ₗ String ×ₗ D :=
  toLex (arbitrator.precedence candidate,
    toLex (-candidate.strength, toLex (candidate.symbol, candidate.sha256)))

/-- The order of a clock's results. -/
def resultKey (arbitrator : CandidateArbitrator D) (candidate : BaselineCandidate D) :
    String ×ₗ Nat ×ₗ D :=
  toLex (candidate.symbol, toLex (arbitrator.precedence candidate, candidate.sha256))

/-- One symbol of the first loop. -/
def contest (arbitrator : CandidateArbitrator D) (candidates : List (BaselineCandidate D))
    (decisionAt : Instant) (state : Contest D) (symbol : String) : Except Raised (Contest D) := do
  let (decisions, eligible) ←
    (bySymbol candidates symbol).foldlM arbitrator.judge (state.decisions, [])
  match arbitrator.coolingFrom symbol decisionAt with
  | some previous =>
      let decisions ← eligible.foldlM (arbitrator.reject .symbolCooldown (some previous)) decisions
      return { state with decisions := decisions }
  | none =>
      match sortOn arbitrator.contenderKey eligible with
      | [] => return { state with decisions := decisions }
      | winner :: lowerPriority =>
          return { decisions := decisions, winners := state.winners ++ [(winner, lowerPriority)] }

/-- `self._last_selected[candidate.symbol] = (decision_at, candidate.sha256)` -/
def startCooldown (decisionAt : Instant) (arbitrator : CandidateArbitrator D)
    (winner : RankedWinner D) : CandidateArbitrator D :=
  { arbitrator with
    lastSelected := Function.update arbitrator.lastSelected winner.1.symbol
      (some (decisionAt, winner.1.sha256)) }

/-- The decisions on a selected winner and on the contenders that it outranks. -/
def select (arbitrator : CandidateArbitrator D) (decisions : Decisions D)
    (winner : RankedWinner D) (priority : Nat) : Except Raised (Decisions D) := do
  let result ← arbitrator.result winner.1 none (some priority) none
  winner.2.foldlM (arbitrator.reject .lowerStrategyPriority (some winner.1.sha256))
    ((winner.1.sha256, result) :: decisions)

/-- The loop over the selected winners, which starts their cooldowns as it goes. -/
def selectAll (decisionAt : Instant) :
    CandidateArbitrator D → Decisions D → List (RankedWinner D × Nat) →
      Except Raised (Decisions D) × CandidateArbitrator D
  | arbitrator, decisions, [] => (.ok decisions, arbitrator)
  | arbitrator, decisions, (winner, priority) :: rest =>
      match arbitrator.select decisions winner priority with
      | .error raised => (.error raised, arbitrator)
      | .ok decisions =>
          selectAll decisionAt (startCooldown decisionAt arbitrator winner) decisions rest

/-- A winner beyond the capacity of the clock and its contenders. -/
def crowd (arbitrator : CandidateArbitrator D) (decisions : Decisions D)
    (winner : RankedWinner D) : Except Raised (Decisions D) :=
  (winner.1 :: winner.2).foldlM (arbitrator.reject .clockCapacity none) decisions

/-- `decisions[item.sha256]` -/
def decided (decisions : Decisions D) (candidate : BaselineCandidate D) :
    Except Raised (CandidateArbitration D) :=
  match decisions.find? (·.1 == candidate.sha256) with
  | some entry => .ok entry.2
  | none => .error (.lookupError "sha256")

/-- The winners that the clock has no room for, and the ordered results. -/
def report (arbitrator : CandidateArbitrator D) (candidates : List (BaselineCandidate D))
    (decisions : Decisions D) (crowded : List (RankedWinner D)) :
    Except Raised (List (CandidateArbitration D)) := do
  let decisions ← crowded.foldlM arbitrator.crowd decisions
  (sortOn arbitrator.resultKey candidates).mapM (decided decisions)

/-- `decide` once its guards have passed and the clock has been noted. -/
def arbitrate (arbitrator : CandidateArbitrator D) (candidates : List (BaselineCandidate D))
    (decisionAt : Instant) :
    Except Raised (List (CandidateArbitration D)) × CandidateArbitrator D :=
  match (symbolsOf candidates).foldlM (arbitrator.contest candidates decisionAt) ⟨[], []⟩ with
  | .error raised => (.error raised, arbitrator)
  | .ok found =>
      let ordered := sortOn (fun winner => arbitrator.winnerKey winner.1) found.winners
      let capacity := arbitrator.policy.maximumSelectionsPerClock
      match selectAll decisionAt arbitrator found.decisions (ordered.take capacity).zipIdx with
      | (.error raised, after) => (.error raised, after)
      | (.ok decisions, after) =>
          (arbitrator.report candidates decisions (ordered.drop capacity), after)

/-- `decide`: the arbitration of one complete clock. -/
def decide (arbitrator : CandidateArbitrator D) (candidates : List (BaselineCandidate D)) :
    Except Raised (List (CandidateArbitration D)) × CandidateArbitrator D :=
  match arbitrator.checkClock candidates with
  | .error raised => (.error raised, arbitrator)
  | .ok clock =>
      arbitrate { arbitrator with lastClock := some clock } candidates (ofLex clock).2

/-- Calls of `decide` one after the other, as long as none raises. -/
def decideAll (arbitrator : CandidateArbitrator D) :
    List (List (BaselineCandidate D)) → Except Raised (List (CandidateArbitration D))
  | [] => .ok []
  | candidates :: rest => do
      let results ← (arbitrator.decide candidates).1
      let later ← decideAll (arbitrator.decide candidates).2 rest
      return results ++ later

end

end CandidateArbitrator

/-- `grouped[clock]` -/
def byClock {D : Type} (candidates : List (BaselineCandidate D)) (clock : Day ×ₗ Instant) :
    List (BaselineCandidate D) :=
  candidates.filter (·.clock = clock)

/-- `arbitrate_candidates` -/
def arbitrateCandidates {D : Type} [Hashing D] (candidates : List (BaselineCandidate D))
    (policy : CandidateArbitrationVersion) : Except Raised (List (CandidateArbitration D)) := do
  require (candidates ≠ []) (.valueError "candidate arbitration requires candidates")
  (CandidateArbitrator.new policy).decideAll
    ((sortOn id (candidates.map (·.clock)).dedup).map (byClock candidates))

end MiniLakehouse
