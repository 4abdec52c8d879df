import MiniLakehouse.Arbitration.Engine

/-!
# Verdicts of a clock

What the loops of `decide` write, as one list: every candidate of the clock with
its verdict.  `arbitrate_spelled` and `arbitrate_unspelled` say what a call
returns and which arbitrator it leaves; everything else follows from the list.
-/

namespace MiniLakehouse

/-- What one call decides about one candidate. -/
inductive Verdict (D : Type) where
  | selected (priority : Nat)
  | upstreamBlocked
  | belowMinimumStrength
  | lowerStrategyPriority (winner : D)
  | symbolCooldown (previous : D)
  | clockCapacity

namespace Verdict

variable {D : Type}

def reason : Verdict D → Option RejectionReason
  | .selected _ => none
  | .upstreamBlocked => some .upstreamBlocked
  | .belowMinimumStrength => some .belowMinimumStrength
  | .lowerStrategyPriority _ => some .lowerStrategyPriority
  | .symbolCooldown _ => some .symbolCooldown
  | .clockCapacity => some .clockCapacity

def priority : Verdict D → Option Nat
  | .selected priority => some priority
  | _ => none

def selectedSha256 : Verdict D → Option D
  | .lowerStrategyPriority winner => some winner
  | .symbolCooldown previous => some previous
  | _ => none

end Verdict

namespace CandidateArbitrator

variable {D : Type} [Hashing D]

/-! ## One result -/

/-- The error of a candidate without a symbol. -/
def unspelled : Raised := .valueError "arbitration symbol must be uppercase"

/-- The result of a verdict. -/
def give (arbitrator : CandidateArbitrator D) (given : BaselineCandidate D × Verdict D) :
    Except Raised (CandidateArbitration D) :=
  arbitrator.result given.1 given.2.reason given.2.priority given.2.selectedSha256

/-- The fields of a verdict's result. -/
def givenFields (arbitrator : CandidateArbitrator D) (rule : CandidateArbitrationRule)
    (given : BaselineCandidate D × Verdict D) : CandidateArbitrationFields D where
  arbitrationVersion := arbitrator.policy.version
  arbitrationConfigurationSha256 := arbitrator.policy.sha256
  candidateVersion := baselineVersion
  candidateSha256 := given.1.sha256
  strategy := given.1.strategy.text
  symbol := given.1.symbol
  tradeDate := given.1.tradeDate
  decisionAt := given.1.decisionAt
  horizonSeconds := rule.horizonSeconds
  strength := given.1.strength
  status := if given.2.reason.isNone then .selected else .rejected
  rejectionReason := given.2.reason
  priority := given.2.priority
  selectedCandidateSha256 :=
    if given.2.reason.isNone then some given.1.sha256 else given.2.selectedSha256

omit [Hashing D] in
theorem findRule_mem {arbitrator : CandidateArbitrator D} {candidate : BaselineCandidate D}
    {rule : CandidateArbitrationRule} (h : arbitrator.findRule candidate = some rule) :
    rule ∈ arbitrator.policy.rules ∧ rule.strategy = candidate.strategy.text :=
  ⟨List.mem_of_find?_eq_some h, by simpa using List.find?_some h⟩

theorem give_eq {arbitrator : CandidateArbitrator D} {given : BaselineCandidate D × Verdict D}
    {rule : CandidateArbitrationRule} (hrule : arbitrator.findRule given.1 = some rule) :
    arbitrator.give given =
      CandidateArbitration.modelValidate (arbitrator.givenFields rule given) := by
  simp only [give, result, CandidateArbitrator.rule, hrule, ok_bind]
  rfl

private theorem baselineVersion_pattern : isVersionName baselineVersion := by decide

private theorem strategy_pattern (strategy : BaselineName) : isStrategyName strategy.text := by
  cases strategy <;> decide

/-- **A spelled candidate's verdict** passes the validator. -/
theorem give_spelled {arbitrator : CandidateArbitrator D}
    {given : BaselineCandidate D × Verdict D} {rule : CandidateArbitrationRule}
    (hrule : arbitrator.findRule given.1 = some rule) (hsymbol : given.1.symbol ≠ "") :
    ∃ given', arbitrator.give given = .ok given' ∧
      given'.toCandidateArbitrationFields = arbitrator.givenFields rule given := by
  have hupper := given.1.symbol_upper.resolve_left hsymbol
  have hstrength := given.1.strength_bounds
  have hhorizon := rule.horizon_bounds
  have hvalid : AllHold (arbitrator.givenFields rule given).checks := by
    obtain ⟨candidate, verdict⟩ := given
    cases verdict <;>
      simp_all [CandidateArbitrationFields.checks, givenFields, Verdict.reason,
        Verdict.priority, Verdict.selectedSha256, RejectionReason.isConflict,
        arbitrator.policy.version_pattern, baselineVersion_pattern, strategy_pattern]
  exact ⟨⟨_, hvalid⟩, by rw [give_eq hrule]; exact validated_of hvalid, rfl⟩

/-- A candidate without a symbol has no result. -/
theorem give_unspelled {arbitrator : CandidateArbitrator D}
    {given : BaselineCandidate D × Verdict D} {rule : CandidateArbitrationRule}
    (hrule : arbitrator.findRule given.1 = some rule) (hsymbol : given.1.symbol = "") :
    arbitrator.give given = .error unspelled := by
  rw [give_eq hrule]
  apply validated_eq_error.mpr
  have hempty : isUpperIdentifier given.1.symbol = false := by rw [hsymbol]; decide
  simp [CandidateArbitrationFields.checks, givenFields, firstFailure, hempty, unspelled,
    arbitrator.policy.version_pattern, baselineVersion_pattern, strategy_pattern]

/-! ## Writing verdicts -/

/-- One entry of the dictionary of decisions. -/
def write (arbitrator : CandidateArbitrator D) (decisions : Decisions D)
    (given : BaselineCandidate D × Verdict D) : Except Raised (Decisions D) := do
  let result ← arbitrator.give given
  return (given.1.sha256, result) :: decisions

/-- Every candidate has a rule. -/
def Configured (arbitrator : CandidateArbitrator D) (candidates : List (BaselineCandidate D)) :
    Prop :=
  ∀ candidate ∈ candidates, (arbitrator.findRule candidate).isSome

omit [Hashing D] in
theorem Configured.sublist {arbitrator : CandidateArbitrator D}
    {candidates fewer : List (BaselineCandidate D)} (h : arbitrator.Configured candidates)
    (hfewer : fewer ⊆ candidates) : arbitrator.Configured fewer :=
  fun candidate hcandidate => h candidate (hfewer hcandidate)

theorem write_spelled {arbitrator : CandidateArbitrator D}
    {verdicts : List (BaselineCandidate D × Verdict D)} (decisions : Decisions D)
    (hrules : arbitrator.Configured (verdicts.map Prod.fst))
    (hspelled : ∀ given ∈ verdicts, given.1.symbol ≠ "") :
    ∃ written, verdicts.foldlM arbitrator.write decisions = .ok written ∧
      ∀ entry, entry ∈ written ↔ entry ∈ decisions ∨
        ∃ given ∈ verdicts, entry.1 = given.1.sha256 ∧ arbitrator.give given = .ok entry.2 := by
  induction verdicts generalizing decisions with
  | nil => exact ⟨decisions, rfl, by simp⟩
  | cons given rest ih =>
      obtain ⟨rule, hrule⟩ := Option.isSome_iff_exists.mp (hrules given.1 (by simp))
      obtain ⟨result, hresult, -⟩ := give_spelled hrule (hspelled given (by simp))
      obtain ⟨written, hwritten, hentries⟩ :=
        ih ((given.1.sha256, result) :: decisions) (hrules.sublist (by simp)) fun later hlater =>
            hspelled later (List.mem_cons_of_mem _ hlater)
      refine ⟨written, ?_, ?_⟩
      · rw [List.foldlM_cons, write, hresult]
        exact hwritten
      · intro entry
        have hfirst : entry = (given.1.sha256, result) ↔
            entry.1 = given.1.sha256 ∧ arbitrator.give given = .ok entry.2 := by
          rw [hresult, Except.ok.injEq, Prod.ext_iff]
          exact and_congr_right' eq_comm
        rw [hentries, List.mem_cons, List.exists_mem_cons_iff, hfirst]
        tauto

theorem write_unspelled {arbitrator : CandidateArbitrator D}
    {verdicts : List (BaselineCandidate D × Verdict D)} {decisions : Decisions D}
    (hrules : arbitrator.Configured (verdicts.map Prod.fst))
    (hunspelled : ∃ given ∈ verdicts, given.1.symbol = "") :
    verdicts.foldlM arbitrator.write decisions = .error unspelled := by
  induction verdicts generalizing decisions with
  | nil => simp at hunspelled
  | cons given rest ih =>
      obtain ⟨rule, hrule⟩ := Option.isSome_iff_exists.mp (hrules given.1 (by simp))
      by_cases hsymbol : given.1.symbol = ""
      · rw [List.foldlM_cons, write, give_unspelled hrule hsymbol]
        rfl
      · obtain ⟨result, hresult, -⟩ := give_spelled hrule hsymbol
        rw [List.foldlM_cons, write, hresult]
        apply ih (hrules.sublist (by simp))
        rw [List.exists_mem_cons_iff] at hunspelled
        exact hunspelled.resolve_left hsymbol

/-! ## The loops as lists of verdicts -/

/-- A candidate that its symbol may put forward. -/
def eligible (arbitrator : CandidateArbitrator D) (candidate : BaselineCandidate D) : Bool :=
  candidate.isCandidate &&
    (arbitrator.findRule candidate).all (·.minimumStrength ≤ candidate.strength)

/-- The verdict on a candidate that is not eligible. -/
def ownVerdict (candidate : BaselineCandidate D) : BaselineCandidate D × Verdict D :=
  (candidate, if candidate.isCandidate then .belowMinimumStrength else .upstreamBlocked)

def eligibleOf (arbitrator : CandidateArbitrator D) (candidates : List (BaselineCandidate D))
    (symbol : String) : List (BaselineCandidate D) :=
  (bySymbol candidates symbol).filter arbitrator.eligible

/-- The verdicts of a symbol that do not depend on other symbols. -/
def earlyVerdicts (arbitrator : CandidateArbitrator D) (candidates : List (BaselineCandidate D))
    (decisionAt : Instant) (symbol : String) : List (BaselineCandidate D × Verdict D) :=
  ((bySymbol candidates symbol).filter (!arbitrator.eligible ·)).map ownVerdict ++
    match arbitrator.coolingFrom symbol decisionAt with
    | some previous =>
        (arbitrator.eligibleOf candidates symbol).map fun item => (item, .symbolCooldown previous)
    | none => []

/-- The winner that a symbol puts forward. -/
def symbolWinner (arbitrator : CandidateArbitrator D) (candidates : List (BaselineCandidate D))
    (decisionAt : Instant) (symbol : String) : Option (RankedWinner D) :=
  match arbitrator.coolingFrom symbol decisionAt with
  | some _ => none
  | none =>
      match sortOn arbitrator.contenderKey (arbitrator.eligibleOf candidates symbol) with
      | [] => none
      | winner :: lowerPriority => some (winner, lowerPriority)

def selectedVerdicts (winner : RankedWinner D × Nat) : List (BaselineCandidate D × Verdict D) :=
  (winner.1.1, .selected winner.2) ::
    winner.1.2.map fun item => (item, .lowerStrategyPriority winner.1.1.sha256)

def crowdedVerdicts (winner : RankedWinner D) : List (BaselineCandidate D × Verdict D) :=
  (winner.1 :: winner.2).map fun item => (item, .clockCapacity)

theorem judge_blocked {arbitrator : CandidateArbitrator D} {item : BaselineCandidate D}
    {rule : CandidateArbitrationRule} (hrule : arbitrator.findRule item = some rule)
    (hnot : arbitrator.eligible item = false) (decisions : Decisions D)
    (found : List (BaselineCandidate D)) :
    arbitrator.judge (decisions, found) item =
      (arbitrator.write decisions (ownVerdict item) >>= fun written => .ok (written, found)) := by
  simp only [judge, CandidateArbitrator.rule, hrule, ok_bind]
  by_cases hcandidate : item.isCandidate
  · have hstrength : item.strength < rule.minimumStrength := by
      simpa [eligible, hrule, hcandidate] using hnot
    simp only [hcandidate, ownVerdict, hstrength, if_true, Bool.not_true, Bool.false_eq_true,
      if_false]
    rfl
  · simp only [hcandidate, ownVerdict, Bool.not_false, if_true, Bool.false_eq_true, if_false]
    rfl

theorem judge_eligible {arbitrator : CandidateArbitrator D} {item : BaselineCandidate D}
    {rule : CandidateArbitrationRule} (hrule : arbitrator.findRule item = some rule)
    (heligible : arbitrator.eligible item = true) (decisions : Decisions D)
    (found : List (BaselineCandidate D)) :
    arbitrator.judge (decisions, found) item = .ok (decisions, found ++ [item]) := by
  obtain ⟨hcandidate, hstrength⟩ : item.isCandidate ∧ rule.minimumStrength ≤ item.strength := by
    simpa [eligible, hrule] using heligible
  simp only [judge, CandidateArbitrator.rule, hrule, ok_bind]
  rw [if_neg (by simp [hcandidate]), if_neg (not_lt.mpr hstrength)]
  rfl

/-- The judged candidates of a symbol. -/
theorem judge_fold {arbitrator : CandidateArbitrator D} {items : List (BaselineCandidate D)}
    (hrules : arbitrator.Configured items) (decisions : Decisions D)
    (found : List (BaselineCandidate D)) :
    items.foldlM arbitrator.judge (decisions, found) =
      (((items.filter (!arbitrator.eligible ·)).map ownVerdict).foldlM arbitrator.write
        decisions >>= fun written => .ok (written, found ++ items.filter arbitrator.eligible)) := by
  induction items generalizing decisions found with
  | nil => simp [pure, Except.pure]
  | cons item rest ih =>
      obtain ⟨rule, hrule⟩ := Option.isSome_iff_exists.mp (hrules item (by simp))
      have hrest := ih (hrules.sublist (by simp))
      rw [List.foldlM_cons]
      cases heligible : arbitrator.eligible item with
      | true =>
          rw [judge_eligible hrule heligible, ok_bind, hrest, List.filter_cons_of_pos heligible,
            List.filter_cons_of_neg (by simp [heligible])]
          simp
      | false =>
          rw [judge_blocked hrule heligible, List.filter_cons_of_pos (by simp [heligible]),
            List.filter_cons_of_neg (by simp [heligible]), List.map_cons, List.foldlM_cons]
          cases arbitrator.write decisions (ownVerdict item) with
          | error raised => rfl
          | ok written => exact hrest written found

/-- One symbol of the first loop writes its early verdicts. -/
theorem contest_eq {arbitrator : CandidateArbitrator D} {candidates : List (BaselineCandidate D)}
    (hrules : arbitrator.Configured candidates) (decisionAt : Instant) (state : Contest D)
    (symbol : String) :
    arbitrator.contest candidates decisionAt state symbol =
      ((arbitrator.earlyVerdicts candidates decisionAt symbol).foldlM arbitrator.write
        state.decisions >>= fun written => .ok ⟨written,
          state.winners ++ (arbitrator.symbolWinner candidates decisionAt symbol).toList⟩) := by
  have hsymbol : arbitrator.Configured (bySymbol candidates symbol) :=
    hrules.sublist (List.filter_subset_self _)
  simp only [contest, judge_fold hsymbol, earlyVerdicts, List.foldlM_append, List.nil_append,
    symbolWinner, eligibleOf]
  cases ((bySymbol candidates symbol).filter (!arbitrator.eligible ·)).map ownVerdict |>.foldlM
    arbitrator.write state.decisions with
  | error raised => rfl
  | ok written =>
      simp only [ok_bind]
      cases arbitrator.coolingFrom symbol decisionAt with
      | some previous =>
          simp only [List.foldlM_map, Option.toList_none, List.append_nil]
          rfl
      | none =>
          cases sortOn arbitrator.contenderKey
            ((bySymbol candidates symbol).filter arbitrator.eligible) with
          | nil => simp [pure, Except.pure]
          | cons winner lower => simp [pure, Except.pure]

/-- **The first loop** writes the early verdicts and finds the winners of the symbols. -/
theorem contest_fold {arbitrator : CandidateArbitrator D}
    {candidates : List (BaselineCandidate D)} (hrules : arbitrator.Configured candidates)
    (decisionAt : Instant) (symbols : List String) (state : Contest D) :
    symbols.foldlM (arbitrator.contest candidates decisionAt) state =
      ((symbols.flatMap (arbitrator.earlyVerdicts candidates decisionAt)).foldlM arbitrator.write
        state.decisions >>= fun written => .ok ⟨written,
          state.winners ++
            symbols.filterMap (arbitrator.symbolWinner candidates decisionAt)⟩) := by
  induction symbols generalizing state with
  | nil => simp [pure, Except.pure]
  | cons symbol rest ih =>
      rw [List.foldlM_cons, contest_eq hrules, List.flatMap_cons, List.foldlM_append]
      cases (arbitrator.earlyVerdicts candidates decisionAt symbol).foldlM arbitrator.write
        state.decisions with
      | error raised => rfl
      | ok written =>
          simp only [ok_bind, ih]
          cases hwinner : arbitrator.symbolWinner candidates decisionAt symbol with
          | none => simp [List.filterMap_cons_none hwinner]
          | some winner => simp [List.filterMap_cons_some hwinner]

theorem select_eq (arbitrator : CandidateArbitrator D) (decisions : Decisions D)
    (winner : RankedWinner D) (priority : Nat) :
    arbitrator.select decisions winner priority =
      (selectedVerdicts (winner, priority)).foldlM arbitrator.write decisions := by
  simp only [selectedVerdicts, List.foldlM_cons, List.foldlM_map, select, write, bind_assoc,
    pure_bind]
  rfl

theorem crowd_eq (arbitrator : CandidateArbitrator D) (decisions : Decisions D)
    (winner : RankedWinner D) :
    arbitrator.crowd decisions winner =
      (crowdedVerdicts winner).foldlM arbitrator.write decisions := by
  rw [crowdedVerdicts, List.foldlM_map]
  rfl

/-- The result of a verdict depends on the policy alone. -/
theorem write_startCooldown (arbitrator : CandidateArbitrator D) (decisionAt : Instant)
    (winner : RankedWinner D) :
    (startCooldown decisionAt arbitrator winner).write = arbitrator.write := rfl

theorem selectAll_fst (decisionAt : Instant) (arbitrator : CandidateArbitrator D)
    (decisions : Decisions D) (winners : List (RankedWinner D × Nat)) :
    (selectAll decisionAt arbitrator decisions winners).1 =
      (winners.flatMap selectedVerdicts).foldlM arbitrator.write decisions := by
  induction winners generalizing arbitrator decisions with
  | nil => rfl
  | cons winner rest ih =>
      obtain ⟨winner, priority⟩ := winner
      rw [selectAll, select_eq, List.flatMap_cons, List.foldlM_append]
      cases (selectedVerdicts (winner, priority)).foldlM arbitrator.write decisions with
      | error raised => rfl
      | ok written =>
          rw [ok_bind, ← write_startCooldown arbitrator decisionAt winner]
          exact ih _ written

/-- **The second loop** starts the cooldowns of the winners before the first that has no
symbol. -/
theorem selectAll_snd {decisionAt : Instant} {arbitrator : CandidateArbitrator D}
    {winners : List (RankedWinner D × Nat)}
    (hrules : arbitrator.Configured ((winners.flatMap selectedVerdicts).map Prod.fst))
    (hsymbols : ∀ winner ∈ winners, ∀ item ∈ winner.1.2, item.symbol = winner.1.1.symbol)
    (decisions : Decisions D) :
    (selectAll decisionAt arbitrator decisions winners).2 =
      ((winners.map Prod.fst).takeWhile (·.1.symbol ≠ "")).foldl (startCooldown decisionAt)
        arbitrator := by
  induction winners generalizing arbitrator decisions with
  | nil => rfl
  | cons winner rest ih =>
      obtain ⟨⟨winner, lower⟩, priority⟩ := winner
      have hfirst : arbitrator.Configured
          ((selectedVerdicts ((winner, lower), priority)).map Prod.fst) :=
        hrules.sublist (by simp)
      rw [selectAll, select_eq, List.map_cons]
      by_cases hsymbol : winner.symbol = ""
      · rw [write_unspelled hfirst ⟨_, List.mem_cons_self, hsymbol⟩,
          List.takeWhile_cons_of_neg (by simp [hsymbol])]
        rfl
      · have hspelled : ∀ given ∈ selectedVerdicts ((winner, lower), priority),
            given.1.symbol ≠ "" := by
          intro given hgiven
          rw [selectedVerdicts, List.mem_cons, List.mem_map] at hgiven
          rcases hgiven with rfl | ⟨item, hitem, rfl⟩
          · exact hsymbol
          · rw [hsymbols _ List.mem_cons_self item hitem]
            exact hsymbol
        obtain ⟨written, hwritten, -⟩ := write_spelled decisions hfirst hspelled
        rw [hwritten, List.takeWhile_cons_of_pos (by simp [hsymbol]), List.foldl_cons]
        apply ih
        · exact hrules.sublist (by simp)
        · exact fun other hother => hsymbols other (List.mem_cons_of_mem _ hother)

/-! ## The verdicts of a clock -/

/-- The winners of a clock in the order of the policy. -/
def ranked (arbitrator : CandidateArbitrator D) (candidates : List (BaselineCandidate D))
    (decisionAt : Instant) : List (RankedWinner D) :=
  sortOn (fun winner => arbitrator.winnerKey winner.1)
    ((symbolsOf candidates).filterMap (arbitrator.symbolWinner candidates decisionAt))

/-- The winners that the clock has room for. -/
def selectedWinners (arbitrator : CandidateArbitrator D)
    (candidates : List (BaselineCandidate D)) (decisionAt : Instant) : List (RankedWinner D) :=
  (arbitrator.ranked candidates decisionAt).take arbitrator.policy.maximumSelectionsPerClock

/-- **The verdicts of a clock**, in the order in which they are written. -/
def verdicts (arbitrator : CandidateArbitrator D) (candidates : List (BaselineCandidate D))
    (decisionAt : Instant) : List (BaselineCandidate D × Verdict D) :=
  (symbolsOf candidates).flatMap (arbitrator.earlyVerdicts candidates decisionAt) ++
    (arbitrator.selectedWinners candidates decisionAt).zipIdx.flatMap selectedVerdicts ++
    ((arbitrator.ranked candidates decisionAt).drop
      arbitrator.policy.maximumSelectionsPerClock).flatMap crowdedVerdicts

omit [Hashing D] in
theorem symbolsOf_nodup (candidates : List (BaselineCandidate D)) :
    (symbolsOf candidates).Nodup :=
  (sortOn_perm id _).nodup_iff.mpr (List.nodup_dedup _)

omit [Hashing D] in
theorem mem_symbolsOf {candidates : List (BaselineCandidate D)} {symbol : String} :
    symbol ∈ symbolsOf candidates ↔ ∃ candidate ∈ candidates, candidate.symbol = symbol := by
  simp [symbolsOf]

omit [Hashing D] in
theorem mem_bySymbol {candidates : List (BaselineCandidate D)} {symbol : String}
    {candidate : BaselineCandidate D} :
    candidate ∈ bySymbol candidates symbol ↔
      candidate ∈ candidates ∧ candidate.symbol = symbol := by
  simp [bySymbol]

/-- The candidates behind a winner, itself first. -/
def members (winner : RankedWinner D) : List (BaselineCandidate D) := winner.1 :: winner.2

theorem symbolWinner_eq_some {arbitrator : CandidateArbitrator D}
    {candidates : List (BaselineCandidate D)} {decisionAt : Instant} {symbol : String}
    {winner : RankedWinner D} :
    arbitrator.symbolWinner candidates decisionAt symbol = some winner ↔
      arbitrator.coolingFrom symbol decisionAt = none ∧
      sortOn arbitrator.contenderKey (arbitrator.eligibleOf candidates symbol) =
        members winner := by
  unfold symbolWinner
  cases arbitrator.coolingFrom symbol decisionAt with
  | some previous => simp
  | none =>
      cases sortOn arbitrator.contenderKey (arbitrator.eligibleOf candidates symbol) with
      | nil => simp [members]
      | cons first rest =>
          obtain ⟨best, lower⟩ := winner
          simp [members]

/-- A symbol's winner is ranked among the symbol's own eligible candidates. -/
theorem mem_of_symbolWinner {arbitrator : CandidateArbitrator D}
    {candidates : List (BaselineCandidate D)} {decisionAt : Instant} {symbol : String}
    {winner : RankedWinner D}
    (h : arbitrator.symbolWinner candidates decisionAt symbol = some winner)
    {item : BaselineCandidate D} (hitem : item ∈ members winner) :
    item ∈ candidates ∧ item.symbol = symbol ∧ arbitrator.eligible item = true := by
  rw [← (symbolWinner_eq_some.mp h).2, mem_sortOn, eligibleOf, List.mem_filter,
    mem_bySymbol] at hitem
  exact ⟨hitem.1.1, hitem.1.2, hitem.2⟩

theorem winner_of_symbolWinner {arbitrator : CandidateArbitrator D}
    {candidates : List (BaselineCandidate D)} {decisionAt : Instant} {symbol : String}
    {winner : RankedWinner D}
    (h : arbitrator.symbolWinner candidates decisionAt symbol = some winner) :
    winner.1 ∈ candidates ∧ winner.1.symbol = symbol ∧ arbitrator.eligible winner.1 = true :=
  mem_of_symbolWinner h List.mem_cons_self

theorem mem_ranked {arbitrator : CandidateArbitrator D}
    {candidates : List (BaselineCandidate D)} {decisionAt : Instant} {winner : RankedWinner D} :
    winner ∈ arbitrator.ranked candidates decisionAt ↔ ∃ symbol ∈ symbolsOf candidates,
      arbitrator.symbolWinner candidates decisionAt symbol = some winner := by
  simp [ranked]

theorem symbol_of_ranked {arbitrator : CandidateArbitrator D}
    {candidates : List (BaselineCandidate D)} {decisionAt : Instant} {winner : RankedWinner D}
    (h : winner ∈ arbitrator.ranked candidates decisionAt) {item : BaselineCandidate D}
    (hitem : item ∈ members winner) : item ∈ candidates ∧ item.symbol = winner.1.symbol := by
  obtain ⟨symbol, -, hwinner⟩ := mem_ranked.mp h
  obtain ⟨hmem, hsymbol, -⟩ := mem_of_symbolWinner hwinner hitem
  obtain ⟨-, hfirst, -⟩ := winner_of_symbolWinner hwinner
  exact ⟨hmem, hsymbol.trans hfirst.symm⟩

/-- **One winner a symbol.** -/
theorem ranked_symbols_nodup (arbitrator : CandidateArbitrator D)
    (candidates : List (BaselineCandidate D)) (decisionAt : Instant) :
    ((arbitrator.ranked candidates decisionAt).map (·.1.symbol)).Nodup := by
  rw [ranked, ((sortOn_perm _ _).map _).nodup_iff, List.map_filterMap]
  apply List.Nodup.filterMap ?_ (symbolsOf_nodup candidates)
  intro symbol symbol' found hfound hfound'
  rw [Option.mem_def, Option.map_eq_some_iff] at hfound hfound'
  obtain ⟨winner, hwinner, rfl⟩ := hfound
  obtain ⟨winner', hwinner', hsame⟩ := hfound'
  obtain ⟨-, hsymbol, -⟩ := winner_of_symbolWinner hwinner
  obtain ⟨-, hsymbol', -⟩ := winner_of_symbolWinner hwinner'
  rw [← hsymbol, ← hsymbol', hsame]

omit [Hashing D] in
theorem bySymbol_groups (candidates : List (BaselineCandidate D)) :
    ((symbolsOf candidates).flatMap (bySymbol candidates)).Perm candidates :=
  groups_perm (fun candidate : BaselineCandidate D => candidate.symbol)
    (symbolsOf_nodup candidates) fun candidate hcandidate =>
      mem_symbolsOf.mpr ⟨candidate, hcandidate, rfl⟩

theorem symbol_verdicts_perm (arbitrator : CandidateArbitrator D)
    (candidates : List (BaselineCandidate D)) (decisionAt : Instant) (symbol : String) :
    ((arbitrator.earlyVerdicts candidates decisionAt symbol).map Prod.fst ++
      (arbitrator.symbolWinner candidates decisionAt symbol).toList.flatMap members).Perm
        (bySymbol candidates symbol) := by
  have hown : ((bySymbol candidates symbol).filter (!arbitrator.eligible ·)).map
      (Prod.fst ∘ ownVerdict) = (bySymbol candidates symbol).filter (!arbitrator.eligible ·) :=
    List.map_id _
  have hparts := List.filter_append_perm (!arbitrator.eligible ·) (bySymbol candidates symbol)
  simp only [Bool.not_not] at hparts
  rw [earlyVerdicts, List.map_append, List.map_map, hown, List.append_assoc]
  refine (List.Perm.append_left _ ?_).trans hparts
  cases hcooling : arbitrator.coolingFrom symbol decisionAt with
  | some previous =>
      simp [symbolWinner, hcooling, eligibleOf, Function.comp_def]
  | none =>
      have hsorted := sortOn_perm arbitrator.contenderKey
        (arbitrator.eligibleOf candidates symbol)
      simp only [symbolWinner, hcooling, List.map_nil, List.nil_append]
      cases hsort : sortOn arbitrator.contenderKey (arbitrator.eligibleOf candidates symbol) with
      | nil =>
          rw [hsort] at hsorted
          exact hsorted
      | cons first rest =>
          rw [hsort] at hsorted
          simpa [members, eligibleOf] using hsorted

/-- **Every candidate has one verdict.** -/
theorem verdicts_perm (arbitrator : CandidateArbitrator D)
    (candidates : List (BaselineCandidate D)) (decisionAt : Instant) :
    ((arbitrator.verdicts candidates decisionAt).map Prod.fst).Perm candidates := by
  have hselected : ((arbitrator.selectedWinners candidates decisionAt).zipIdx.flatMap
      selectedVerdicts).map Prod.fst =
        (arbitrator.selectedWinners candidates decisionAt).flatMap members := by
    have hfirst : ∀ winner : RankedWinner D × Nat,
        (selectedVerdicts winner).map Prod.fst = members winner.1 := by
      intro winner
      simp [selectedVerdicts, members, Function.comp_def]
    rw [List.map_flatMap, List.flatMap_congr fun winner _ => hfirst winner,
      ← List.flatMap_map, List.zipIdx_map_fst]
  have hcrowded : (((arbitrator.ranked candidates decisionAt).drop
      arbitrator.policy.maximumSelectionsPerClock).flatMap crowdedVerdicts).map Prod.fst =
        ((arbitrator.ranked candidates decisionAt).drop
          arbitrator.policy.maximumSelectionsPerClock).flatMap members := by
    have hlast : ∀ winner : RankedWinner D,
        (crowdedVerdicts winner).map Prod.fst = members winner := by
      intro winner
      simp [crowdedVerdicts, members, Function.comp_def]
    rw [List.map_flatMap, List.flatMap_congr fun winner _ => hlast winner]
  have hranked : ((arbitrator.ranked candidates decisionAt).flatMap members).Perm
      ((symbolsOf candidates).flatMap fun symbol =>
        (arbitrator.symbolWinner candidates decisionAt symbol).toList.flatMap members) := by
    have hflat : ∀ symbols : List String,
        (symbols.filterMap (arbitrator.symbolWinner candidates decisionAt)).flatMap members =
          symbols.flatMap fun symbol =>
            (arbitrator.symbolWinner candidates decisionAt symbol).toList.flatMap members := by
      intro symbols
      rw [List.filterMap_eq_flatMap_toList, List.flatMap_assoc]
    rw [← hflat]
    exact (sortOn_perm _ _).flatMap_right members
  rw [verdicts, List.map_append, List.map_append, hselected, hcrowded, List.append_assoc,
    selectedWinners, ← List.flatMap_append, List.take_append_drop, List.map_flatMap]
  refine (hranked.append_left _).trans ?_
  refine (List.flatMap_append_perm _ _ _).trans ?_
  refine List.Perm.trans ?_ (bySymbol_groups candidates)
  exact List.Perm.flatMap_left _ fun symbol _ =>
    arbitrator.symbol_verdicts_perm candidates decisionAt symbol

/-- A winner that the clock selects outranks candidates of its own symbol alone. -/
theorem selected_symbols {arbitrator : CandidateArbitrator D}
    {candidates : List (BaselineCandidate D)} {decisionAt : Instant} :
    ∀ winner ∈ (arbitrator.selectedWinners candidates decisionAt).zipIdx,
      ∀ item ∈ winner.1.2, item.symbol = winner.1.1.symbol := by
  intro winner hwinner item hitem
  have hranked := List.mem_of_mem_take (List.fst_mem_of_mem_zipIdx hwinner)
  exact (symbol_of_ranked hranked (List.mem_cons_of_mem _ hitem)).2

/-- A candidate and the result of its verdict. -/
def Given (arbitrator : CandidateArbitrator D) (candidates : List (BaselineCandidate D))
    (decisionAt : Instant) (candidate : BaselineCandidate D) (given : CandidateArbitration D) :
    Prop :=
  ∃ verdict, (candidate, verdict) ∈ arbitrator.verdicts candidates decisionAt ∧
    arbitrator.give (candidate, verdict) = .ok given

/-- The arbitrator once the winners' cooldowns have started. -/
def started (arbitrator : CandidateArbitrator D) (decisionAt : Instant)
    (winners : List (RankedWinner D)) : CandidateArbitrator D :=
  winners.foldl (startCooldown decisionAt) arbitrator

section

variable {arbitrator : CandidateArbitrator D} {candidates : List (BaselineCandidate D)}
  {decisionAt : Instant}

theorem arbitrate_eq (hrules : arbitrator.Configured candidates) :
    arbitrator.arbitrate candidates decisionAt =
      match ((symbolsOf candidates).flatMap (arbitrator.earlyVerdicts candidates
        decisionAt)).foldlM arbitrator.write [] with
      | .error raised => (.error raised, arbitrator)
      | .ok decisions =>
          let selected := selectAll decisionAt arbitrator decisions
            (arbitrator.selectedWinners candidates decisionAt).zipIdx
          (selected.1 >>= fun decisions => arbitrator.report candidates decisions
            ((arbitrator.ranked candidates decisionAt).drop
              arbitrator.policy.maximumSelectionsPerClock), selected.2) := by
  rw [arbitrate, contest_fold hrules]
  cases ((symbolsOf candidates).flatMap (arbitrator.earlyVerdicts candidates
    decisionAt)).foldlM arbitrator.write [] with
  | error raised => rfl
  | ok decisions =>
      simp only [ok_bind, List.nil_append]
      rw [← ranked, ← selectedWinners]
      obtain ⟨selected, after⟩ := selectAll decisionAt arbitrator decisions
        (arbitrator.selectedWinners candidates decisionAt).zipIdx
      cases selected with
      | error raised => rfl
      | ok written => rfl

theorem report_eq (decisions : Decisions D) (crowded : List (RankedWinner D)) :
    arbitrator.report candidates decisions crowded =
      ((crowded.flatMap crowdedVerdicts).foldlM arbitrator.write decisions >>= fun decisions =>
        (sortOn arbitrator.resultKey candidates).mapM (decided decisions)) := by
  have hcrowd : crowded.foldlM arbitrator.crowd decisions =
      (crowded.flatMap crowdedVerdicts).foldlM arbitrator.write decisions := by
    induction crowded generalizing decisions with
    | nil => rfl
    | cons winner rest ih =>
        rw [List.foldlM_cons, List.flatMap_cons, List.foldlM_append, arbitrator.crowd_eq]
        cases (crowdedVerdicts winner).foldlM arbitrator.write decisions with
        | error raised => rfl
        | ok written => exact ih written
  rw [report, hcrowd]

/-- The results of a call, as far as its writes succeed. -/
theorem arbitrate_fst (hrules : arbitrator.Configured candidates) :
    (arbitrator.arbitrate candidates decisionAt).1 =
      ((arbitrator.verdicts candidates decisionAt).foldlM arbitrator.write [] >>=
        fun decisions => (sortOn arbitrator.resultKey candidates).mapM (decided decisions)) := by
  rw [arbitrate_eq hrules, verdicts, List.foldlM_append, List.foldlM_append]
  cases ((symbolsOf candidates).flatMap (arbitrator.earlyVerdicts candidates
    decisionAt)).foldlM arbitrator.write [] with
  | error raised => rfl
  | ok decisions =>
      simp only [ok_bind, selectAll_fst]
      cases ((arbitrator.selectedWinners candidates decisionAt).zipIdx.flatMap
        selectedVerdicts).foldlM arbitrator.write decisions with
      | error raised => rfl
      | ok written =>
          simp only [ok_bind]
          exact report_eq written _

theorem verdicts_configured (decisionAt : Instant) (hrules : arbitrator.Configured candidates) :
    arbitrator.Configured ((arbitrator.verdicts candidates decisionAt).map Prod.fst) :=
  hrules.sublist (arbitrator.verdicts_perm candidates decisionAt).subset

theorem mem_verdicts {given : BaselineCandidate D × Verdict D}
    (h : given ∈ arbitrator.verdicts candidates decisionAt) : given.1 ∈ candidates :=
  (arbitrator.verdicts_perm candidates decisionAt).subset (List.mem_map_of_mem h)

/-- The verdict of a candidate is unique. -/
theorem verdict_unique (hunique : (candidates.map (·.sha256)).Nodup)
    {candidate : BaselineCandidate D} {verdict verdict' : Verdict D}
    (h : (candidate, verdict) ∈ arbitrator.verdicts candidates decisionAt)
    (h' : (candidate, verdict') ∈ arbitrator.verdicts candidates decisionAt) :
    verdict = verdict' := by
  have hcandidates := List.Nodup.of_map _ hunique
  have hfirst := (arbitrator.verdicts_perm candidates decisionAt).nodup_iff.mpr hcandidates
  exact (Prod.mk.inj (eq_of_key_eq Prod.fst hfirst h h' rfl)).2

theorem Given.unique (hunique : (candidates.map (·.sha256)).Nodup)
    {candidate : BaselineCandidate D} {given given' : CandidateArbitration D}
    (h : arbitrator.Given candidates decisionAt candidate given)
    (h' : arbitrator.Given candidates decisionAt candidate given') : given = given' := by
  obtain ⟨verdict, hverdict, hgiven⟩ := h
  obtain ⟨verdict', hverdict', hgiven'⟩ := h'
  obtain rfl := verdict_unique hunique hverdict hverdict'
  exact Except.ok.inj (hgiven.symm.trans hgiven')

/-- The verdict that a candidate's dictionary entry holds. -/
theorem decided_given (hrules : arbitrator.Configured candidates)
    (hunique : (candidates.map (·.sha256)).Nodup) {written : Decisions D}
    (hentries : ∀ entry, entry ∈ written ↔ ∃ given ∈ arbitrator.verdicts candidates decisionAt,
      entry.1 = given.1.sha256 ∧ arbitrator.give given = .ok entry.2)
    {candidate : BaselineCandidate D} (hcandidate : candidate ∈ candidates)
    (hspelled : candidate.symbol ≠ "") :
    ∃ given, decided written candidate = .ok given ∧
      arbitrator.Given candidates decisionAt candidate given := by
  obtain ⟨verdict, hverdict, rfl⟩ := List.mem_map.mp
    ((arbitrator.verdicts_perm candidates decisionAt).mem_iff.mpr hcandidate)
  obtain ⟨rule, hrule⟩ := Option.isSome_iff_exists.mp (hrules _ hcandidate)
  obtain ⟨given, hgiven, -⟩ := give_spelled hrule hspelled
  have hentry : (verdict.1.sha256, given) ∈ written :=
    (hentries _).mpr ⟨verdict, hverdict, rfl, hgiven⟩
  cases hfind : written.find? (·.1 == verdict.1.sha256) with
  | none => simpa using List.find?_eq_none.mp hfind _ hentry
  | some entry =>
      obtain ⟨verdict', hverdict', hsha, hgiven'⟩ :=
        (hentries entry).mp (List.mem_of_find?_eq_some hfind)
      have hkey : entry.1 = verdict.1.sha256 := by simpa using List.find?_some hfind
      have hsame : verdict'.1 = verdict.1 := eq_of_key_eq (·.sha256) hunique
        (mem_verdicts hverdict') hcandidate (hsha.symm.trans hkey)
      refine ⟨entry.2, by rw [decided, hfind], verdict'.2, ?_, ?_⟩
      · rw [← hsame]
        exact hverdict'
      · rw [← hsame]
        exact hgiven'

/-- The early verdicts are verdicts of candidates with the symbol. -/
theorem mem_earlyVerdicts {symbol : String} {given : BaselineCandidate D × Verdict D}
    (h : given ∈ arbitrator.earlyVerdicts candidates decisionAt symbol) :
    given.1 ∈ candidates ∧ given.1.symbol = symbol :=
  mem_bySymbol.mp ((arbitrator.symbol_verdicts_perm candidates decisionAt symbol).subset
    (List.mem_append_left _ (List.mem_map_of_mem h)))

theorem early_configured (decisionAt : Instant) (hrules : arbitrator.Configured candidates) :
    arbitrator.Configured (((symbolsOf candidates).flatMap
      (arbitrator.earlyVerdicts candidates decisionAt)).map Prod.fst) := by
  apply hrules.sublist
  intro candidate hcandidate
  obtain ⟨given, hgiven, rfl⟩ := List.mem_map.mp hcandidate
  obtain ⟨symbol, -, hearly⟩ := List.mem_flatMap.mp hgiven
  exact (mem_earlyVerdicts hearly).1

/-- The arbitrator after the selections, the first loop having raised nothing. -/
theorem arbitrate_snd (hrules : arbitrator.Configured candidates)
    (hspelled : ∀ given ∈ (symbolsOf candidates).flatMap
      (arbitrator.earlyVerdicts candidates decisionAt), given.1.symbol ≠ "") :
    (arbitrator.arbitrate candidates decisionAt).2 = arbitrator.started decisionAt
      ((arbitrator.selectedWinners candidates decisionAt).takeWhile (·.1.symbol ≠ "")) := by
  obtain ⟨decisions, hdecisions, -⟩ := write_spelled []
    (early_configured decisionAt hrules) hspelled
  have hselected : arbitrator.Configured (((arbitrator.selectedWinners candidates
      decisionAt).zipIdx.flatMap selectedVerdicts).map Prod.fst) := by
    apply (verdicts_configured decisionAt hrules).sublist
    apply List.map_subset
    intro given hgiven
    exact List.mem_append_left _ (List.mem_append_right _ hgiven)
  rw [arbitrate_eq hrules, hdecisions]
  simp only
  rw [selectAll_snd hselected selected_symbols, List.zipIdx_map_fst, started]

/-- **A call whose candidates all have a symbol** returns the results of their verdicts
and starts the cooldowns of the winners that it selects. -/
theorem arbitrate_spelled (decisionAt : Instant)
    (hrules : arbitrator.Configured candidates)
    (hunique : (candidates.map (·.sha256)).Nodup)
    (hspelled : ∀ candidate ∈ candidates, candidate.symbol ≠ "") :
    (∃ results, (arbitrator.arbitrate candidates decisionAt).1 = .ok results ∧
      List.Forall₂ (arbitrator.Given candidates decisionAt)
        (sortOn arbitrator.resultKey candidates) results) ∧
    (arbitrator.arbitrate candidates decisionAt).2 =
      arbitrator.started decisionAt (arbitrator.selectedWinners candidates decisionAt) := by
  obtain ⟨written, hwritten, hentries⟩ := write_spelled []
    (verdicts_configured decisionAt hrules) fun given hgiven =>
      hspelled _ (mem_verdicts hgiven)
  constructor
  · have hdecided : ∀ candidate ∈ sortOn arbitrator.resultKey candidates,
        ∃ given, decided written candidate = .ok given ∧
          arbitrator.Given candidates decisionAt candidate given := by
      intro candidate hcandidate
      have hmem := mem_sortOn.mp hcandidate
      exact decided_given hrules hunique (by simpa using hentries) hmem (hspelled _ hmem)
    obtain ⟨results, hresults⟩ := mapM_total fun candidate hcandidate =>
      (hdecided candidate hcandidate).imp fun _ h => h.1
    refine ⟨results, by rw [arbitrate_fst hrules, hwritten, ok_bind, hresults], ?_⟩
    have hpairs := (List.forall₂_and_left _ _).mpr ⟨hdecided, mapM_eq_ok.mp hresults⟩
    refine hpairs.imp ?_
    rintro candidate result ⟨⟨given, hgiven, hverdict⟩, hresult⟩
    obtain rfl := Except.ok.inj (hgiven.symm.trans hresult)
    exact hverdict
  · rw [arbitrate_snd hrules]
    · congr 1
      apply List.takeWhile_eq_self_iff.mpr
      intro winner hwinner
      have hmem := (symbol_of_ranked (List.mem_of_mem_take hwinner) List.mem_cons_self).1
      simpa using hspelled _ hmem
    · intro given hgiven
      obtain ⟨symbol, -, hearly⟩ := List.mem_flatMap.mp hgiven
      exact hspelled _ (mem_earlyVerdicts hearly).1

/-- **A call with a candidate that has no symbol** raises, and leaves behind the cooldowns
of the winners selected before it. -/
theorem arbitrate_unspelled (decisionAt : Instant)
    (hrules : arbitrator.Configured candidates)
    (hunspelled : ∃ candidate ∈ candidates, candidate.symbol = "") :
    (arbitrator.arbitrate candidates decisionAt).1 = .error unspelled ∧
    (arbitrator.arbitrate candidates decisionAt).2 =
      if arbitrator.earlyVerdicts candidates decisionAt "" = [] then
        arbitrator.started decisionAt
          ((arbitrator.selectedWinners candidates decisionAt).takeWhile (·.1.symbol ≠ ""))
      else arbitrator := by
  obtain ⟨candidate, hcandidate, hsymbol⟩ := hunspelled
  constructor
  · obtain ⟨given, hgiven, rfl⟩ := List.mem_map.mp
      ((arbitrator.verdicts_perm candidates decisionAt).mem_iff.mpr hcandidate)
    rw [arbitrate_fst hrules, write_unspelled (verdicts_configured decisionAt hrules) ⟨given, hgiven, hsymbol⟩]
    rfl
  · split
    · next hnone =>
        apply arbitrate_snd hrules
        intro given hgiven hempty
        obtain ⟨symbol, -, hearly⟩ := List.mem_flatMap.mp hgiven
        rw [← (mem_earlyVerdicts hearly).2, hempty, hnone] at hearly
        cases hearly
    · next hsome =>
        obtain ⟨given, hgiven⟩ := List.exists_mem_of_ne_nil _ hsome
        have hraised : ((symbolsOf candidates).flatMap (arbitrator.earlyVerdicts candidates
            decisionAt)).foldlM arbitrator.write [] = .error unspelled := by
          apply write_unspelled (early_configured decisionAt hrules)
          refine ⟨given, List.mem_flatMap.mpr ⟨"", ?_, hgiven⟩, (mem_earlyVerdicts hgiven).2⟩
          exact mem_symbolsOf.mpr ⟨candidate, hcandidate, hsymbol⟩
        rw [arbitrate_eq hrules, hraised]

end

end CandidateArbitrator

end MiniLakehouse
