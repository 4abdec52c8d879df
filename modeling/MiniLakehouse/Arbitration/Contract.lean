import MiniLakehouse.Arbitration.Verdicts
import MiniLakehouse.Configuration.Trading

/-!
# The contract of arbitration

What every accepted call returns, what holds over a whole run of calls, and
which calls leave the arbitrator as it was.  `BaselineCandidate` accepts an
empty symbol and `CandidateArbitration` does not, so that a call can pass the
guards of `decide` and still raise, with its clock already noted.
-/

namespace MiniLakehouse

namespace CandidateArbitrator

variable {D : Type} [Hashing D] {arbitrator : CandidateArbitrator D}
  {candidates : List (BaselineCandidate D)} {clock : Day ×ₗ Instant}

/-- The guards of `decide`. -/
structure Completes (arbitrator : CandidateArbitrator D) (candidates : List (BaselineCandidate D))
    (clock : Day ×ₗ Instant) : Prop where
  nonempty : candidates ≠ []
  one_clock : ∀ item ∈ candidates, item.clock = clock
  increasing : ∀ last ∈ arbitrator.lastClock, last < clock
  covered : arbitrator.policy.contains (ofLex clock).1
  version : baselineVersion = arbitrator.policy.candidateVersion
  unique : (candidates.map (·.sha256)).Nodup
  matrix : arbitrator.CompleteMatrix candidates

theorem checkClock_eq_ok :
    arbitrator.checkClock candidates = .ok clock ↔ arbitrator.Completes candidates clock := by
  cases candidates with
  | nil =>
      constructor
      · intro h
        cases h
      · intro h
        exact absurd rfl h.nonempty
  | cons first rest =>
      simp only [checkClock, bind_eq_ok, require_eq_ok, pure_eq_ok]
      constructor
      · rintro ⟨_, hone, _, hlast, _, hcovered, _, hversion, _, hunique, _, hmatrix, rfl⟩
        exact ⟨by simp, by simpa using hone, hlast, hcovered, hversion, hunique, hmatrix⟩
      · intro h
        obtain rfl := h.one_clock first (by simp)
        exact ⟨(), fun item hitem => h.one_clock item (List.mem_cons_of_mem _ hitem), (),
          h.increasing, (), h.covered, (), h.version, (), h.unique, (), h.matrix, rfl⟩

theorem Completes.configured (h : arbitrator.Completes candidates clock) :
    arbitrator.Configured candidates := by
  intro candidate hcandidate
  have hsymbol : candidate.symbol ∈ symbolsOf candidates :=
    mem_symbolsOf.mpr ⟨candidate, hcandidate, rfl⟩
  obtain ⟨-, -, hknown⟩ := h.matrix _ hsymbol
  obtain ⟨rule, hrule, hstrategy⟩ := hknown candidate (mem_bySymbol.mpr ⟨hcandidate, rfl⟩)
  rw [findRule, List.find?_isSome]
  exact ⟨rule, hrule, by simp [hstrategy]⟩

/-- The arbitrator once the clock of a call has been noted. -/
def noted (arbitrator : CandidateArbitrator D) (clock : Day ×ₗ Instant) :
    CandidateArbitrator D :=
  { arbitrator with lastClock := some clock }

theorem decide_refused {raised : Raised} (h : arbitrator.checkClock candidates = .error raised) :
    arbitrator.decide candidates = (.error raised, arbitrator) := by
  rw [decide, h]

theorem Completes.decide (h : arbitrator.Completes candidates clock) :
    arbitrator.decide candidates =
      (arbitrator.noted clock).arbitrate candidates (ofLex clock).2 := by
  rw [CandidateArbitrator.decide, checkClock_eq_ok.mpr h]
  rfl

/-- The guards refuse the call, or all of its candidates have a symbol. -/
def Meets (arbitrator : CandidateArbitrator D) (candidates : List (BaselineCandidate D)) : Prop :=
  (∀ clock, ¬arbitrator.Completes candidates clock) ∨
    ∀ candidate ∈ candidates, candidate.symbol ≠ ""

/-! ## Cooldowns -/

@[simp] theorem started_policy (decisionAt : Instant) (winners : List (RankedWinner D)) :
    (arbitrator.started decisionAt winners).policy = arbitrator.policy := by
  induction winners generalizing arbitrator with
  | nil => rfl
  | cons winner rest ih => exact ih

@[simp] theorem started_lastClock (decisionAt : Instant) (winners : List (RankedWinner D)) :
    (arbitrator.started decisionAt winners).lastClock = arbitrator.lastClock := by
  induction winners generalizing arbitrator with
  | nil => rfl
  | cons winner rest ih => exact ih

/-- A symbol without a winner keeps its last selection. -/
theorem started_other (arbitrator : CandidateArbitrator D) (decisionAt : Instant)
    {winners : List (RankedWinner D)} {symbol : String}
    (h : ∀ winner ∈ winners, winner.1.symbol ≠ symbol) :
    (arbitrator.started decisionAt winners).lastSelected symbol =
      arbitrator.lastSelected symbol := by
  induction winners generalizing arbitrator with
  | nil => rfl
  | cons winner rest ih =>
      have hrest := ih (startCooldown decisionAt arbitrator winner)
        fun other hother => h other (List.mem_cons_of_mem _ hother)
      have hdiffer := h winner List.mem_cons_self
      exact hrest.trans (Function.update_of_ne hdiffer.symm _ _)

/-- A winner is its symbol's last selection. -/
theorem started_winner {decisionAt : Instant} {winners : List (RankedWinner D)}
    (hunique : (winners.map (·.1.symbol)).Nodup) {winner : RankedWinner D}
    (h : winner ∈ winners) :
    (arbitrator.started decisionAt winners).lastSelected winner.1.symbol =
      some (decisionAt, winner.1.sha256) := by
  induction winners generalizing arbitrator with
  | nil => cases h
  | cons first rest ih =>
      obtain ⟨hnot, hrest⟩ := List.nodup_cons.mp hunique
      rcases List.mem_cons.mp h with rfl | hlater
      · have hothers : ∀ other ∈ rest, other.1.symbol ≠ winner.1.symbol :=
          fun other hother hsame => hnot (List.mem_map.mpr ⟨other, hother, hsame⟩)
        have hkept := started_other (startCooldown decisionAt arbitrator winner) decisionAt hothers
        exact hkept.trans (Function.update_self _ _ _)
      · exact ih hrest hlater

/-! ## Accepted calls -/

theorem give_fields {given : BaselineCandidate D × Verdict D} {rule : CandidateArbitrationRule}
    {result : CandidateArbitration D} (hrule : arbitrator.findRule given.1 = some rule)
    (h : arbitrator.give given = .ok result) :
    result.toCandidateArbitrationFields = arbitrator.givenFields rule given := by
  rw [give_eq hrule] at h
  obtain ⟨hvalid, rfl⟩ := validated_eq_ok.mp h
  rfl

/-- The selected candidates are the winners that the clock has room for, by position. -/
theorem selected_iff {decisionAt : Instant} {candidate : BaselineCandidate D} {priority : Nat} :
    (candidate, .selected priority) ∈ arbitrator.verdicts candidates decisionAt ↔
      ∃ winner, (arbitrator.selectedWinners candidates decisionAt)[priority]? = some winner ∧
        winner.1 = candidate := by
  constructor
  · intro h
    rw [verdicts, List.mem_append, List.mem_append, List.mem_flatMap, List.mem_flatMap,
      List.mem_flatMap] at h
    rcases h with (⟨symbol, -, hearly⟩ | ⟨⟨winner, position⟩, hwinner, hselected⟩) |
      ⟨winner, -, hcrowded⟩
    · rw [earlyVerdicts, List.mem_append] at hearly
      rcases hearly with hown | hcooling
      · obtain ⟨item, -, hitem⟩ := List.mem_map.mp hown
        obtain ⟨-, hverdict⟩ := Prod.mk.inj hitem
        split at hverdict <;> cases hverdict
      · split at hcooling
        · obtain ⟨item, -, hitem⟩ := List.mem_map.mp hcooling
          cases hitem
        · cases hcooling
    · rw [selectedVerdicts, List.mem_cons, List.mem_map] at hselected
      rcases hselected with hfirst | ⟨item, -, hitem⟩
      · obtain ⟨rfl, hpriority⟩ := Prod.mk.inj hfirst
        obtain rfl := Verdict.selected.inj hpriority
        exact ⟨winner, List.mk_mem_zipIdx_iff_getElem?.mp hwinner, rfl⟩
      · cases hitem
    · obtain ⟨item, -, hitem⟩ := List.mem_map.mp hcrowded
      cases hitem
  · rintro ⟨winner, hwinner, rfl⟩
    apply List.mem_append_left
    apply List.mem_append_right
    exact List.mem_flatMap.mpr ⟨(winner, priority), List.mk_mem_zipIdx_iff_getElem?.mpr hwinner,
      List.mem_cons_self⟩

/-- A cooldown rejection names the selection that its symbol cools down from. -/
theorem cooling_of_verdict {decisionAt : Instant} {candidate : BaselineCandidate D} {previous : D}
    (h : (candidate, .symbolCooldown previous) ∈ arbitrator.verdicts candidates decisionAt) :
    arbitrator.coolingFrom candidate.symbol decisionAt = some previous := by
  rw [verdicts, List.mem_append, List.mem_append, List.mem_flatMap, List.mem_flatMap,
    List.mem_flatMap] at h
  rcases h with (⟨symbol, -, hearly⟩ | ⟨winner, -, hselected⟩) | ⟨winner, -, hcrowded⟩
  · obtain ⟨-, rfl⟩ := mem_earlyVerdicts hearly
    rw [earlyVerdicts, List.mem_append] at hearly
    rcases hearly with hown | hcooling
    · obtain ⟨item, -, hitem⟩ := List.mem_map.mp hown
      obtain ⟨-, hverdict⟩ := Prod.mk.inj hitem
      split at hverdict <;> cases hverdict
    · split at hcooling
      · next hfrom =>
          obtain ⟨item, -, hitem⟩ := List.mem_map.mp hcooling
          cases hitem
          exact hfrom
      · cases hcooling
  · rw [selectedVerdicts, List.mem_cons, List.mem_map] at hselected
    rcases hselected with hfirst | ⟨item, -, hitem⟩
    · cases hfirst
    · cases hitem
  · obtain ⟨item, -, hitem⟩ := List.mem_map.mp hcrowded
    cases hitem

/-- An accepted call: its guards pass, its candidates have symbols, it returns the results of
the verdicts and starts the cooldowns of the selected winners. -/
theorem accepted {results : List (CandidateArbitration D)}
    (h : (arbitrator.decide candidates).1 = .ok results) :
    ∃ clock, arbitrator.Completes candidates clock ∧
      (∀ candidate ∈ candidates, candidate.symbol ≠ "") ∧
      List.Forall₂ ((arbitrator.noted clock).Given candidates (ofLex clock).2)
        (sortOn arbitrator.resultKey candidates) results ∧
      (arbitrator.decide candidates).2 = (arbitrator.noted clock).started (ofLex clock).2
        ((arbitrator.noted clock).selectedWinners candidates (ofLex clock).2) := by
  cases hclock : arbitrator.checkClock candidates with
  | error raised => simp [decide_refused hclock] at h
  | ok clock =>
      have hcompletes := checkClock_eq_ok.mp hclock
      rw [hcompletes.decide] at h ⊢
      have hrules : (arbitrator.noted clock).Configured candidates := hcompletes.configured
      have hspelled : ∀ candidate ∈ candidates, candidate.symbol ≠ "" := by
        by_contra hnot
        obtain ⟨candidate, hcandidate, hempty⟩ : ∃ candidate ∈ candidates,
            candidate.symbol = "" := by simpa using hnot
        have hraised := arbitrate_unspelled (ofLex clock).2 hrules
          ⟨candidate, hcandidate, hempty⟩
        rw [hraised.1] at h
        cases h
      obtain ⟨⟨given, hgiven, hverdicts⟩, hafter⟩ :=
        arbitrate_spelled (ofLex clock).2 hrules hcompletes.unique hspelled
      obtain rfl := Except.ok.inj (hgiven.symm.trans h)
      exact ⟨clock, hcompletes, hspelled, hverdicts, hafter⟩

/-- **A call that raises** leaves the arbitrator as it was exactly where its guards
refuse it or all candidates have a symbol. -/
theorem raised_unchanged_iff {raised : Raised}
    (h : (arbitrator.decide candidates).1 = .error raised) :
    (arbitrator.decide candidates).2 = arbitrator ↔ arbitrator.Meets candidates := by
  cases hclock : arbitrator.checkClock candidates with
  | error refused =>
      have hnone : ∀ clock, ¬arbitrator.Completes candidates clock := by
        intro clock hcompletes
        rw [checkClock_eq_ok.mpr hcompletes] at hclock
        cases hclock
      simp [decide_refused hclock, Meets, hnone]
  | ok clock =>
      have hcompletes := checkClock_eq_ok.mp hclock
      rw [hcompletes.decide] at h ⊢
      have hrules : (arbitrator.noted clock).Configured candidates := hcompletes.configured
      constructor
      · intro hsame
        have hnoted : ((arbitrator.noted clock).arbitrate candidates (ofLex clock).2).2.lastClock =
            some clock := by
          by_cases hspelled : ∀ candidate ∈ candidates, candidate.symbol ≠ ""
          · rw [(arbitrate_spelled _ hrules hcompletes.unique hspelled).2, started_lastClock]
            rfl
          · rw [(arbitrate_unspelled _ hrules (by simpa using hspelled)).2]
            split
            · rw [started_lastClock]
              rfl
            · rfl
        rw [hsame] at hnoted
        exact absurd (hcompletes.increasing clock hnoted) (lt_irrefl _)
      · rintro (hrefused | hspelled)
        · exact absurd hcompletes (hrefused clock)
        · obtain ⟨⟨given, hgiven, -⟩, -⟩ :=
            arbitrate_spelled (ofLex clock).2 hrules hcompletes.unique hspelled
          rw [hgiven] at h
          cases h

/-! ## The contract of one call -/

/-- The results carry the lineage of their candidates. -/
def SameLineage (candidate : BaselineCandidate D) (result : CandidateArbitration D) : Prop :=
  result.candidateSha256 = candidate.sha256 ∧ result.strategy = candidate.strategy.text ∧
    result.symbol = candidate.symbol ∧ result.tradeDate = candidate.tradeDate ∧
    result.decisionAt = candidate.decisionAt ∧ result.strength = candidate.strength

/-- What an accepted call returns: one result for every candidate, the selected ones being
winners of their own symbols in the policy's order, numbered from zero. -/
structure Contract (arbitrator : CandidateArbitrator D) (candidates : List (BaselineCandidate D))
    (results : List (CandidateArbitration D)) : Prop where
  distinct : (candidates.map (·.sha256)).Nodup
  one_each : (results.map (·.candidateSha256)).Perm (candidates.map (·.sha256))
  lineage : ∀ result ∈ results, ∃ candidate ∈ candidates, SameLineage candidate result
  selections : ∃ winners : List (BaselineCandidate D), winners ⊆ candidates ∧
    winners.length ≤ arbitrator.policy.maximumSelectionsPerClock ∧
    (winners.map (·.symbol)).Nodup ∧
    winners.Pairwise (fun before after => arbitrator.winnerKey before < arbitrator.winnerKey after) ∧
    (∀ position winner, winners[position]? = some winner → ∃ result ∈ results,
      result.status = .selected ∧ result.candidateSha256 = winner.sha256 ∧
        result.priority = some position) ∧
    ∀ result ∈ results, result.status = .selected → ∃ position winner,
      winners[position]? = some winner ∧ result.candidateSha256 = winner.sha256 ∧
        result.priority = some position

/-- A result's horizon is its rule's, which the cooldown covers. -/
theorem horizon_of_give {given : BaselineCandidate D × Verdict D}
    {result : CandidateArbitration D} {rule : CandidateArbitrationRule}
    (hrule : arbitrator.findRule given.1 = some rule) (h : arbitrator.give given = .ok result) :
    result.horizonSeconds ≤ arbitrator.policy.cooldownSeconds := by
  rw [give_fields hrule h]
  exact arbitrator.policy.cooldown_covers rule (findRule_mem hrule).1

theorem SameLineage.of_give {given : BaselineCandidate D × Verdict D}
    {result : CandidateArbitration D} {rule : CandidateArbitrationRule}
    (hrule : arbitrator.findRule given.1 = some rule) (h : arbitrator.give given = .ok result) :
    SameLineage given.1 result := by
  unfold SameLineage
  rw [give_fields hrule h]
  exact ⟨rfl, rfl, rfl, rfl, rfl, rfl⟩

/-- A result is selected exactly when its verdict is. -/
theorem selected_of_give {given : BaselineCandidate D × Verdict D}
    {result : CandidateArbitration D} {rule : CandidateArbitrationRule}
    (hrule : arbitrator.findRule given.1 = some rule) (h : arbitrator.give given = .ok result)
    (hstatus : result.status = .selected) :
    ∃ priority, given.2 = .selected priority ∧ result.priority = some priority := by
  rw [give_fields hrule h] at hstatus ⊢
  obtain ⟨candidate, verdict⟩ := given
  cases verdict with
  | selected priority => exact ⟨priority, rfl, rfl⟩
  | _ => cases hstatus

/-- The winners of a clock are ordered strictly: one has a smaller key than the next. -/
theorem selectedWinners_ascending (decisionAt : Instant) :
    ((arbitrator.selectedWinners candidates decisionAt).map Prod.fst).Pairwise
      (fun before after => arbitrator.winnerKey before < arbitrator.winnerKey after) := by
  have hsymbols := arbitrator.ranked_symbols_nodup candidates decisionAt
  have hkeys : (((symbolsOf candidates).filterMap (arbitrator.symbolWinner candidates
      decisionAt)).map fun winner => arbitrator.winnerKey winner.1).Nodup := by
    have hperm : ((symbolsOf candidates).filterMap (arbitrator.symbolWinner candidates
        decisionAt)).Perm (arbitrator.ranked candidates decisionAt) := (sortOn_perm _ _).symm
    rw [(hperm.map _).nodup_iff]
    apply List.Nodup.of_map (fun key => (ofLex (ofLex (ofLex key).2).2).1)
    rw [List.map_map]
    exact hsymbols
  have hascending := sortOn_keys_ascending hkeys
  rw [← ranked, List.pairwise_map] at hascending
  rw [List.pairwise_map]
  exact hascending.sublist (List.take_sublist _ _)

/-- A selected result and the winner at its position. -/
theorem winner_of_selected {decisionAt : Instant} {results : List (CandidateArbitration D)}
    (hrules : arbitrator.Configured candidates)
    (hresults : List.Forall₂ (arbitrator.Given candidates decisionAt)
      (sortOn arbitrator.resultKey candidates) results)
    {result : CandidateArbitration D} (hresult : result ∈ results)
    (hstatus : result.status = .selected) :
    ∃ position winner,
      (arbitrator.selectedWinners candidates decisionAt)[position]? = some winner ∧
        SameLineage winner.1 result ∧ result.priority = some position := by
  obtain ⟨candidate, hcandidate, verdict, hverdict, hgive⟩ :=
    exists_of_mem_forall₂ hresults hresult
  obtain ⟨rule, hrule⟩ := Option.isSome_iff_exists.mp (hrules _ (mem_sortOn.mp hcandidate))
  obtain ⟨position, rfl, hpriority⟩ := selected_of_give hrule hgive hstatus
  obtain ⟨winner, hwinner, rfl⟩ := selected_iff.mp hverdict
  exact ⟨position, winner, hwinner, SameLineage.of_give hrule hgive, hpriority⟩

/-- A winner that the clock has room for and its result. -/
theorem selected_of_winner {decisionAt : Instant} {results : List (CandidateArbitration D)}
    (hrules : arbitrator.Configured candidates) (hunique : (candidates.map (·.sha256)).Nodup)
    (hresults : List.Forall₂ (arbitrator.Given candidates decisionAt)
      (sortOn arbitrator.resultKey candidates) results) {position : Nat}
    {winner : RankedWinner D}
    (hwinner : (arbitrator.selectedWinners candidates decisionAt)[position]? = some winner) :
    ∃ result ∈ results, result.status = .selected ∧ SameLineage winner.1 result ∧
      result.priority = some position := by
  have hverdict := selected_iff.mpr ⟨winner, hwinner, rfl⟩
  have hmem := mem_verdicts hverdict
  obtain ⟨result, hresult, verdict, hgiven, hgive⟩ :=
    exists_of_mem_forall₂ hresults.flip (mem_sortOn.mpr hmem)
  obtain rfl := verdict_unique hunique hverdict hgiven
  obtain ⟨rule, hrule⟩ := Option.isSome_iff_exists.mp (hrules _ hmem)
  have hfields := give_fields hrule hgive
  refine ⟨result, hresult, ?_, SameLineage.of_give hrule hgive, ?_⟩
  · rw [hfields]
    rfl
  · rw [hfields]
    rfl

/-- **An accepted call keeps the contract.** -/
theorem contract {results : List (CandidateArbitration D)}
    (h : (arbitrator.decide candidates).1 = .ok results) :
    arbitrator.Contract candidates results := by
  obtain ⟨clock, hcompletes, -, hresults, -⟩ := accepted h
  have hrules : (arbitrator.noted clock).Configured candidates := hcompletes.configured
  have hlineage : ∀ candidate ∈ candidates, ∀ result,
      (arbitrator.noted clock).Given candidates (ofLex clock).2 candidate result →
        SameLineage candidate result := by
    rintro candidate hcandidate result ⟨verdict, -, hgiven⟩
    obtain ⟨rule, hrule⟩ := Option.isSome_iff_exists.mp (hrules candidate hcandidate)
    exact SameLineage.of_give hrule hgiven
  refine ⟨hcompletes.unique, ?_, ?_, ?_⟩
  · have hshas : results.map (·.candidateSha256) =
        (sortOn arbitrator.resultKey candidates).map (·.sha256) := by
      apply map_eq_of_forall₂
      have hmem := (List.forall₂_and_left _ _).mpr
        ⟨fun candidate hcandidate => mem_sortOn.mp hcandidate, hresults⟩
      exact hmem.imp fun candidate result hpair => (hlineage candidate hpair.1 result hpair.2).1
    rw [hshas]
    exact (sortOn_perm _ _).map _
  · intro result hresult
    obtain ⟨candidate, hcandidate, hgiven⟩ := exists_of_mem_forall₂ hresults hresult
    have hmem := mem_sortOn.mp hcandidate
    exact ⟨candidate, hmem, hlineage candidate hmem result hgiven⟩
  · refine ⟨((arbitrator.noted clock).selectedWinners candidates (ofLex clock).2).map Prod.fst,
      ?_, ?_, ?_, selectedWinners_ascending _, ?_, ?_⟩
    · intro candidate hcandidate
      obtain ⟨winner, hwinner, rfl⟩ := List.mem_map.mp hcandidate
      exact (symbol_of_ranked (List.mem_of_mem_take hwinner) List.mem_cons_self).1
    · rw [List.length_map]
      exact List.length_take_le _ _
    · rw [List.map_map]
      exact (ranked_symbols_nodup _ _ _).sublist ((List.take_sublist _ _).map _)
    · intro position candidate hposition
      rw [List.getElem?_map, Option.map_eq_some_iff] at hposition
      obtain ⟨winner, hwinner, rfl⟩ := hposition
      obtain ⟨result, hresult, hstatus, hsame, hpriority⟩ :=
        selected_of_winner hrules hcompletes.unique hresults hwinner
      exact ⟨result, hresult, hstatus, hsame.1, hpriority⟩
    · intro result hresult hstatus
      obtain ⟨position, winner, hwinner, hsame, hpriority⟩ :=
        winner_of_selected hrules hresults hresult hstatus
      refine ⟨position, winner.1, ?_, hsame.1, hpriority⟩
      rw [List.getElem?_map, hwinner, Option.map_some]

/-! ## Whole runs -/

/-- The selections among some results. -/
def selectionsOf (results : List (CandidateArbitration D)) : List (CandidateArbitration D) :=
  results.filter (·.status = .selected)

/-- The arbitrator's memory of a selection. -/
def remembered (result : CandidateArbitration D) : Instant × D :=
  (result.decisionAt, result.candidateSha256)

/-- Calls of `decide` on one arbitrator, some of which may raise, with the results of those
that do not; no call passes the guards with a candidate that has no symbol. -/
inductive Run (policy : CandidateArbitrationVersion) :
    List (CandidateArbitration D) → CandidateArbitrator D → Prop
  | new : Run policy [] (.new policy)
  | call {results : List (CandidateArbitration D)} {arbitrator : CandidateArbitrator D}
      (candidates : List (BaselineCandidate D)) (h : Run policy results arbitrator)
      (hmeets : arbitrator.Meets candidates) :
      Run policy (results ++ (arbitrator.decide candidates).1.toOption.getD [])
        (arbitrator.decide candidates).2

/-- A selection keeps its distance from an earlier one of the same symbol. -/
def Spaced (policy : CandidateArbitrationVersion) (before after : CandidateArbitration D) : Prop :=
  before.symbol = after.symbol →
    before.decisionAt + seconds policy.cooldownSeconds ≤ after.decisionAt

/-- The arbitrator remembers the last selection of every symbol, and nothing else. -/
structure Remembers (policy : CandidateArbitrationVersion)
    (results : List (CandidateArbitration D)) (arbitrator : CandidateArbitrator D) : Prop where
  kept : arbitrator.policy = policy
  last : ∀ symbol, arbitrator.lastSelected symbol =
    ((selectionsOf results).filter (·.symbol = symbol)).getLast?.map remembered
  spaced : (selectionsOf results).Pairwise (Spaced policy)
  horizons : ∀ result ∈ selectionsOf results, result.horizonSeconds ≤ policy.cooldownSeconds

/-- What an accepted call selects is won by its symbols, none of which was cooling down. -/
structure Selects (arbitrator after : CandidateArbitrator D) (decisionAt : Instant)
    (selections : List (CandidateArbitration D)) : Prop where
  kept : after.policy = arbitrator.policy
  symbols_nodup : (selections.map (·.symbol)).Nodup
  decided : ∀ result ∈ selections, result.decisionAt = decisionAt ∧
    arbitrator.coolingFrom result.symbol decisionAt = none ∧
    after.lastSelected result.symbol = some (remembered result)
  other : ∀ symbol, symbol ∉ selections.map (·.symbol) →
    after.lastSelected symbol = arbitrator.lastSelected symbol
  horizons : ∀ result ∈ selections, result.horizonSeconds ≤ arbitrator.policy.cooldownSeconds

theorem selects {results : List (CandidateArbitration D)}
    (h : (arbitrator.decide candidates).1 = .ok results) :
    ∃ decisionAt, arbitrator.Selects (arbitrator.decide candidates).2 decisionAt
      (selectionsOf results) := by
  obtain ⟨clock, hcompletes, -, hresults, hafter⟩ := accepted h
  have hrules : (arbitrator.noted clock).Configured candidates := hcompletes.configured
  have hcontract := contract h
  have hwinners : ((arbitrator.noted clock).selectedWinners candidates
      (ofLex clock).2 |>.map (·.1.symbol)).Nodup :=
    (ranked_symbols_nodup _ _ _).sublist ((List.take_sublist _ _).map _)
  have hwon : ∀ result ∈ selectionsOf results, ∃ winner ∈
      (arbitrator.noted clock).selectedWinners candidates (ofLex clock).2,
        SameLineage winner.1 result := by
    intro result hresult
    obtain ⟨hmem, hstatus⟩ := List.mem_filter.mp hresult
    obtain ⟨position, winner, hwinner, hsame, -⟩ :=
      winner_of_selected hrules hresults hmem (of_decide_eq_true hstatus)
    exact ⟨winner, List.mem_of_getElem? hwinner, hsame⟩
  have hshas : (results.map (·.candidateSha256)).Nodup :=
    hcontract.one_each.nodup_iff.mpr hcontract.distinct
  refine ⟨(ofLex clock).2, ?_, ?_, ?_, ?_, ?_⟩
  · rw [hafter, started_policy]
    rfl
  · apply List.Nodup.map_on
    · intro first hfirst second hsecond hsymbol
      obtain ⟨winner, hwinner, hsame⟩ := hwon first hfirst
      obtain ⟨winner', hwinner', hsame'⟩ := hwon second hsecond
      have hsymbols : winner.1.symbol = winner'.1.symbol := by
        rw [← hsame.2.2.1, hsymbol, hsame'.2.2.1]
      have hequal := eq_of_key_eq (fun winner : RankedWinner D => winner.1.symbol) hwinners
        hwinner hwinner' hsymbols
      apply eq_of_key_eq (fun result : CandidateArbitration D => result.candidateSha256) hshas
        (List.mem_of_mem_filter hfirst) (List.mem_of_mem_filter hsecond)
      rw [hsame.1, hsame'.1, hequal]
    · exact (List.Nodup.of_map _ hshas).filter _
  · intro result hresult
    obtain ⟨winner, hwinner, hsame⟩ := hwon result hresult
    obtain ⟨hsha, -, hsymbol, -, hdecisionAt, -⟩ := hsame
    have hranked := List.mem_of_mem_take hwinner
    obtain ⟨hcandidate, -⟩ := symbol_of_ranked hranked List.mem_cons_self
    have hclock := hcompletes.one_clock _ hcandidate
    have htime : result.decisionAt = (ofLex clock).2 := by
      rw [hdecisionAt, ← hclock]
      rfl
    refine ⟨htime, ?_, ?_⟩
    · obtain ⟨symbol, -, hsome⟩ := mem_ranked.mp hranked
      obtain ⟨hcooling, -⟩ := symbolWinner_eq_some.mp hsome
      have hown := (winner_of_symbolWinner hsome).2.1
      rw [hsymbol, hown]
      exact hcooling
    · rw [hafter, hsymbol, started_winner hwinners hwinner, remembered, htime, hsha]
  · intro symbol hsymbol
    rw [hafter]
    apply started_other
    intro winner hwinner hsame
    obtain ⟨position, hposition⟩ := List.mem_iff_getElem?.mp hwinner
    obtain ⟨result, hresult, hstatus, hlineage, -⟩ :=
      selected_of_winner hrules hcompletes.unique hresults hposition
    apply hsymbol
    refine List.mem_map.mpr ⟨result, List.mem_filter.mpr ⟨hresult, by simpa using hstatus⟩, ?_⟩
    rw [hlineage.2.2.1, hsame]
  · intro result hresult
    obtain ⟨candidate, hcandidate, verdict, -, hgive⟩ :=
      exists_of_mem_forall₂ hresults (List.mem_of_mem_filter hresult)
    obtain ⟨rule, hrule⟩ := Option.isSome_iff_exists.mp (hrules _ (mem_sortOn.mp hcandidate))
    have hcovered : result.horizonSeconds ≤ (arbitrator.noted clock).policy.cooldownSeconds :=
      horizon_of_give hrule hgive
    exact hcovered

omit [Hashing D] in
theorem coolingFrom_none {symbol : String} {decisionAt : Instant} {previous : Instant × D}
    (h : arbitrator.coolingFrom symbol decisionAt = none)
    (hlast : arbitrator.lastSelected symbol = some previous) :
    previous.1 + seconds arbitrator.policy.cooldownSeconds ≤ decisionAt := by
  rw [coolingFrom, hlast] at h
  by_contra hless
  rw [not_le] at hless
  simp [hless] at h

omit [Hashing D] in
theorem coolingFrom_some {symbol : String} {decisionAt : Instant} {previous : D}
    (h : arbitrator.coolingFrom symbol decisionAt = some previous) :
    ∃ selectedAt, arbitrator.lastSelected symbol = some (selectedAt, previous) ∧
      decisionAt < selectedAt + seconds arbitrator.policy.cooldownSeconds := by
  unfold coolingFrom at h
  split at h
  · cases h
  · next last hlast =>
      split at h
      · next hless =>
          obtain rfl := Option.some.inj h
          exact ⟨last.1, hlast, hless⟩
      · cases h

/-- No selection of a symbol is later than the remembered one. -/
theorem Remembers.before_last {policy : CandidateArbitrationVersion}
    {results : List (CandidateArbitration D)} (h : Remembers policy results arbitrator)
    {result : CandidateArbitration D} (hresult : result ∈ selectionsOf results) :
    ∃ last, arbitrator.lastSelected result.symbol = some (remembered last) ∧
      result.decisionAt ≤ last.decisionAt := by
  have hmem : result ∈ (selectionsOf results).filter (·.symbol = result.symbol) :=
    List.mem_filter.mpr ⟨hresult, by simp⟩
  obtain ⟨before, last, hsplit⟩ :=
    (List.eq_nil_or_concat' _).resolve_left (List.ne_nil_of_mem hmem)
  refine ⟨last, ?_, ?_⟩
  · rw [h.last, hsplit, List.getLast?_concat, Option.map_some]
  · have hspaced := h.spaced.filter (·.symbol = result.symbol)
    rw [hsplit, List.pairwise_append] at hspaced
    rw [hsplit, List.mem_append, List.mem_singleton] at hmem
    rcases hmem with hbefore | rfl
    · have hlast : last ∈ (selectionsOf results).filter (·.symbol = result.symbol) := by
        rw [hsplit]
        simp
      have hsymbol : last.symbol = result.symbol := by simpa using (List.mem_filter.mp hlast).2
      have hapart := hspaced.2.2 result hbefore last (by simp) hsymbol.symm
      have hnonneg : 0 ≤ seconds policy.cooldownSeconds := by
        unfold seconds
        omega
      exact (le_add_of_nonneg_right hnonneg).trans hapart
    · exact le_refl _

theorem Remembers.selects {policy : CandidateArbitrationVersion}
    {results later : List (CandidateArbitration D)} {after : CandidateArbitrator D}
    {decisionAt : Instant} (h : Remembers policy results arbitrator)
    (hselects : arbitrator.Selects after decisionAt (selectionsOf later)) :
    Remembers policy (results ++ later) after := by
  have hsplit : selectionsOf (results ++ later) = selectionsOf results ++ selectionsOf later :=
    List.filter_append _ _
  refine ⟨hselects.kept.trans h.kept, ?_, ?_, ?_⟩
  · intro symbol
    rw [hsplit, List.filter_append]
    by_cases hsymbol : symbol ∈ (selectionsOf later).map (·.symbol)
    · obtain ⟨result, hresult, rfl⟩ := List.mem_map.mp hsymbol
      have hmem : result ∈ (selectionsOf later).filter (·.symbol = result.symbol) :=
        List.mem_filter.mpr ⟨hresult, by simp⟩
      obtain ⟨before, last, hlast⟩ :=
        (List.eq_nil_or_concat' _).resolve_left (List.ne_nil_of_mem hmem)
      have hmine : last ∈ (selectionsOf later).filter (·.symbol = result.symbol) := by
        rw [hlast]
        simp
      obtain ⟨hlater, hsame⟩ := List.mem_filter.mp hmine
      have hequal := eq_of_key_eq (fun item : CandidateArbitration D => item.symbol)
        hselects.symbols_nodup hlater hresult (by simpa using hsame)
      rw [hlast, ← List.append_assoc, List.getLast?_concat, hequal, Option.map_some]
      exact (hselects.decided result hresult).2.2
    · have hnone : (selectionsOf later).filter (·.symbol = symbol) = [] := by
        rw [List.filter_eq_nil_iff]
        intro result hresult hsame
        exact hsymbol (List.mem_map.mpr ⟨result, hresult, by simpa using hsame⟩)
      rw [hselects.other symbol hsymbol, h.last, hnone, List.append_nil]
  · rw [hsplit, List.pairwise_append]
    refine ⟨h.spaced, ?_, ?_⟩
    · exact (List.pairwise_map.mp hselects.symbols_nodup).imp fun hdiffer hsame =>
        absurd hsame hdiffer
    · intro before hbefore result hresult hsymbol
      obtain ⟨htime, hcooling, -⟩ := hselects.decided result hresult
      obtain ⟨last, hlast, hle⟩ := h.before_last hbefore
      rw [hsymbol] at hlast
      have hapart := coolingFrom_none hcooling hlast
      rw [h.kept] at hapart
      calc before.decisionAt + seconds policy.cooldownSeconds
          ≤ last.decisionAt + seconds policy.cooldownSeconds := Int.add_le_add_right hle _
        _ ≤ decisionAt := hapart
        _ = result.decisionAt := htime.symm
  · intro result hresult
    rw [hsplit, List.mem_append] at hresult
    rcases hresult with hbefore | hlater
    · exact h.horizons result hbefore
    · rw [← h.kept]
      exact hselects.horizons result hlater

/-- **The run remembers its last selections**, call by call. -/
theorem Run.remembers {policy : CandidateArbitrationVersion}
    {results : List (CandidateArbitration D)} (h : Run policy results arbitrator) :
    Remembers policy results arbitrator := by
  induction h with
  | new => exact ⟨rfl, fun _ => rfl, List.Pairwise.nil, by simp [selectionsOf]⟩
  | @call results arbitrator candidates _ hmeets ih =>
      cases hdecide : (arbitrator.decide candidates).1 with
      | error raised =>
          rw [(raised_unchanged_iff hdecide).mpr hmeets]
          simpa [Except.toOption] using ih
      | ok later =>
          obtain ⟨decisionAt, hselects⟩ := CandidateArbitrator.selects hdecide
          exact ih.selects hselects

/-- A result that loses to a cooldown loses to an earlier selection of its symbol. -/
theorem Remembers.cooldown {policy : CandidateArbitrationVersion}
    {results given : List (CandidateArbitration D)} (h : Remembers policy results arbitrator)
    (hgiven : (arbitrator.decide candidates).1 = .ok given) {result : CandidateArbitration D}
    (hresult : result ∈ given) (hreason : result.rejectionReason = some .symbolCooldown) :
    ∃ selection ∈ selectionsOf results, selection.symbol = result.symbol ∧
      result.selectedCandidateSha256 = some selection.candidateSha256 ∧
      result.decisionAt < selection.decisionAt + seconds policy.cooldownSeconds := by
  obtain ⟨clock, hcompletes, -, hresults, -⟩ := accepted hgiven
  obtain ⟨candidate, hmem, verdict, hverdict, hgive⟩ := exists_of_mem_forall₂ hresults hresult
  have hcandidate := mem_sortOn.mp hmem
  have hrules : (arbitrator.noted clock).Configured candidates := hcompletes.configured
  obtain ⟨rule, hrule⟩ := Option.isSome_iff_exists.mp (hrules _ hcandidate)
  have hfields := give_fields hrule hgive
  obtain ⟨previous, rfl⟩ : ∃ previous, verdict = .symbolCooldown previous := by
    rw [hfields] at hreason
    cases verdict with
    | symbolCooldown previous => exact ⟨previous, rfl⟩
    | _ => cases hreason
  obtain ⟨selectedAt, hlast, hless⟩ := coolingFrom_some (cooling_of_verdict hverdict)
  have hlast' : arbitrator.lastSelected candidate.symbol = some (selectedAt, previous) := hlast
  rw [h.last, Option.map_eq_some_iff] at hlast'
  obtain ⟨selection, hselection, hremembered⟩ := hlast'
  obtain ⟨hselectedAt, hsha⟩ := Prod.mk.inj hremembered
  obtain ⟨hselected, hsymbol⟩ := List.mem_filter.mp (List.mem_of_getLast? hselection)
  have hclock := hcompletes.one_clock candidate hcandidate
  refine ⟨selection, hselected, ?_, ?_, ?_⟩
  · rw [hfields]
    exact of_decide_eq_true hsymbol
  · rw [hfields, hsha]
    rfl
  · rw [hfields, hselectedAt, ← h.kept]
    have htime : candidate.decisionAt = (ofLex clock).2 := by
      rw [← hclock]
      rfl
    exact lt_of_eq_of_lt htime hless

end CandidateArbitrator

/-- **The contract of candidate arbitration.**  In every run whose calls meet the condition:
an accepted call keeps its contract, and a candidate cools down from an earlier selection
alone; two selections of a symbol are apart by the cooldown, and so their intervals do not
overlap; the arbitrator remembers selections only; and a call that raises changes nothing
exactly where its guards refuse it or all its candidates have a symbol. -/
theorem candidate_arbitration_contract {D : Type} [Hashing D]
    {policy : CandidateArbitrationVersion} {results : List (CandidateArbitration D)}
    {arbitrator : CandidateArbitrator D}
    (h : CandidateArbitrator.Run policy results arbitrator) :
    arbitrator.policy = policy ∧
    (∀ candidates given, (arbitrator.decide candidates).1 = .ok given →
      arbitrator.Contract candidates given ∧ ∀ result ∈ given,
        result.rejectionReason = some .symbolCooldown →
          ∃ selection ∈ CandidateArbitrator.selectionsOf results,
            selection.symbol = result.symbol ∧
            result.selectedCandidateSha256 = some selection.candidateSha256 ∧
            result.decisionAt < selection.decisionAt + seconds policy.cooldownSeconds) ∧
    (CandidateArbitrator.selectionsOf results).Pairwise (fun before after =>
      before.symbol = after.symbol →
        before.decisionAt + seconds policy.cooldownSeconds ≤ after.decisionAt ∧
        before.decisionAt + seconds before.horizonSeconds ≤ after.decisionAt) ∧
    (∀ symbol, arbitrator.lastSelected symbol =
      ((CandidateArbitrator.selectionsOf results).filter (·.symbol = symbol)).getLast?.map
        CandidateArbitrator.remembered) ∧
    ∀ candidates raised, (arbitrator.decide candidates).1 = .error raised →
      ((arbitrator.decide candidates).2 = arbitrator ↔ arbitrator.Meets candidates) := by
  have hremembers := h.remembers
  refine ⟨hremembers.kept, ?_, ?_, hremembers.last, ?_⟩
  · intro candidates given hgiven
    exact ⟨CandidateArbitrator.contract hgiven, fun result hresult hreason =>
      hremembers.cooldown hgiven hresult hreason⟩
  · have hboth := List.Pairwise.and_mem.mp hremembers.spaced
    refine hboth.imp ?_
    rintro before after ⟨hbefore, -, hspaced⟩ hsymbol
    have hapart := hspaced hsymbol
    have hhorizon := hremembers.horizons before hbefore
    refine ⟨hapart, le_trans ?_ hapart⟩
    unfold seconds
    omega
  · intro candidates raised hraised
    exact CandidateArbitrator.raised_unchanged_iff hraised

namespace ArbitrationRehearsal

private theorem full_strength : ∀ value ∈ some (1 : Rat), 0 ≤ value ∧ value ≤ 1 := by simp

/-- A candidate of the first covered day; momentum alone has matched. -/
def fields (strategy : BaselineName) (symbol : String) (offset : Int) :
    BaselineCandidateFields Spelled where
  strategy := strategy
  symbol := symbol
  tradeDate := Trading.candidateArbitration.effectiveFrom
  decisionAt := Trading.candidateArbitration.effectiveFrom * dayLength + seconds offset
  featureSnapshotSha256 := .ofJson (.str symbol)
  peerFeatureSnapshotSha256 := none
  contextSnapshotSha256 := none
  contextVersion := none
  contextConfigurationSha256 := none
  contextDataMode := none
  marketRegime := .unknown
  groups :=
    let names := baselineGroupNames strategy
    (⟨names.1, some 1, full_strength⟩, ⟨names.2.1, some 1, full_strength⟩,
      ⟨names.2.2, some 1, full_strength⟩)
  strength := if strategy = .momentumPullback then 1 else 0
  blockReasons := if strategy = .momentumPullback then [] else ["required_group_failed"]

/-- The candidates of the given symbols on one clock. -/
def candidates (symbols : List String) (offset : Int) : List (BaselineCandidate Spelled) :=
  symbols.flatMap fun symbol => baselineNames.flatMap fun strategy =>
    (BaselineCandidate.modelValidate (fields strategy symbol offset)).toOption.toList

def opening : CandidateArbitrator Spelled := .new Trading.candidateArbitration

/-- The arbitrator after its first clock. -/
def selecting : CandidateArbitrator Spelled := (opening.decide (candidates ["VIC", "VHM"] 0)).2

theorem opening_meets : opening.Meets (candidates ["VIC", "VHM"] 0) := .inr (by decide +kernel)

theorem selecting_cools : (selecting.decide (candidates ["VIC"] 60)).1.toOption.any
    (·.any (·.rejectionReason = some .symbolCooldown)) = true := by
  decide +kernel

end ArbitrationRehearsal

/-- A minute after its selection a symbol is still cooling down. -/
theorem candidate_arbitration_contract_rehearsal : ∃ given,
    (ArbitrationRehearsal.selecting.decide (ArbitrationRehearsal.candidates ["VIC"] 60)).1 =
      .ok given ∧
    ∃ result ∈ given, result.rejectionReason = some .symbolCooldown ∧
      ∃ selection ∈ CandidateArbitrator.selectionsOf ((ArbitrationRehearsal.opening.decide
        (ArbitrationRehearsal.candidates ["VIC", "VHM"] 0)).1.toOption.getD []),
        selection.symbol = result.symbol := by
  have hrun := CandidateArbitrator.Run.call (D := Spelled)
    (ArbitrationRehearsal.candidates ["VIC", "VHM"] 0) .new ArbitrationRehearsal.opening_meets
  obtain ⟨given, hgiven, hcools⟩ :=
    (Option.any_eq_true _ _).mp ArbitrationRehearsal.selecting_cools
  rw [toOption_eq_some] at hgiven
  obtain ⟨result, hresult, hreason⟩ := List.any_eq_true.mp hcools
  have hcontract := candidate_arbitration_contract hrun
  obtain ⟨selection, hselection, hsymbol, -⟩ :=
    (hcontract.2.1 _ given hgiven).2 result hresult (of_decide_eq_true hreason)
  exact ⟨given, hgiven, result, hresult, of_decide_eq_true hreason, selection, hselection, hsymbol⟩

/-- A call with an empty symbol raises and keeps its clock: the same clock is then refused to
candidates that were arbitrated before. -/
theorem unspelled_call_keeps_clock :
    ∃ (arbitrator : CandidateArbitrator Spelled) (bad good : List (BaselineCandidate Spelled)),
      (arbitrator.decide bad).1.toOption = none ∧
      (arbitrator.decide good).1.toOption.isSome ∧
      ((arbitrator.decide bad).2.decide good).1.toOption = none := by
  refine ⟨ArbitrationRehearsal.opening, ArbitrationRehearsal.candidates [""] 0,
    ArbitrationRehearsal.candidates ["VIC"] 0, ?_, ?_, ?_⟩
  · decide +kernel
  · decide +kernel
  · decide +kernel

end MiniLakehouse
