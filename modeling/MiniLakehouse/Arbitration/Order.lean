import MiniLakehouse.Arbitration.Contract

/-!
# Arbitration and the order of its input

Digests are unique within a call, so that every sort of `decide` has one
outcome: a call depends on the set of its candidates alone (`decide_perm`), and
`arbitrate_candidates` is one call for every distinct clock.
-/

namespace MiniLakehouse

section

variable {D : Type}

theorem symbolsOf_perm {candidates candidates' : List (BaselineCandidate D)}
    (h : candidates.Perm candidates') : symbolsOf candidates = symbolsOf candidates' := by
  apply sortOn_eq_of_perm (h.map _).dedup
  rw [List.map_id]
  exact List.nodup_dedup _

theorem bySymbol_perm {candidates candidates' : List (BaselineCandidate D)}
    (h : candidates.Perm candidates') (symbol : String) :
    (bySymbol candidates symbol).Perm (bySymbol candidates' symbol) :=
  h.filter _

end

namespace CandidateArbitrator

variable {D : Type} [Hashing D] {arbitrator : CandidateArbitrator D}
  {candidates candidates' : List (BaselineCandidate D)}

omit [Hashing D] in
theorem completeMatrix_perm (h : candidates.Perm candidates') :
    arbitrator.CompleteMatrix candidates ↔ arbitrator.CompleteMatrix candidates' := by
  unfold CompleteMatrix
  rw [symbolsOf_perm h]
  apply forall₂_congr
  intro symbol _
  have hsymbol := bySymbol_perm h symbol
  rw [hsymbol.length_eq]
  simp only [hsymbol.mem_iff]

theorem Completes.perm {clock : Day ×ₗ Instant} (h : candidates.Perm candidates')
    (hcompletes : arbitrator.Completes candidates clock) :
    arbitrator.Completes candidates' clock where
  nonempty := fun hnil => hcompletes.nonempty (by rw [hnil] at h; exact h.eq_nil)
  one_clock item hitem := hcompletes.one_clock item (h.mem_iff.mpr hitem)
  increasing := hcompletes.increasing
  covered := hcompletes.covered
  version := hcompletes.version
  unique := (h.map _).nodup_iff.mp hcompletes.unique
  matrix := (completeMatrix_perm h).mp hcompletes.matrix

omit [Hashing D] in
/-- All members of two permuted lists have one clock, or neither list's members do. -/
theorem one_clock_perm {first first' : BaselineCandidate D} {rest rest' : List (BaselineCandidate D)}
    (h : (first :: rest).Perm (first' :: rest'))
    (hone : ∀ item ∈ rest, item.clock = first.clock) :
    first'.clock = first.clock ∧ ∀ item ∈ rest', item.clock = first'.clock := by
  have hall : ∀ item ∈ first' :: rest', item.clock = first.clock := by
    intro item hitem
    rcases List.mem_cons.mp (h.mem_iff.mpr hitem) with rfl | hrest
    · rfl
    · exact hone item hrest
  refine ⟨hall first' List.mem_cons_self, fun item hitem => ?_⟩
  rw [hall item (List.mem_cons_of_mem _ hitem), hall first' List.mem_cons_self]

/-- A call is refused for the same reason in any order. -/
theorem checkClock_perm (h : candidates.Perm candidates') :
    arbitrator.checkClock candidates = arbitrator.checkClock candidates' := by
  cases candidates with
  | nil => rw [h.nil_eq]
  | cons first rest =>
      cases candidates' with
      | nil => cases h.eq_nil
      | cons first' rest' =>
          simp only [checkClock]
          by_cases hone : ∀ item ∈ rest, item.clock = first.clock
          · obtain ⟨hclock, hone'⟩ := one_clock_perm h hone
            have hday : first'.tradeDate = first.tradeDate :=
              congrArg (fun clock => (ofLex clock).1) hclock
            rw [require_of hone, require_of hone', hclock, hday,
              require_congr (h.map (·.sha256)).nodup_iff, require_congr (completeMatrix_perm h)]
          · have hother : ¬∀ item ∈ rest', item.clock = first'.clock :=
              fun hone' => hone (one_clock_perm h.symm hone').2
            simp only [require, if_neg hone, if_neg hother]
            rfl

/-- Unique digests make any sort by a key that ends in the digest forget the order. -/
theorem sorted_perm {κ : Type} [LinearOrder κ] (key : BaselineCandidate D → κ) (digest : κ → D)
    (hkey : ∀ candidate, digest (key candidate) = candidate.sha256)
    (h : candidates.Perm candidates') (hunique : (candidates.map (·.sha256)).Nodup) :
    sortOn key candidates = sortOn key candidates' := by
  apply sortOn_eq_of_perm h
  apply List.Nodup.of_map digest
  rw [List.map_map]
  exact (List.map_congr_left fun candidate _ => hkey candidate) ▸ hunique

omit [Hashing D] in
theorem earlyVerdicts_perm (arbitrator : CandidateArbitrator D) (decisionAt : Instant)
    (h : candidates.Perm candidates') (symbol : String) :
    (arbitrator.earlyVerdicts candidates decisionAt symbol).Perm
      (arbitrator.earlyVerdicts candidates' decisionAt symbol) := by
  have hsymbol := bySymbol_perm h symbol
  unfold earlyVerdicts
  apply ((hsymbol.filter _).map _).append
  cases arbitrator.coolingFrom symbol decisionAt with
  | none => exact .refl _
  | some previous => exact (hsymbol.filter _).map _

section

variable (decisionAt : Instant) (h : candidates.Perm candidates')
  (hunique : (candidates.map (·.sha256)).Nodup)

include h hunique

theorem symbolWinner_perm (symbol : String) :
    arbitrator.symbolWinner candidates decisionAt symbol =
      arbitrator.symbolWinner candidates' decisionAt symbol := by
  have heligible : (arbitrator.eligibleOf candidates symbol).Perm
      (arbitrator.eligibleOf candidates' symbol) := (bySymbol_perm h symbol).filter _
  have hfewer : ((arbitrator.eligibleOf candidates symbol).map (·.sha256)).Nodup :=
    hunique.sublist ((List.filter_sublist.trans List.filter_sublist).map _)
  have hsorted := sorted_perm arbitrator.contenderKey (fun key => (ofLex (ofLex key).2).2)
    (fun _ => rfl) heligible hfewer
  unfold symbolWinner
  rw [hsorted]

theorem ranked_perm :
    arbitrator.ranked candidates decisionAt = arbitrator.ranked candidates' decisionAt := by
  unfold ranked
  rw [symbolsOf_perm h, funext (symbolWinner_perm decisionAt h hunique)]

theorem verdicts_order :
    (arbitrator.verdicts candidates decisionAt).Perm
      (arbitrator.verdicts candidates' decisionAt) := by
  unfold verdicts selectedWinners
  rw [symbolsOf_perm h, ranked_perm decisionAt h hunique]
  apply List.Perm.append_right
  apply List.Perm.append_right
  apply List.Perm.flatMap_left
  intro symbol _
  exact earlyVerdicts_perm arbitrator decisionAt h symbol

theorem selectedWinners_perm :
    arbitrator.selectedWinners candidates decisionAt =
      arbitrator.selectedWinners candidates' decisionAt := by
  rw [selectedWinners, selectedWinners, ranked_perm decisionAt h hunique]

/-- The results and the arbitrator of a clock do not depend on the order. -/
theorem arbitrate_perm (hrules : arbitrator.Configured candidates) :
    arbitrator.arbitrate candidates decisionAt = arbitrator.arbitrate candidates' decisionAt := by
  have hrules' : arbitrator.Configured candidates' := hrules.sublist h.symm.subset
  have hunique' : (candidates'.map (·.sha256)).Nodup := (h.map _).nodup_iff.mp hunique
  by_cases hspelled : ∀ candidate ∈ candidates, candidate.symbol ≠ ""
  · have hspelled' : ∀ candidate ∈ candidates', candidate.symbol ≠ "" :=
      fun candidate hcandidate => hspelled candidate (h.mem_iff.mpr hcandidate)
    obtain ⟨⟨results, hresults, hgiven⟩, hafter⟩ :=
      arbitrate_spelled decisionAt hrules hunique hspelled
    obtain ⟨⟨results', hresults', hgiven'⟩, hafter'⟩ :=
      arbitrate_spelled decisionAt hrules' hunique' hspelled'
    apply Prod.ext
    · rw [hresults, hresults']
      have hsorted := sorted_perm arbitrator.resultKey (fun key => (ofLex (ofLex key).2).2)
        (fun _ => rfl) h hunique
      rw [← hsorted] at hgiven'
      have hsame : Relator.RightUnique (arbitrator.Given candidates decisionAt) :=
        fun _ _ _ hfirst hsecond => hfirst.unique hunique hsecond
      congr 1
      refine List.right_unique_forall₂' hsame hgiven (hgiven'.imp ?_)
      rintro candidate result ⟨verdict, hverdict, hgive⟩
      exact ⟨verdict, (verdicts_order decisionAt h hunique).mem_iff.mpr hverdict, hgive⟩
    · rw [hafter, hafter', selectedWinners_perm decisionAt h hunique]
  · have hunspelled : ∃ candidate ∈ candidates, candidate.symbol = "" := by simpa using hspelled
    have hunspelled' : ∃ candidate ∈ candidates', candidate.symbol = "" := by
      obtain ⟨candidate, hcandidate, hempty⟩ := hunspelled
      exact ⟨candidate, h.mem_iff.mp hcandidate, hempty⟩
    obtain ⟨hraised, hafter⟩ := arbitrate_unspelled decisionAt hrules hunspelled
    obtain ⟨hraised', hafter'⟩ :=
      arbitrate_unspelled decisionAt hrules' hunspelled'
    apply Prod.ext
    · rw [hraised, hraised']
    · rw [hafter, hafter', selectedWinners_perm decisionAt h hunique]
      have hearly := earlyVerdicts_perm arbitrator decisionAt h ""
      by_cases hnone : arbitrator.earlyVerdicts candidates decisionAt "" = []
      · rw [if_pos hnone, if_pos (by rwa [hnone, List.nil_perm] at hearly)]
      · rw [if_neg hnone, if_neg fun hnone' => hnone (by rwa [hnone', List.perm_nil] at hearly)]

end

/-- **A call depends on the set of its candidates**: neither its outcome nor the arbitrator
that it leaves changes when they are permuted. -/
theorem decide_perm (h : candidates.Perm candidates') :
    arbitrator.decide candidates = arbitrator.decide candidates' := by
  cases hclock : arbitrator.checkClock candidates with
  | error raised =>
      rw [decide_refused hclock, decide_refused ((checkClock_perm h).symm.trans hclock)]
  | ok clock =>
      have hcompletes := checkClock_eq_ok.mp hclock
      rw [hcompletes.decide, (hcompletes.perm h).decide]
      exact arbitrate_perm _ h hcompletes.unique hcompletes.configured

theorem decideAll_perm {batches batches' : List (List (BaselineCandidate D))}
    (h : List.Forall₂ List.Perm batches batches') :
    arbitrator.decideAll batches = arbitrator.decideAll batches' := by
  induction h generalizing arbitrator with
  | nil => rfl
  | cons hbatch _ ih => rw [decideAll, decideAll, decide_perm hbatch, ih]

end CandidateArbitrator

/-! ## Batches -/

/-- The candidates of distinct clocks in chronological order. -/
structure Chronological {D : Type}
    (batches : List ((Day ×ₗ Instant) × List (BaselineCandidate D))) : Prop where
  ascending : (batches.map Prod.fst).Pairwise (· < ·)
  nonempty : ∀ batch ∈ batches, batch.2 ≠ []
  own_clock : ∀ batch ∈ batches, ∀ candidate ∈ batch.2, candidate.clock = batch.1

section

variable {D : Type} {candidates : List (BaselineCandidate D)}
  {batches : List ((Day ×ₗ Instant) × List (BaselineCandidate D))}

theorem Chronological.clocks (h : Chronological batches)
    (hperm : candidates.Perm (batches.flatMap Prod.snd)) :
    sortOn id (candidates.map (·.clock)).dedup = batches.map Prod.fst := by
  have hsame : (candidates.map (·.clock)).dedup.Perm (batches.map Prod.fst) := by
    apply (List.perm_ext_iff_of_nodup (List.nodup_dedup _) (nodup_of_ascending h.ascending)).mpr
    intro clock
    rw [List.mem_dedup, (hperm.map _).mem_iff, List.mem_map, List.mem_map]
    constructor
    · rintro ⟨candidate, hcandidate, rfl⟩
      obtain ⟨batch, hbatch, hmem⟩ := List.mem_flatMap.mp hcandidate
      exact ⟨batch, hbatch, (h.own_clock batch hbatch candidate hmem).symm⟩
    · rintro ⟨batch, hbatch, rfl⟩
      obtain ⟨candidate, hcandidate⟩ := List.exists_mem_of_ne_nil _ (h.nonempty batch hbatch)
      exact ⟨candidate, List.mem_flatMap.mpr ⟨batch, hbatch, hcandidate⟩,
        h.own_clock batch hbatch candidate hcandidate⟩
  have hkeys : ((candidates.map (·.clock)).dedup.map id).Nodup := by
    rw [List.map_id]
    exact List.nodup_dedup _
  rw [sortOn_eq_of_perm hsame hkeys]
  exact List.Pairwise.insertionSort_eq (h.ascending.imp le_of_lt)

/-- Of batches with distinct clocks, the candidates of one clock are its batch. -/
theorem filter_batches (hown : ∀ batch ∈ batches, ∀ candidate ∈ batch.2, candidate.clock = batch.1)
    (hdistinct : (batches.map Prod.fst).Nodup)
    {batch : (Day ×ₗ Instant) × List (BaselineCandidate D)} (hbatch : batch ∈ batches) :
    (batches.flatMap Prod.snd).filter (·.clock = batch.1) = batch.2 := by
  induction batches with
  | nil => cases hbatch
  | cons first rest ih =>
      obtain ⟨hnot, hrest⟩ := List.nodup_cons.mp hdistinct
      have hlater : ∀ later ∈ rest, ∀ candidate ∈ later.2, candidate.clock = later.1 :=
        fun later hmem => hown later (List.mem_cons_of_mem _ hmem)
      rw [List.flatMap_cons, List.filter_append]
      rcases List.mem_cons.mp hbatch with rfl | hmem
      · have hnone : (rest.flatMap Prod.snd).filter (·.clock = batch.1) = [] := by
          rw [List.filter_eq_nil_iff]
          intro candidate hcandidate hclock
          obtain ⟨later, hlatermem, hin⟩ := List.mem_flatMap.mp hcandidate
          have hsame := (hlater later hlatermem candidate hin).symm.trans (of_decide_eq_true hclock)
          exact hnot (List.mem_map.mpr ⟨later, hlatermem, hsame⟩)
        have hall : batch.2.filter (·.clock = batch.1) = batch.2 := by
          rw [List.filter_eq_self]
          intro candidate hcandidate
          exact decide_eq_true (hown batch List.mem_cons_self candidate hcandidate)
        rw [hnone, hall, List.append_nil]
      · have hnone : first.2.filter (·.clock = batch.1) = [] := by
          rw [List.filter_eq_nil_iff]
          intro candidate hcandidate hclock
          have hsame := (hown first List.mem_cons_self candidate hcandidate).symm.trans
            (of_decide_eq_true hclock)
          exact hnot (List.mem_map.mpr ⟨batch, hmem, hsame.symm⟩)
        rw [hnone, List.nil_append, ih hlater hrest hmem]

/-- The candidates of a clock are its batch. -/
theorem Chronological.byClock (h : Chronological batches)
    (hperm : candidates.Perm (batches.flatMap Prod.snd))
    {batch : (Day ×ₗ Instant) × List (BaselineCandidate D)} (hbatch : batch ∈ batches) :
    (byClock candidates batch.1).Perm batch.2 := by
  have hown := filter_batches h.own_clock (nodup_of_ascending h.ascending) hbatch
  rw [← hown]
  exact hperm.filter _

end

/-- **Arbitration is independent of the order of its input**, in one call and over clocks:
`arbitrate_candidates` decides one clock after the other, in chronological order. -/
theorem arbitration_independent_of_order {D : Type} [Hashing D] :
    (∀ (arbitrator : CandidateArbitrator D) (candidates candidates' : List (BaselineCandidate D)),
      candidates.Perm candidates' →
        arbitrator.decide candidates = arbitrator.decide candidates') ∧
    ∀ (policy : CandidateArbitrationVersion) (candidates : List (BaselineCandidate D))
      (batches : List ((Day ×ₗ Instant) × List (BaselineCandidate D))),
      candidates ≠ [] → Chronological batches → candidates.Perm (batches.flatMap Prod.snd) →
        arbitrateCandidates candidates policy =
          (CandidateArbitrator.new policy).decideAll (batches.map Prod.snd) := by
  refine ⟨fun arbitrator candidates candidates' h => CandidateArbitrator.decide_perm h, ?_⟩
  intro policy candidates batches hsome hbatches hperm
  have hcalls : List.Forall₂ List.Perm ((batches.map Prod.fst).map (byClock candidates))
      (batches.map Prod.snd) := by
    rw [List.map_map, List.forall₂_map_left_iff, List.forall₂_map_right_iff,
      List.forall₂_same]
    intro batch hbatch
    exact hbatches.byClock hperm hbatch
  rw [arbitrateCandidates, require_of hsome, ok_bind, hbatches.clocks hperm]
  exact CandidateArbitrator.decideAll_perm hcalls

namespace ArbitrationRehearsal

def opened : (Day ×ₗ Instant) × List (BaselineCandidate Spelled) :=
  (toLex (Trading.candidateArbitration.effectiveFrom,
    Trading.candidateArbitration.effectiveFrom * dayLength), candidates ["VIC", "VHM"] 0)

def followed : (Day ×ₗ Instant) × List (BaselineCandidate Spelled) :=
  (toLex (Trading.candidateArbitration.effectiveFrom,
    Trading.candidateArbitration.effectiveFrom * dayLength + seconds 60), candidates ["VIC"] 60)

theorem clocks_chronological : Chronological [opened, followed] where
  ascending := by decide +kernel
  nonempty := by decide +kernel
  own_clock := by decide +kernel

end ArbitrationRehearsal

/-- The rehearsed clocks, the later one first and each reversed. -/
theorem arbitration_independent_of_order_rehearsal :
    ArbitrationRehearsal.opening.decide (ArbitrationRehearsal.candidates ["VIC", "VHM"] 0).reverse =
      ArbitrationRehearsal.opening.decide (ArbitrationRehearsal.candidates ["VIC", "VHM"] 0) ∧
    arbitrateCandidates (ArbitrationRehearsal.followed.2.reverse ++ ArbitrationRehearsal.opened.2)
        Trading.candidateArbitration =
      ArbitrationRehearsal.opening.decideAll
        [ArbitrationRehearsal.opened.2, ArbitrationRehearsal.followed.2] := by
  obtain ⟨hdecide, hbatches⟩ := arbitration_independent_of_order (D := Spelled)
  refine ⟨hdecide _ _ _ (List.reverse_perm _), ?_⟩
  apply hbatches _ _ _ ?_ ArbitrationRehearsal.clocks_chronological ?_
  · decide +kernel
  · rw [List.flatMap_cons, List.flatMap_cons, List.flatMap_nil, List.append_nil]
    exact List.perm_append_comm.trans ((List.reverse_perm _).append_left _)

end MiniLakehouse
