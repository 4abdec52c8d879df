import MiniLakehouse.Arbitration.Journal
import MiniLakehouse.Library.Batches

/-!
# Incremental scoring

`score_buy_first_baselines` scores all clocks of a day at once or, as the journal does, one
clock after the other with a history that is pruned to the peer lag.  What the one writes is
what the other writes (`scoring_incremental`).
-/

namespace MiniLakehouse

variable {D : Type}

/-! ## Recent history -/

theorem recentHistory_eq_filter {history : List (FeatureSnapshot D)} (decisionAt : Instant)
    (h : history.Pairwise fun a b => a.decisionAt ≤ b.decisionAt) :
    ShadowArbitrationJournal.recentHistory history decisionAt =
      history.filter fun item => decisionAt - relativePeerLag ≤ item.decisionAt := by
  have hprune : history.dropWhile (fun item => item.decisionAt ≤ decisionAt - relativePeerLag - 1) =
      history.filter fun item => decisionAt - relativePeerLag - 1 < item.decisionAt :=
    prune_eq_filter h
  have hbefore : (fun item : FeatureSnapshot D =>
      decide (item.decisionAt < decisionAt - relativePeerLag)) =
      fun item => decide (item.decisionAt ≤ decisionAt - relativePeerLag - 1) := by
    funext item
    exact decide_eq_decide.mpr Int.le_sub_one_iff.symm
  have hfrom : (fun item : FeatureSnapshot D =>
      decide (decisionAt - relativePeerLag - 1 < item.decisionAt)) =
      fun item => decide (decisionAt - relativePeerLag ≤ item.decisionAt) := by
    funext item
    exact decide_eq_decide.mpr Int.sub_one_lt_iff
  rw [ShadowArbitrationJournal.recentHistory, hbefore, ← hfrom]
  exact hprune

theorem relativePeerLag_pos : 0 < relativePeerLag := by decide

/-! ## The evidence of one snapshot -/

namespace ScoringEvidence

theorem find_eq (evidence : ScoringEvidence D) (symbol : String) (at' : Instant) :
    evidence.find symbol at' =
      (evidence.available.filter (·.decisionAt = at')).find? (·.symbol = symbol) := by
  rw [find, List.find?_filter]
  congr 1
  funext item
  simp [and_comm]

end ScoringEvidence

variable [Hashing D]

/-- A snapshot's candidates depend on its own clock, on the one a peer lag before, and on its
context. -/
theorem scoreSnapshot_congr {evidence evidence' : ScoringEvidence D} {snapshot : FeatureSnapshot D}
    (havailable : ∀ at' : Instant, at' = snapshot.decisionAt ∨
        at' = snapshot.decisionAt - relativePeerLag →
      evidence.available.filter (·.decisionAt = at') =
        evidence'.available.filter (·.decisionAt = at'))
    (hcontext : evidence.context snapshot.decisionAt = evidence'.context snapshot.decisionAt) :
    scoreSnapshot evidence snapshot = scoreSnapshot evidence' snapshot := by
  simp only [scoreSnapshot, ScoringEvidence.find_eq, hcontext, havailable _ (.inl rfl),
    havailable _ (.inr rfl)]

/-- The guards of a call, as facts. -/
structure Scorable (snapshots history : List (FeatureSnapshot D))
    (contexts : List (DecisionContext D)) : Prop where
  nonempty : snapshots ≠ []
  earlier : ∀ earlier ∈ history, ∀ snapshot ∈ snapshots, earlier.decisionAt < snapshot.decisionAt
  lineage : ∀ item ∈ history ++ snapshots, ∀ other ∈ history ++ snapshots,
    item.lineage = other.lineage
  symbols : ∀ item ∈ history ++ snapshots, item.symbol = "VIC" ∨ item.symbol = "VHM"
  unique : ((history ++ snapshots).map (·.clockKey)).Nodup
  contexts_unique : (contexts.map (·.decisionAt)).Nodup
  contexts_match : ∀ context ∈ contexts, ContextMatches snapshots context

theorem checkScoring_eq_ok {snapshots history : List (FeatureSnapshot D)}
    {contexts : List (DecisionContext D)} :
    checkScoring snapshots history contexts = .ok () ↔ Scorable snapshots history contexts := by
  simp only [checkScoring, bind_eq_ok, require_eq_ok]
  constructor
  · intro h
    obtain ⟨_, hnonempty, _, hearlier, _, hlineage, _, hsymbols, _, hunique, _, hcontexts,
      hmatch⟩ := h
    exact ⟨hnonempty, hearlier, hlineage, hsymbols, hunique, hcontexts, hmatch⟩
  · intro h
    exact ⟨(), h.nonempty, (), h.earlier, (), h.lineage, (), h.symbols, (), h.unique, (),
      h.contexts_unique, h.contexts_match⟩

theorem scoreBuyFirstBaselines_eq_ok {snapshots history : List (FeatureSnapshot D)}
    {contexts : List (DecisionContext D)} {candidates : List (BaselineCandidate D)} :
    scoreBuyFirstBaselines snapshots contexts history = .ok candidates ↔
      Scorable snapshots history contexts ∧ ∃ scored, (sortOn (·.clockKey) snapshots).mapM
        (scoreSnapshot ⟨history ++ snapshots, contexts⟩) = .ok scored ∧
        candidates = scored.flatten := by
  simp only [scoreBuyFirstBaselines, bind_eq_ok, pure_eq_ok]
  constructor
  · intro h
    obtain ⟨_, hcheck, scored, hscored, rfl⟩ := h
    exact ⟨checkScoring_eq_ok.mp hcheck, scored, hscored, rfl⟩
  · intro h
    obtain ⟨hcheck, scored, hscored, rfl⟩ := h
    exact ⟨(), checkScoring_eq_ok.mpr hcheck, scored, hscored, rfl⟩

/-! ## One clock of a day -/

/-- A clock with its snapshots and its context. -/
abbrev EvidenceClock (D : Type) := Instant × List (FeatureSnapshot D) × DecisionContext D

/-- The snapshots of some clocks. -/
def snapshotsOf (clocks : List (EvidenceClock D)) : List (FeatureSnapshot D) :=
  clocks.flatMap fun clock => clock.2.1

/-- The clocks of a day in order, each with its own snapshots of the same symbols and with its
own context. -/
structure EvidenceDay (symbols : List String) (clocks : List (EvidenceClock D)) : Prop where
  ascending : (clocks.map Prod.fst).Pairwise (· < ·)
  nonempty : ∀ clock ∈ clocks, clock.2.1 ≠ []
  own_snapshots : ∀ clock ∈ clocks, ∀ snapshot ∈ clock.2.1, snapshot.decisionAt = clock.1
  own_context : ∀ clock ∈ clocks, clock.2.2.decisionAt = clock.1
  same_symbols : ∀ clock ∈ clocks, clock.2.1.map (·.symbol) = symbols

namespace EvidenceDay

variable {symbols : List String} {clocks done rest : List (EvidenceClock D)}
  {clock : EvidenceClock D}

omit [Hashing D] in
theorem batched (h : EvidenceDay symbols clocks) :
    Batched (fun snapshot : FeatureSnapshot D => snapshot.decisionAt)
      (clocks.map fun clock => (clock.1, clock.2.1)) where
  ascending := by
    rw [List.map_map]
    exact h.ascending
  nonempty := by
    intro batch hbatch
    obtain ⟨clock, hclock, rfl⟩ := List.mem_map.mp hbatch
    exact h.nonempty clock hclock
  own_key := by
    intro batch hbatch
    obtain ⟨clock, hclock, rfl⟩ := List.mem_map.mp hbatch
    exact h.own_snapshots clock hclock

omit [Hashing D] in
theorem snapshotsOf_batches (clocks : List (EvidenceClock D)) :
    (clocks.map fun clock => (clock.1, clock.2.1)).flatMap Prod.snd = snapshotsOf clocks := by
  rw [List.flatMap_map]
  rfl

omit [Hashing D] in
theorem ordered (h : EvidenceDay symbols clocks) :
    (snapshotsOf clocks).Pairwise fun a b => a.decisionAt ≤ b.decisionAt := by
  rw [← snapshotsOf_batches]
  exact h.batched.ordered

omit [Hashing D] in
theorem split (done rest : List (EvidenceClock D)) (clock : EvidenceClock D) :
    snapshotsOf (done ++ clock :: rest) = snapshotsOf done ++ (clock.2.1 ++ snapshotsOf rest) := by
  simp [snapshotsOf]

omit [Hashing D] in
/-- The clocks before and after one. -/
theorem around (h : EvidenceDay symbols (done ++ clock :: rest)) :
    (∀ snapshot ∈ snapshotsOf done, snapshot.decisionAt < clock.1) ∧
      ∀ snapshot ∈ snapshotsOf rest, clock.1 < snapshot.decisionAt := by
  have hascending := h.ascending
  rw [List.map_append, List.pairwise_append, List.map_cons, List.pairwise_cons] at hascending
  obtain ⟨-, ⟨hafter, -⟩, hbefore⟩ := hascending
  constructor
  · intro snapshot hsnapshot
    obtain ⟨earlier, hearlier, hmem⟩ := List.mem_flatMap.mp hsnapshot
    rw [h.own_snapshots earlier (List.mem_append_left _ hearlier) snapshot hmem]
    exact hbefore _ (List.mem_map_of_mem hearlier) _ List.mem_cons_self
  · intro snapshot hsnapshot
    obtain ⟨later, hlater, hmem⟩ := List.mem_flatMap.mp hsnapshot
    rw [h.own_snapshots later (List.mem_append_right _ (List.mem_cons_of_mem _ hlater))
      snapshot hmem]
    exact hafter _ (List.mem_map_of_mem hlater)

/-- The history that a clock looks back to. -/
def recent (done : List (EvidenceClock D)) (decisionAt : Instant) : List (FeatureSnapshot D) :=
  (snapshotsOf done).filter fun item => decisionAt - relativePeerLag ≤ item.decisionAt

omit [Hashing D] in
/-- What a clock finds on a clock within the peer lag is what the whole day has there. -/
theorem filter_recent (h : EvidenceDay symbols (done ++ clock :: rest)) {at' : Instant}
    (hlow : clock.1 - relativePeerLag ≤ at') (hhigh : at' ≤ clock.1) :
    (snapshotsOf (done ++ clock :: rest)).filter (·.decisionAt = at') =
      (recent done clock.1 ++ clock.2.1).filter (·.decisionAt = at') := by
  have hlater : (snapshotsOf rest).filter (·.decisionAt = at') = [] := by
    rw [List.filter_eq_nil_iff]
    intro snapshot hsnapshot heq
    have hafter := h.around.2 snapshot hsnapshot
    rw [of_decide_eq_true heq] at hafter
    exact absurd hhigh (not_le.mpr hafter)
  have hkept : (recent done clock.1).filter (·.decisionAt = at') =
      (snapshotsOf done).filter (·.decisionAt = at') := by
    rw [recent, List.filter_filter]
    apply List.filter_congr
    intro snapshot _
    by_cases heq : snapshot.decisionAt = at'
    · simp [heq, hlow]
    · simp [heq]
  rw [split, List.filter_append, List.filter_append, hlater, List.append_nil, List.filter_append,
    hkept]

omit [Hashing D] in
/-- The context of a clock is the one of the day. -/
theorem find_context (h : EvidenceDay symbols (done ++ clock :: rest)) :
    ((done ++ clock :: rest).map fun clock => clock.2.2).find? (·.decisionAt = clock.1) =
      some clock.2.2 := by
  have hascending := h.ascending
  rw [List.map_append, List.pairwise_append] at hascending
  have hnone : (done.map fun clock => clock.2.2).find? (·.decisionAt = clock.1) = none := by
    rw [List.find?_eq_none]
    intro context hcontext heq
    obtain ⟨earlier, hearlier, rfl⟩ := List.mem_map.mp hcontext
    have hbefore := hascending.2.2 _ (List.mem_map_of_mem hearlier) clock.1 (by simp)
    have hown := h.own_context earlier (List.mem_append_left _ hearlier)
    have hsame := of_decide_eq_true heq
    exact absurd hbefore (not_lt.mpr (hsame.symm.trans hown).le)
  have hown := h.own_context clock (by simp)
  rw [List.map_append, List.find?_append, hnone, Option.none_or, List.map_cons,
    List.find?_cons_of_pos (by simpa using hown)]

omit [Hashing D] in
/-- **One clock of a scorable day is scorable** with the history that it looks back to. -/
theorem scorable (h : EvidenceDay symbols (done ++ clock :: rest))
    (hday : Scorable (snapshotsOf (done ++ clock :: rest)) []
      ((done ++ clock :: rest).map fun clock => clock.2.2)) :
    Scorable clock.2.1 (recent done clock.1) [clock.2.2] := by
  have hsublist : (recent done clock.1 ++ clock.2.1).Sublist
      (snapshotsOf (done ++ clock :: rest)) := by
    rw [split]
    exact List.filter_sublist.append (List.sublist_append_left _ _)
  have hmem : ∀ item ∈ recent done clock.1 ++ clock.2.1,
      item ∈ [] ++ snapshotsOf (done ++ clock :: rest) := fun item hitem => hsublist.subset hitem
  have hsymbols : (snapshotsOf (done ++ clock :: rest)).map (·.symbol) ⊆
      clock.2.1.map (·.symbol) := by
    intro symbol hsymbol
    obtain ⟨snapshot, hsnapshot, rfl⟩ := List.mem_map.mp hsymbol
    obtain ⟨other, hother, hin⟩ := List.mem_flatMap.mp hsnapshot
    rw [h.same_symbols clock (by simp), ← h.same_symbols other hother]
    exact List.mem_map_of_mem hin
  refine ⟨h.nonempty clock (by simp), ?_, ?_, ?_, ?_, List.nodup_singleton _, ?_⟩
  · intro earlier hearlier snapshot hsnapshot
    rw [h.own_snapshots clock (by simp) snapshot hsnapshot]
    exact h.around.1 earlier (List.mem_filter.mp hearlier).1
  · intro item hitem other hother
    exact hday.lineage item (hmem item hitem) other (hmem other hother)
  · intro item hitem
    exact hday.symbols item (hmem item hitem)
  · exact (hsublist.map _).nodup hday.unique
  · intro context hcontext
    obtain rfl := List.mem_singleton.mp hcontext
    obtain ⟨hlineage, hzones⟩ := hday.contexts_match clock.2.2 (List.mem_map.mpr
      ⟨clock, by simp, rfl⟩)
    constructor
    · intro first hfirst
      have hin : first ∈ snapshotsOf (done ++ clock :: rest) :=
        hsublist.subset (List.mem_append_right _ (List.mem_of_mem_head? hfirst))
      obtain ⟨head, hhead⟩ := Option.isSome_iff_exists.mp
        (List.isSome_head?.mpr (List.ne_nil_of_mem hin))
      obtain ⟨hdate, hsha⟩ := hlineage head hhead
      have hsame := hday.lineage head (List.mem_of_mem_head? hhead) first hin
      simp only [FeatureSnapshot.lineage, Prod.mk.injEq] at hsame
      exact ⟨hdate.trans hsame.1, hsha.trans hsame.2.2⟩
    · rw [hzones]
      apply sortOn_eq_of_perm
      · apply (List.perm_ext_iff_of_nodup (List.nodup_dedup _) (List.nodup_dedup _)).mpr
        intro symbol
        rw [List.mem_dedup, List.mem_dedup]
        constructor
        · intro hsymbol
          exact hsymbols hsymbol
        · intro hsymbol
          obtain ⟨snapshot, hsnapshot, rfl⟩ := List.mem_map.mp hsymbol
          exact List.mem_map_of_mem (hsublist.subset (List.mem_append_right _ hsnapshot))
      · rw [List.map_id]
        exact List.nodup_dedup _

/-- **One clock of a day scores as the day does.** -/
theorem score (h : EvidenceDay symbols (done ++ clock :: rest))
    (hday : Scorable (snapshotsOf (done ++ clock :: rest)) []
      ((done ++ clock :: rest).map fun clock => clock.2.2))
    {scored : List (List (BaselineCandidate D))}
    (hscored : (sortOn (·.clockKey) clock.2.1).mapM (scoreSnapshot
      ⟨snapshotsOf (done ++ clock :: rest), (done ++ clock :: rest).map fun clock => clock.2.2⟩) =
      .ok scored) :
    scoreBuyFirstBaselines clock.2.1 [clock.2.2] (recent done clock.1) = .ok scored.flatten := by
  refine scoreBuyFirstBaselines_eq_ok.mpr ⟨h.scorable hday, scored, ?_, rfl⟩
  rw [← hscored]
  refine mapM_congr fun snapshot hsnapshot => ?_
  have hclock := h.own_snapshots clock (by simp) snapshot (mem_sortOn.mp hsnapshot)
  have hlag := relativePeerLag_pos
  apply scoreSnapshot_congr
  · intro at' hat
    refine (h.filter_recent ?_ ?_).symm
    · rcases hat with rfl | rfl
      · exact (sub_lt_self _ hlag).le.trans hclock.ge
      · rw [hclock]
    · rcases hat with rfl | rfl
      · exact hclock.le
      · exact (sub_lt_self _ hlag).le.trans hclock.le
  · have hcontext := h.find_context
    rw [← hclock] at hcontext
    have hown := h.own_context clock (by simp)
    have hsame : clock.2.2.decisionAt = snapshot.decisionAt := hown.trans hclock.symm
    rw [ScoringEvidence.context, ScoringEvidence.context, hcontext]
    simp [hsame]

omit [Hashing D] in
/-- The history after a clock is what later clocks look back to. -/
theorem recent_step (h : EvidenceDay symbols (done ++ clock :: rest))
    {later : EvidenceClock D} (hlater : later ∈ rest) :
    ShadowArbitrationJournal.recentHistory (recent done clock.1 ++ clock.2.1) later.1 =
      recent (done ++ [clock]) later.1 := by
  have hsublist : (recent done clock.1 ++ clock.2.1).Sublist
      (snapshotsOf (done ++ clock :: rest)) := by
    rw [split]
    exact List.filter_sublist.append (List.sublist_append_left _ _)
  have hascending := h.ascending
  rw [List.map_append, List.pairwise_append, List.map_cons, List.pairwise_cons] at hascending
  have hless : clock.1 < later.1 := hascending.2.1.1 _ (List.mem_map_of_mem hlater)
  have hkept : (snapshotsOf done).filter (fun item =>
      decide (later.1 - relativePeerLag ≤ item.decisionAt) &&
        decide (clock.1 - relativePeerLag ≤ item.decisionAt)) =
      (snapshotsOf done).filter fun item => later.1 - relativePeerLag ≤ item.decisionAt := by
    apply List.filter_congr
    intro item _
    by_cases hitem : later.1 - relativePeerLag ≤ item.decisionAt
    · have hearlier : clock.1 - relativePeerLag ≤ item.decisionAt :=
        (sub_le_sub_right hless.le _).trans hitem
      simp [hitem, hearlier]
    · simp [hitem]
  rw [recentHistory_eq_filter later.1 (h.ordered.sublist hsublist), List.filter_append, recent,
    List.filter_filter, hkept, recent, snapshotsOf, snapshotsOf, List.flatMap_append,
    List.filter_append, List.flatMap_singleton]

end EvidenceDay

/-! ## A day -/

/-- The journal's scoring as a machine, whose state is the history that it keeps. -/
def scoringMachine : Clocked Raised (List (FeatureSnapshot D)) (StreamEnvelope D)
    (List (FeatureSnapshot D) × DecisionContext D) (List (BaselineCandidate D)) Instant where
  apply := fun history _ => .ok history
  decide := fun history decisionAt evidence => do
    let recent := ShadowArbitrationJournal.recentHistory history decisionAt
    let candidates ← scoreBuyFirstBaselines evidence.1 [evidence.2] recent
    return (recent ++ evidence.1, candidates)

/-- The clocks that are left, from a history that has what each of them looks back to. -/
theorem scoringMachine_replay {symbols : List String} {done rest : List (EvidenceClock D)}
    {history : List (FeatureSnapshot D)} {scored : List (List (List (BaselineCandidate D)))}
    (h : EvidenceDay symbols (done ++ rest))
    (hday : Scorable (snapshotsOf (done ++ rest)) []
      ((done ++ rest).map fun clock => clock.2.2))
    (hhistory : ∀ clock ∈ rest, ShadowArbitrationJournal.recentHistory history clock.1 =
      EvidenceDay.recent done clock.1)
    (hscored : List.Forall₂ (fun clock scored => (sortOn (·.clockKey) clock.2.1).mapM
      (scoreSnapshot ⟨snapshotsOf (done ++ rest), (done ++ rest).map fun clock => clock.2.2⟩) =
      .ok scored) rest scored) (envelopes : List (StreamEnvelope D)) :
    scoringMachine.replay (·.receivedAt) history envelopes rest =
      .ok (scored.map List.flatten) := by
  induction rest generalizing done history scored envelopes with
  | nil =>
      obtain rfl : scored = [] := by simpa using hscored
      rfl
  | cons clock rest ih =>
      obtain ⟨first, later, hfirst, hlater, rfl⟩ := List.forall₂_cons_left_iff.mp hscored
      have hassoc : done ++ clock :: rest = (done ++ [clock]) ++ rest := by simp
      have hscore : scoreBuyFirstBaselines clock.2.1 [clock.2.2]
          (ShadowArbitrationJournal.recentHistory history clock.1) = .ok first.flatten := by
        rw [hhistory clock List.mem_cons_self]
        exact h.score hday hfirst
      have hnext : ∀ next ∈ rest, ShadowArbitrationJournal.recentHistory
          (ShadowArbitrationJournal.recentHistory history clock.1 ++ clock.2.1) next.1 =
          EvidenceDay.recent (done ++ [clock]) next.1 := by
        intro next hmem
        rw [hhistory clock List.mem_cons_self]
        exact h.recent_step hmem
      rw [hassoc] at h hday hlater
      have htail := ih h hday hnext hlater
        (envelopes.dropWhile (·.receivedAt ≤ clock.1))
      have hidle : scoringMachine.applyUntil (·.receivedAt) clock.1 history envelopes =
          .ok (history, envelopes.dropWhile (·.receivedAt ≤ clock.1)) :=
        Clocked.applyUntil_idle fun _ _ => rfl
      have hdecide : scoringMachine.decide history clock.1 clock.2 = .ok
          (ShadowArbitrationJournal.recentHistory history clock.1 ++ clock.2.1,
            first.flatten) := by
        simp only [scoringMachine, hscore, ok_bind]
        rfl
      simp only [Clocked.replay, hidle, hdecide, htail, ok_bind]
      rfl

/-- **Incremental scoring.**  What `score_buy_first_baselines` writes of a whole day is what the
journal writes clock by clock with its pruned history. -/
theorem scoring_incremental {symbols : List String} {clocks : List (EvidenceClock D)}
    {candidates : List (BaselineCandidate D)} (h : EvidenceDay symbols clocks)
    (hscored : scoreBuyFirstBaselines (snapshotsOf clocks) (clocks.map fun clock => clock.2.2)
      [] = .ok candidates) (envelopes : List (StreamEnvelope D)) :
    ∃ answers, scoringMachine.replay (·.receivedAt) [] envelopes clocks = .ok answers ∧
      candidates = answers.flatten := by
  obtain ⟨hday, scored, hall, rfl⟩ := scoreBuyFirstBaselines_eq_ok.mp hscored
  have hfine : ∀ a b : FeatureSnapshot D, a.decisionAt < b.decisionAt →
      a.clockKey ≤ b.clockKey := by
    intro a b hless
    exact le_of_lt (Prod.Lex.toLex_lt_toLex.mpr (.inl hless))
  have hsorted := h.batched.sortOn hfine (by
    rw [EvidenceDay.snapshotsOf_batches]
    exact hday.unique)
  rw [EvidenceDay.snapshotsOf_batches, List.flatMap_map] at hsorted
  rw [List.nil_append, hsorted] at hall
  obtain ⟨each, heach, rfl⟩ := mapM_flatMap_ok hall
  refine ⟨each.map List.flatten, ?_, ?_⟩
  · exact @scoringMachine_replay D _ symbols [] clocks [] each h hday (fun _ _ => rfl) heach
      envelopes
  · rw [List.flatten_flatten]

end MiniLakehouse
