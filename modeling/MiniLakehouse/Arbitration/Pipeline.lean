import MiniLakehouse.Arbitration.Contract
import MiniLakehouse.Arbitration.Scoring
import MiniLakehouse.Configuration.Trading
import MiniLakehouse.Context.Replays
import MiniLakehouse.Features.Replays

/-!
# The replay of a shadow journal

What `audit_shadow_journal` recomputes of a day, stage after stage (`replayShadow`), is what one
machine answers clock by clock (`replayShadow_replay`).  No record looks beyond its clock
(`shadow_replay_causal`).
-/

namespace MiniLakehouse

variable {D : Type} [Hashing D]

/-! ## Candidates of a clock -/

namespace EvidenceDay

/-- The candidates of a call are on the clocks of its snapshots. -/
theorem candidates_on_clock {snapshots history : List (FeatureSnapshot D)}
    {contexts : List (DecisionContext D)} {candidates : List (BaselineCandidate D)}
    (h : scoreBuyFirstBaselines snapshots contexts history = .ok candidates) :
    candidates ≠ [] ∧ ∀ candidate ∈ candidates, ∃ snapshot ∈ snapshots,
      candidate.tradeDate = snapshot.tradeDate ∧ candidate.decisionAt = snapshot.decisionAt := by
  obtain ⟨hscorable, scored, hscored, rfl⟩ := scoreBuyFirstBaselines_eq_ok.mp h
  have hall := mapM_eq_ok.mp hscored
  constructor
  · obtain ⟨snapshot, hsnapshot⟩ := List.exists_mem_of_ne_nil _ hscorable.nonempty
    obtain ⟨candidates, hcandidates, hof⟩ :=
      exists_of_mem_forall₂ hall.flip (mem_sortOn.mpr hsnapshot)
    have hlength := (scoreSnapshot_of hof).length_eq
    intro hnil
    have hempty := List.flatten_eq_nil_iff.mp hnil candidates hcandidates
    rw [hempty] at hlength
    exact absurd hlength (by simp [baselineNames])
  · intro candidate hcandidate
    obtain ⟨candidates, hcandidates, hmem⟩ := List.mem_flatten.mp hcandidate
    obtain ⟨snapshot, hsnapshot, hof⟩ := exists_of_mem_forall₂ hall hcandidates
    obtain ⟨name, -, hcandidateOf⟩ := exists_of_mem_forall₂ (scoreSnapshot_of hof) hmem
    exact ⟨snapshot, mem_sortOn.mp hsnapshot, hcandidateOf.tradeDate_eq,
      hcandidateOf.decisionAt_eq⟩

/-- The candidates of a day of one date come in batches under their clocks. -/
theorem scored_batches {symbols : List String} {clocks : List (EvidenceClock D)} {date : Day}
    {history : List (FeatureSnapshot D)} {envelopes : List (StreamEnvelope D)}
    {answers : List (List (BaselineCandidate D))} (h : EvidenceDay symbols clocks)
    (hdate : ∀ snapshot ∈ snapshotsOf clocks, snapshot.tradeDate = date)
    (hscored : scoringMachine.replay (·.receivedAt) history envelopes clocks = .ok answers) :
    List.Forall₂ (fun time batch => batch ≠ [] ∧ ∀ candidate ∈ batch,
      BaselineCandidate.clock candidate = toLex (date, time)) (clocks.map Prod.fst) answers := by
  have heach := Clocked.replay_forall (P := fun _ evidence candidates => ∃ history,
    scoreBuyFirstBaselines evidence.1 [evidence.2] history = .ok candidates) (fun history _ clock
      evidence candidates hdecided => by
      simp only [scoringMachine, bind_eq_ok, pure_eq_ok, Prod.mk.injEq] at hdecided
      obtain ⟨_, hcandidates, -, rfl⟩ := hdecided
      exact ⟨_, hcandidates⟩) hscored
  obtain ⟨-, hzip⟩ := List.forall₂_iff_zip.mp heach
  refine List.forall₂_map_left_iff.mpr (List.forall₂_iff_zip.mpr ⟨heach.length_eq, ?_⟩)
  intro clock batch hmem
  have hclock : clock ∈ clocks := (List.of_mem_zip hmem).1
  obtain ⟨past, hbatch⟩ := hzip hmem
  obtain ⟨hnonempty, hon⟩ := candidates_on_clock hbatch
  refine ⟨hnonempty, ?_⟩
  intro candidate hcandidate
  obtain ⟨snapshot, hsnapshot, htradeDate, hdecisionAt⟩ := hon candidate hcandidate
  have hin : snapshot ∈ snapshotsOf clocks := List.mem_flatMap.mpr ⟨clock, hclock, hsnapshot⟩
  rw [BaselineCandidate.clock, htradeDate, hdecisionAt, hdate snapshot hin,
    h.own_snapshots clock hclock snapshot hsnapshot]

end EvidenceDay

/-! ## Arbitration clock by clock -/

namespace CandidateArbitrator

variable {α : Type}

/-- The arbitrator as a machine that is asked with the candidates of a clock. -/
def machine : Clocked Raised (CandidateArbitrator D) (StreamEnvelope D)
    (α × List (BaselineCandidate D)) (List (CandidateArbitration D)) Instant where
  apply := fun arbitrator _ => .ok arbitrator
  decide := fun arbitrator _ evidence => do
    let (result, arbitrator) := arbitrator.decide evidence.2
    let results ← result
    return (arbitrator, results)

theorem machine_decide {arbitrator : CandidateArbitrator D} {clock : Instant}
    {evidence : α × List (BaselineCandidate D)}
    {decided : CandidateArbitrator D × List (CandidateArbitration D)} :
    machine.decide arbitrator clock evidence = .ok decided ↔
      (arbitrator.decide evidence.2).1 = .ok decided.2 ∧
        decided.1 = (arbitrator.decide evidence.2).2 := by
  simp only [machine, bind_eq_ok, pure_eq_ok]
  constructor
  · intro h
    obtain ⟨results, hresults, rfl⟩ := h
    exact ⟨hresults, rfl⟩
  · intro h
    exact ⟨decided.2, h.1, by rw [← h.2]⟩

/-- Calls one after the other are a replay of their clocks. -/
theorem decideAll_replay {arbitrator : CandidateArbitrator D}
    {clocks : List (Instant × α × List (BaselineCandidate D))}
    {arbitrations : List (CandidateArbitration D)}
    (h : arbitrator.decideAll (clocks.map fun clock => clock.2.2) = .ok arbitrations)
    (envelopes : List (StreamEnvelope D)) :
    ∃ answers, machine.replay (·.receivedAt) arbitrator envelopes clocks = .ok answers ∧
      arbitrations = answers.flatten := by
  induction clocks generalizing arbitrator arbitrations envelopes with
  | nil =>
      obtain rfl : [] = arbitrations := Except.ok.inj h
      exact ⟨[], rfl, rfl⟩
  | cons clock clocks ih =>
      simp only [List.map_cons, decideAll, bind_eq_ok, pure_eq_ok] at h
      obtain ⟨results, hresults, later, hlater, rfl⟩ := h
      obtain ⟨answers, hanswers, rfl⟩ :=
        ih hlater (envelopes.dropWhile (·.receivedAt ≤ clock.1))
      have hidle : (machine (α := α)).applyUntil (·.receivedAt) clock.1 arbitrator envelopes =
          .ok (arbitrator, envelopes.dropWhile (·.receivedAt ≤ clock.1)) :=
        Clocked.applyUntil_idle fun _ _ => rfl
      have hdecide : machine.decide arbitrator clock.1 clock.2 =
          .ok ((arbitrator.decide clock.2.2).2, results) := machine_decide.mpr ⟨hresults, rfl⟩
      refine ⟨results :: answers, ?_, rfl⟩
      simp only [Clocked.replay, hidle, hdecide, hanswers, ok_bind]
      rfl

/-- The results of a call are on the clock of its candidates. -/
theorem decide_on_clock {arbitrator : CandidateArbitrator D}
    {candidates : List (BaselineCandidate D)} {results : List (CandidateArbitration D)}
    (h : (arbitrator.decide candidates).1 = .ok results) :
    ∀ result ∈ results, ∃ candidate ∈ candidates, result.decisionAt = candidate.decisionAt := by
  intro result hresult
  have hcontract := contract h
  obtain ⟨candidate, hcandidate, -, -, -, -, hclock, -⟩ := hcontract.lineage result hresult
  exact ⟨candidate, hcandidate, hclock⟩

/-- Candidates in batches of one date are arbitrated batch by batch. -/
theorem arbitrateCandidates_batches {date : Day} {policy : CandidateArbitrationVersion}
    {times : List Instant} {batches : List (List (BaselineCandidate D))}
    {arbitrations : List (CandidateArbitration D)}
    (hascending : times.Pairwise (· < ·))
    (hbatches : List.Forall₂ (fun time batch => batch ≠ [] ∧ ∀ candidate ∈ batch,
      BaselineCandidate.clock candidate = toLex (date, time)) times batches)
    (h : arbitrateCandidates batches.flatten policy = .ok arbitrations) :
    (new policy).decideAll batches = .ok arbitrations := by
  have hkeys : (times.map fun time => toLex (date, time)).length ≤ batches.length := by
    rw [List.length_map, hbatches.length_eq]
  have hvalues : batches.length ≤ (times.map fun time => toLex (date, time)).length := by
    rw [List.length_map, hbatches.length_eq]
  have hmap : List.Forall₂ (fun key batch => batch ≠ [] ∧ ∀ candidate ∈ batch,
      BaselineCandidate.clock candidate = key) (times.map fun time => toLex (date, time)) batches :=
    List.forall₂_map_left_iff.mpr hbatches
  obtain ⟨-, hzip⟩ := List.forall₂_iff_zip.mp hmap
  have hbatched : Batched (fun candidate : BaselineCandidate D => candidate.clock)
      ((times.map fun time => toLex (date, time)).zip batches) := by
    refine ⟨?_, ?_, ?_⟩
    · rw [List.map_fst_zip hkeys, List.pairwise_map]
      refine hascending.imp fun hless => ?_
      exact Prod.Lex.toLex_lt_toLex.mpr (.inr ⟨rfl, hless⟩)
    · exact fun batch hbatch => (hzip hbatch).1
    · exact fun batch hbatch => (hzip hbatch).2
  have hflat : ((times.map fun time => toLex (date, time)).zip batches).flatMap Prod.snd =
      batches.flatten := by
    rw [List.flatMap_def, List.map_snd_zip hvalues]
  have hgroups : (sortOn id ((batches.flatten).map (·.clock)).dedup).map
      (byClock batches.flatten) = batches := by
    have hsame := congrArg (List.map Prod.snd) hbatched.groups
    rw [hflat, List.map_snd_zip hvalues, List.map_map] at hsame
    exact hsame
  simp only [arbitrateCandidates, bind_eq_ok] at h
  obtain ⟨_, -, hdecided⟩ := h
  rw [hgroups] at hdecided
  exact hdecided

end CandidateArbitrator

/-! ## Records of a clock -/

/-- What one clock leaves: its snapshots, its context, its candidates, their arbitrations. -/
abbrev ClockRecord (D : Type) [Hashing D] :=
  ((List (FeatureSnapshot D) × DecisionContext D) × List (BaselineCandidate D)) ×
    List (CandidateArbitration D)

/-- What a journal decides with. -/
abbrev JournalEngines (D : Type) [Hashing D] :=
  ((FeatureEngine × LiveDecisionContextEngine D) × List (FeatureSnapshot D)) ×
    CandidateArbitrator D

/-- The records of a clock are on the clock. -/
structure OnClock (configuration : TradingVersion) (clock : Instant) (record : ClockRecord D) :
    Prop where
  snapshots : FeatureEngine.EmittedAll configuration clock record.1.1.1
  context : record.1.1.2.decisionAt = clock
  candidates : ∀ candidate ∈ record.1.2, candidate.decisionAt = clock
  arbitrations : ∀ arbitration ∈ record.2, arbitration.decisionAt = clock

section

variable [Sdk] [IntervalSdk] [StatusSdk] (settings : JournalSettings D)

/-- Features, then contexts. -/
def contextMachine : Clocked Raised (FeatureEngine × LiveDecisionContextEngine D)
    (StreamEnvelope D) Bool (List (FeatureSnapshot D) × DecisionContext D) Instant :=
  (FeatureEngine.machine settings.configuration).andThen
    (LiveDecisionContextEngine.machine settings.toContextSettings)

/-- All stages of a clock, one after the other. -/
def journalMachine : Clocked Raised (JournalEngines D) (StreamEnvelope D) Bool (ClockRecord D)
    Instant :=
  ((contextMachine settings).andThen scoringMachine).andThen CandidateArbitrator.machine

omit [Sdk] [IntervalSdk] [StatusSdk] in
/-- The engines of a journal that has taken in nothing. -/
def opening (engine : LiveDecisionContextEngine D) : JournalEngines D :=
  (((.initial settings.configuration, engine), []), .new settings.arbitrationPolicy)

/-- The records that `audit_shadow_journal` compares a journal with: the candidates and the
arbitrations of a capture with the gaps between its sessions. -/
def replayShadow (envelopes : List (StreamEnvelope D)) (gaps : List StreamGap) :
    Except Raised (List (BaselineCandidate D) × List (CandidateArbitration D)) := do
  let snapshots ← replayFeatures envelopes settings.configuration settings.tradeDate gaps
  let contexts ← buildDecisionContexts settings.toContextSettings snapshots envelopes
  let candidates ← scoreBuyFirstBaselines snapshots contexts []
  let arbitrations ← arbitrateCandidates candidates settings.arbitrationPolicy
  return (candidates, arbitrations)

variable {settings}

theorem contextMachine_decide {engines after : FeatureEngine × LiveDecisionContextEngine D}
    {clock : Instant} {affected : Bool} {answer : List (FeatureSnapshot D) × DecisionContext D}
    (h : (contextMachine settings).decide engines clock affected = .ok (after, answer)) :
    FeatureEngine.EmittedAll settings.configuration clock answer.1 ∧
      answer.2.decisionAt = clock := by
  simp only [contextMachine, Clocked.andThen, FeatureEngine.machine,
    LiveDecisionContextEngine.machine, bind_eq_ok, pure_eq_ok, Prod.mk.injEq] at h
  obtain ⟨_, ⟨⟨current, next⟩, hcurrent, rfl⟩, built, hbuilt, -, rfl⟩ := h
  obtain ⟨-, -, hemitted⟩ := FeatureEngine.snapshots_ok hcurrent
  have hall : FeatureEngine.EmittedAll settings.configuration clock
      (if affected then current.map (·.noteGap) else current) := by
    by_cases haffected : affected = true
    · rw [if_pos haffected]
      exact hemitted.noteGap
    · rw [if_neg haffected]
      exact hemitted
  refine ⟨hall, ?_⟩
  obtain ⟨snapshot, hsnapshot⟩ := List.exists_mem_of_ne_nil _ hall.nonempty
  exact (LiveDecisionContextEngine.build_clock hbuilt snapshot hsnapshot).trans
    (hall.each snapshot hsnapshot).clock

theorem journalMachine_decide {engines after : JournalEngines D} {clock : Instant}
    {affected : Bool} {record : ClockRecord D}
    (h : (journalMachine settings).decide engines clock affected = .ok (after, record)) :
    OnClock settings.configuration clock record := by
  simp only [journalMachine, Clocked.andThen, bind_eq_ok, pure_eq_ok, Prod.mk.injEq] at h
  obtain ⟨_, ⟨built, hbuilt, scored, hscored, rfl⟩, arbitrated, harbitrated, -, rfl⟩ := h
  obtain ⟨hemitted, hcontext⟩ := contextMachine_decide hbuilt
  simp only [scoringMachine, bind_eq_ok, pure_eq_ok] at hscored
  obtain ⟨candidates, hcandidates, rfl⟩ := hscored
  have hon := (EvidenceDay.candidates_on_clock hcandidates).2
  have hcandidate : ∀ candidate ∈ candidates, candidate.decisionAt = clock := by
    intro candidate hmem
    obtain ⟨snapshot, hsnapshot, -, hclock⟩ := hon candidate hmem
    exact hclock.trans (hemitted.each snapshot hsnapshot).clock
  refine ⟨hemitted, hcontext, hcandidate, ?_⟩
  intro arbitration hmem
  obtain ⟨candidate, hin, hclock⟩ := CandidateArbitrator.decide_on_clock
    (CandidateArbitrator.machine_decide.mp harbitrated).1 arbitration hmem
  exact hclock.trans (hcandidate candidate hin)

/-! ## Stage by stage -/

omit [Sdk] [IntervalSdk] [StatusSdk] in
/-- The evidence of a day, from the answers of the first two stages. -/
theorem evidenceDay {configuration : TradingVersion} {clocks : List (Instant × Bool)}
    {answers : List (List (FeatureSnapshot D) × DecisionContext D)}
    (hascending : (clocks.map Prod.fst).Pairwise (· < ·))
    (h : List.Forall₂ (fun (clock : Instant × Bool) answer =>
      FeatureEngine.EmittedAll configuration clock.1 (Prod.fst answer) ∧
        (Prod.snd answer).decisionAt = clock.1) clocks answers) :
    EvidenceDay configuration.market.symbols (Clocked.relabel clocks answers) := by
  have hmap : List.Forall₂ (fun clock answer =>
      FeatureEngine.EmittedAll configuration clock (Prod.fst answer) ∧
        (Prod.snd answer).decisionAt = clock) (clocks.map Prod.fst) answers :=
    List.forall₂_map_left_iff.mpr h
  have hlength : (clocks.map Prod.fst).length ≤ answers.length := hmap.length_eq.le
  rw [Clocked.relabel_eq]
  obtain ⟨-, heach⟩ := List.forall₂_iff_zip.mp hmap
  refine ⟨?_, ?_, ?_, ?_, ?_⟩
  · rw [List.map_fst_zip hlength]
    exact hascending
  · exact fun clock hclock => (heach hclock).1.nonempty
  · exact fun clock hclock snapshot hsnapshot => ((heach hclock).1.each snapshot hsnapshot).clock
  · exact fun clock hclock => (heach hclock).2
  · exact fun clock hclock => (heach hclock).1.symbols

/-- **Clock by clock.**  What the stages give of a whole day, one after the other, are the
records of one replay. -/
theorem replayShadow_replay {envelopes : List (StreamEnvelope D)} {gaps : List StreamGap}
    {shadow : List (BaselineCandidate D) × List (CandidateArbitration D)}
    (h : replayShadow settings envelopes gaps = .ok shadow) :
    ∃ times engine records,
      decisionTimes settings.configuration settings.tradeDate = .ok times ∧
      LiveDecisionContextEngine.init settings.toContextSettings = .ok engine ∧
      envelopes.Pairwise (fun a b => a.receivedAt ≤ b.receivedAt) ∧
      (journalMachine settings).replay (·.receivedAt) (opening settings engine) envelopes
        (Clocked.marked (gapAffected settings.configuration gaps) times) = .ok records ∧
      shadow = (records.flatMap (·.1.2), records.flatMap (·.2)) := by
  simp only [replayShadow, bind_eq_ok, pure_eq_ok] at h
  obtain ⟨snapshots, hsnapshots, contexts, hcontexts, candidates, hcandidates, arbitrations,
    harbitrations, rfl⟩ := h
  obtain ⟨times, features, htimes, hfeatures, rfl⟩ := replayFeatures_ok.mp hsnapshots
  obtain ⟨engine, hengine, hbuilt, hordered⟩ := buildDecisionContexts_replay hcontexts
  generalize hclocks : Clocked.marked (gapAffected settings.configuration gaps) times = clocks
    at hfeatures
  have hascending := (FeatureEngine.replay_emitted hfeatures).1
  have hflength := Clocked.replay_length hfeatures
  -- the snapshots of the second stage are the answers of the first
  have hbatches : (Clocked.relabel clocks features).flatMap Prod.snd = features.flatten := by
    rw [List.flatMap_def, Clocked.relabel_snd hflength]
  have hfeatureClocks : featureClocks features.flatten = Clocked.relabel clocks features := by
    have hbatched := FeatureEngine.replay_batched hfeatures
    rw [← Clocked.relabel_eq] at hbatched
    rw [← hbatches]
    exact featureClocks_batched hbatched
  rw [hfeatureClocks] at hbuilt
  have hclength : contexts.length = clocks.length := by
    rw [Clocked.replay_length hbuilt, Clocked.relabel_length hflength]
  have hstaged : (contextMachine settings).replay (·.receivedAt)
      (.initial settings.configuration, engine) envelopes clocks = .ok (features.zip contexts) :=
    Clocked.replay_andThen.mpr ⟨features, contexts, hfeatures, hbuilt, rfl⟩
  have heach := Clocked.replay_forall (fun _ _ _ _ _ => contextMachine_decide) hstaged
  have hday := evidenceDay hascending heach
  have hzlength := Clocked.replay_length hstaged
  have hsame : features.length = contexts.length := hflength.trans hclength.symm
  have hsnapshotsOf : snapshotsOf (Clocked.relabel clocks (features.zip contexts)) =
      features.flatten := by
    have hmap : (Clocked.relabel clocks (features.zip contexts)).map (fun clock => clock.2.1) =
        features := by
      have hcompose := congrArg (List.map Prod.fst) (Clocked.relabel_snd hzlength)
      rw [List.map_map, List.map_fst_zip hsame.le] at hcompose
      exact hcompose
    rw [snapshotsOf, List.flatMap_def, hmap]
  have hcontextsOf : (Clocked.relabel clocks (features.zip contexts)).map
      (fun clock => clock.2.2) = contexts := by
    have hcompose := congrArg (List.map Prod.snd) (Clocked.relabel_snd hzlength)
    rw [List.map_map, List.map_snd_zip hsame.ge] at hcompose
    exact hcompose
  have hscorable := (scoreBuyFirstBaselines_eq_ok.mp hcandidates).1
  have hwhole : scoreBuyFirstBaselines
      (snapshotsOf (Clocked.relabel clocks (features.zip contexts)))
      ((Clocked.relabel clocks (features.zip contexts)).map fun clock => clock.2.2) [] =
      .ok candidates := by
    rw [hsnapshotsOf, hcontextsOf]
    exact hcandidates
  obtain ⟨scored, hscored, rfl⟩ := scoring_incremental hday hwhole envelopes
  have hslength : scored.length = clocks.length := by
    rw [Clocked.replay_length hscored, Clocked.relabel_length hzlength]
  have hstaged' : ((contextMachine settings).andThen scoringMachine).replay (·.receivedAt)
      ((.initial settings.configuration, engine), []) envelopes clocks =
      .ok ((features.zip contexts).zip scored) :=
    Clocked.replay_andThen.mpr ⟨_, scored, hstaged, hscored, rfl⟩
  have hrlength := Clocked.replay_length hstaged'
  -- the snapshots of a day share their date, so that the clocks are ordered by their instants
  obtain ⟨first, hfirst⟩ := List.exists_mem_of_ne_nil _ hscorable.nonempty
  have hdate : ∀ snapshot ∈ snapshotsOf (Clocked.relabel clocks (features.zip contexts)),
      snapshot.tradeDate = first.tradeDate := by
    rw [hsnapshotsOf]
    intro snapshot hsnapshot
    have hlineage := hscorable.lineage snapshot hsnapshot first hfirst
    simp only [FeatureSnapshot.lineage, Prod.mk.injEq] at hlineage
    exact hlineage.1
  have hbatched := hday.scored_batches hdate hscored
  rw [Clocked.relabel_fst hzlength] at hbatched
  have hdecided := CandidateArbitrator.arbitrateCandidates_batches hascending hbatched
    harbitrations
  have hcandidatesOf : (Clocked.relabel clocks ((features.zip contexts).zip scored)).map
      (fun clock => clock.2.2) = scored := by
    have hcompose := congrArg (List.map Prod.snd) (Clocked.relabel_snd hrlength)
    rw [List.map_map, List.map_snd_zip (hslength.trans hzlength.symm).le] at hcompose
    exact hcompose
  have hcalls : (CandidateArbitrator.new settings.arbitrationPolicy).decideAll
      ((Clocked.relabel clocks ((features.zip contexts).zip scored)).map fun clock => clock.2.2) =
      .ok arbitrations := by
    rw [hcandidatesOf]
    exact hdecided
  obtain ⟨results, hresults, rfl⟩ := CandidateArbitrator.decideAll_replay hcalls envelopes
  have hrun : (journalMachine settings).replay (·.receivedAt) (opening settings engine) envelopes
      clocks = .ok (((features.zip contexts).zip scored).zip results) :=
    Clocked.replay_andThen.mpr ⟨_, results, hstaged', hresults, rfl⟩
  have hresultsLength : results.length = clocks.length := by
    rw [Clocked.replay_length hresults, Clocked.relabel_length hrlength]
  refine ⟨times, engine, _, htimes, hengine, hordered, by rw [hclocks]; exact hrun, ?_⟩
  have hleft : (((features.zip contexts).zip scored).zip results).map (fun record => record.1.2) =
      scored := by
    have hcompose := congrArg (List.map Prod.snd)
      (List.map_fst_zip (hrlength.trans hresultsLength.symm).le :
        (((features.zip contexts).zip scored).zip results).map Prod.fst = _)
    rw [List.map_map, List.map_snd_zip (hslength.trans hzlength.symm).le] at hcompose
    exact hcompose
  have hright : (((features.zip contexts).zip scored).zip results).map Prod.snd = results :=
    List.map_snd_zip (hresultsLength.trans hrlength.symm).le
  rw [List.flatMap_def, List.flatMap_def, hleft, hright]

/-! ## No look-ahead -/

theorem decisionTimes_ascending {engines : JournalEngines D} {envelopes : List (StreamEnvelope D)}
    {mark : Instant → Bool} {times : List Instant} {records : List (ClockRecord D)}
    (h : (journalMachine settings).replay (·.receivedAt) engines envelopes
      (Clocked.marked mark times) = .ok records) : times.Pairwise (· < ·) := by
  obtain ⟨staged, results, hstaged, -, -⟩ := Clocked.replay_andThen.mp h
  obtain ⟨contexts, scored, hcontexts, -, -⟩ := Clocked.replay_andThen.mp hstaged
  obtain ⟨features, built, hfeatures, -, -⟩ := Clocked.replay_andThen.mp hcontexts
  have hascending := (FeatureEngine.replay_emitted hfeatures).1
  rwa [Clocked.marked_fst] at hascending

/-- **No look-ahead.**  What is replayed of two captures that agree on everything received up to
an instant, and on which of its clocks a gap affects, is the same up to the instant: neither a
candidate nor an arbitration depends on what is received after its decision. -/
theorem shadow_replay_causal {upTo : Instant} {envelopes envelopes' : List (StreamEnvelope D)}
    {gaps gaps' : List StreamGap}
    {shadow shadow' : List (BaselineCandidate D) × List (CandidateArbitration D)}
    (hreceived : envelopes.filter (·.receivedAt ≤ upTo) =
      envelopes'.filter (·.receivedAt ≤ upTo))
    (hgaps : ∀ decisionAt ≤ upTo, gapAffected settings.configuration gaps decisionAt =
      gapAffected settings.configuration gaps' decisionAt)
    (h : replayShadow settings envelopes gaps = .ok shadow)
    (h' : replayShadow settings envelopes' gaps' = .ok shadow') :
    shadow.1.filter (·.decisionAt ≤ upTo) = shadow'.1.filter (·.decisionAt ≤ upTo) ∧
      shadow.2.filter (·.decisionAt ≤ upTo) = shadow'.2.filter (·.decisionAt ≤ upTo) := by
  obtain ⟨times, engine, records, htimes, hengine, hordered, hrun, rfl⟩ := replayShadow_replay h
  obtain ⟨times', engine', records', htimes', hengine', hordered', hrun', rfl⟩ :=
    replayShadow_replay h'
  obtain rfl := Except.ok.inj (htimes.symm.trans htimes')
  obtain rfl := Except.ok.inj (hengine.symm.trans hengine')
  have hascending := decisionTimes_ascending hrun
  have hsame := Clocked.replay_alike hordered hordered' hreceived hascending hgaps hrun hrun'
  have hon := Clocked.replay_forall (fun _ _ _ _ _ => journalMachine_decide) hrun
  have hon' := Clocked.replay_forall (fun _ _ _ _ _ => journalMachine_decide) hrun'
  constructor
  · rw [Clocked.filter_answered hascending (hon.imp fun _ _ hclock => hclock.candidates),
      Clocked.filter_answered hascending (hon'.imp fun _ _ hclock => hclock.candidates), hsame]
  · rw [Clocked.filter_answered hascending (hon.imp fun _ _ hclock => hclock.arbitrations),
      Clocked.filter_answered hascending (hon'.imp fun _ _ hclock => hclock.arbitrations), hsame]

end

namespace Rehearsal

/-- Three minutes of a morning session. -/
def shortSessions : SessionScheduleConfiguration where
  openingAuction := (seconds 32400, seconds 33300)
  continuousAm := (seconds 33300, seconds 33420)
  continuousPm := (seconds 46800, seconds 46860)
  closingAuction := (seconds 46860, seconds 47700)
  times_in_day := by decide
  windows_positive := by decide
  opening_meets_am := by decide
  am_before_pm := by decide
  pm_meets_closing := by decide

def shortMarket : MarketConfiguration := { Trading.market with
  sessions := shortSessions
  boundaries_aligned := by decide }

def shortFeatures : FeatureConfiguration := { Trading.features with
  cadenceSeconds := 60
  windowsSeconds := [60]
  warmupSeconds := 60
  decisionSessions := [.continuousAm]
  cadence_bounds := by decide
  cadence_minute := by decide
  windows_nonempty := by decide
  windows_ascending := by decide
  windows_aligned := by decide
  warmup_bounds := by decide
  warmup_covers := by decide
  warmup_aligned := by decide
  decisionSessions_nonempty := by decide
  decisionSessions_ordered := by decide }

def shortDay : TradingVersion := { Trading.marketState with
  market := shortMarket
  features := shortFeatures }

theorem shortArbitration_ordered : ∀ last ∈ (none : Option Day), Trading.firstDay ≤ last := by
  simp

theorem shortArbitration_pattern : isVersionName Trading.candidateArbitration.version :=
  Trading.candidateArbitration.version_pattern

def shortArbitration : CandidateArbitrationVersion := { Trading.candidateArbitration with
  effectiveFrom := Trading.firstDay
  effectiveTo := none
  version_pattern := shortArbitration_pattern
  interval_ordered := shortArbitration_ordered }

def shortSettings : JournalSettings Spelled where
  configuration := shortDay
  policy := Trading.decisionContext
  breadthPolicy := none
  breadthMembership := none
  regimePolicy := none
  tradeDate := 20700
  arbitrationPolicy := shortArbitration
  onSelection := none

@[reducible] def intervalSdk : IntervalSdk := ⟨fun _ => none⟩
@[reducible] def statusSdk : StatusSdk := ⟨fun _ => none⟩

/-- The JSON object of the first quote. -/
def firstText : String :=
  "\x7b\"ask_prices\":[50000,50100,50200,0,0,0,0,0,0,0],\"ask_volumes\":[100,100,100,0,0,0,0,0,0,0],\"bid_prices\":[49900,49800,49700,0,0,0,0,0,0,0],\"bid_volumes\":[100,100,100,0,0,0,0,0,0,0],\"symbol\":\"VIC\",\"trading_time\":\"2026/09/04 09:15:30\",\"type\":\"quote\"\x7d"

/-- The JSON object of the second quote. -/
def secondText : String :=
  "\x7b\"ask_prices\":[50100,50200,50300,0,0,0,0,0,0,0],\"ask_volumes\":[100,100,100,0,0,0,0,0,0,0],\"bid_prices\":[49900,49800,49700,0,0,0,0,0,0,0],\"bid_volumes\":[100,100,100,0,0,0,0,0,0,0],\"symbol\":\"VIC\",\"trading_time\":\"2026/09/04 09:16:30\",\"type\":\"quote\"\x7d"

/-- An SDK that reads the two texts. -/
@[reducible] def quoteSdk : Sdk where
  tradeMessage _ := none
  quoteMessage text :=
    if text = firstText then some (quoteMessage "09:15:30" 49900 50000)
    else if text = secondText then some (quoteMessage "09:16:30" 49900 50100)
    else none

/-- A quote before the only clock and one after it. -/
def shortCapture : List (StreamEnvelope Spelled) :=
  [envelope "session-1" 1 "QuoteMessage" firstText "09:15:30" 8131 (by decide +kernel),
    envelope "session-1" 2 "QuoteMessage" secondText "09:16:30" 8191 (by decide +kernel)]

/-- 09:16, the only clock. -/
def shortClock : Instant := 20700 * dayLength + seconds 8160

def shortShadow (envelopes : List (StreamEnvelope Spelled)) :
    Except Raised (List (BaselineCandidate Spelled) × List (CandidateArbitration Spelled)) :=
  letI := quoteSdk
  letI := intervalSdk
  letI := statusSdk
  replayShadow shortSettings envelopes []

/-- Both captures are replayed, to six candidates and their arbitrations. -/
def shadowRehearsal : Bool :=
  (shortShadow shortCapture).toOption.any (fun shadow =>
    shadow.1.length == 6 && shadow.2.length == 6) &&
  (shortShadow (shortCapture.take 1)).toOption.isSome

theorem shadowRehearsal_holds : shadowRehearsal = true := by decide +kernel

end Rehearsal

open Rehearsal in
/-- The second quote, received after the clock, changes nothing on it. -/
theorem shadow_replay_causal_rehearsal : ∃ shadow shadow',
    shortShadow shortCapture = .ok shadow ∧ shortShadow (shortCapture.take 1) = .ok shadow' ∧
      shadow.1.length = 6 ∧ shadow.2.length = 6 ∧
      shadow.1.filter (·.decisionAt ≤ shortClock) = shadow'.1.filter (·.decisionAt ≤ shortClock) ∧
      shadow.2.filter (·.decisionAt ≤ shortClock) =
        shadow'.2.filter (·.decisionAt ≤ shortClock) := by
  have hrehearsal := shadowRehearsal_holds
  simp only [shadowRehearsal, Option.any_eq_true, Option.isSome_iff_exists, Bool.and_eq_true,
    beq_iff_eq] at hrehearsal
  obtain ⟨⟨shadow, hshadow, hcandidates, harbitrations⟩, shadow', hshadow'⟩ := hrehearsal
  have hrun := toOption_eq_some.mp hshadow
  have hrun' := toOption_eq_some.mp hshadow'
  have hreceived : shortCapture.filter (·.receivedAt ≤ shortClock) =
      (shortCapture.take 1).filter (·.receivedAt ≤ shortClock) := by
    have hfirst : ((20700 * dayLength + seconds 8131 : Int) ≤ shortClock) := by decide
    have hsecond : ¬((20700 * dayLength + seconds 8191 : Int) ≤ shortClock) := by decide
    simp [shortCapture, envelope, hfirst, hsecond]
  have hcausal := @shadow_replay_causal Spelled _ quoteSdk intervalSdk statusSdk shortSettings
    shortClock shortCapture (shortCapture.take 1) [] [] shadow shadow' hreceived
    (fun _ _ => rfl) hrun hrun'
  exact ⟨shadow, shadow', hrun, hrun', hcandidates, harbitrations, hcausal.1, hcausal.2⟩

end MiniLakehouse
