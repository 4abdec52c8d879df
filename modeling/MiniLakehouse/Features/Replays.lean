import MiniLakehouse.Features.Clocks
import MiniLakehouse.Library.Batches
import MiniLakehouse.Library.Clocked

/-!
# Replayed features

`replay_features` as a run of the feature engine over clocks (`replayFeatures_ok`).  Its answers
come under ascending clocks, one snapshot for each configured symbol (`replay_batched`).
-/

namespace MiniLakehouse

variable {D : Type} [Hashing D]

namespace FeatureEngine

/-- The engine as a machine that is asked with whether a gap affects the clock. -/
def machine [Sdk] (configuration : TradingVersion) :
    Clocked Raised FeatureEngine (StreamEnvelope D) Bool (List (FeatureSnapshot D)) Instant where
  apply := fun engine envelope =>
    match engine.apply configuration envelope with
    | (.error raised, _) => .error raised
    | (.ok _, applied) => .ok applied
  decide := fun engine decisionAt affected => do
    let (current, engine) ← engine.snapshots configuration decisionAt
    return (engine, if affected then current.map (·.noteGap) else current)

variable {configuration : TradingVersion} {engine : FeatureEngine}

/-! ## Snapshots of one clock -/

/-- What every snapshot of a clock has of the clock and of the configuration. -/
structure EmittedAt (configuration : TradingVersion) (decisionAt : Instant)
    (snapshot : FeatureSnapshot D) : Prop where
  clock : snapshot.decisionAt = decisionAt
  date : snapshot.tradeDate = configuration.market.timezone.date decisionAt
  configured : snapshot.configurationSha256 = configuration.sha256
  version : snapshot.featureVersion = configuration.features.version

/-- The snapshots of a clock: one for each configured symbol, in their order. -/
structure EmittedAll (configuration : TradingVersion) (decisionAt : Instant)
    (snapshots : List (FeatureSnapshot D)) : Prop where
  symbols : snapshots.map (·.symbol) = configuration.market.symbols
  each : ∀ snapshot ∈ snapshots, EmittedAt configuration decisionAt snapshot

theorem EmittedAll.nonempty {decisionAt : Instant} {snapshots : List (FeatureSnapshot D)}
    (h : EmittedAll configuration decisionAt snapshots) : snapshots ≠ [] := by
  intro hnil
  have hsymbols := h.symbols
  rw [hnil] at hsymbols
  exact configuration.market.symbols_unique.1 hsymbols.symm

omit [Hashing D] in
theorem noteGap_symbol (snapshot : FeatureSnapshot D) :
    snapshot.noteGap.symbol = snapshot.symbol := by
  unfold FeatureSnapshot.noteGap
  split <;> rfl

theorem EmittedAt.noteGap {decisionAt : Instant} {snapshot : FeatureSnapshot D}
    (h : EmittedAt configuration decisionAt snapshot) :
    EmittedAt configuration decisionAt snapshot.noteGap := by
  unfold FeatureSnapshot.noteGap
  split
  · exact h
  · exact ⟨h.clock, h.date, h.configured, h.version⟩

theorem EmittedAll.noteGap {decisionAt : Instant} {snapshots : List (FeatureSnapshot D)}
    (h : EmittedAll configuration decisionAt snapshots) :
    EmittedAll configuration decisionAt (snapshots.map (·.noteGap)) where
  symbols := by
    rw [List.map_map, ← h.symbols]
    exact List.map_congr_left fun snapshot _ => noteGap_symbol snapshot
  each := by
    intro snapshot hsnapshot
    obtain ⟨plain, hplain, rfl⟩ := List.mem_map.mp hsnapshot
    exact (h.each plain hplain).noteGap

theorem snapshot_emitted {decisionAt : Instant} {session : MarketSession} {symbol : String}
    {snapshot : FeatureSnapshot D}
    (h : engine.snapshot configuration decisionAt session symbol = .ok snapshot) :
    snapshot.symbol = symbol ∧ EmittedAt configuration decisionAt snapshot := by
  simp only [FeatureEngine.snapshot, FeatureSnapshot.modelValidate, bind_eq_ok,
    validated_eq_ok] at h
  obtain ⟨_, -, _, -, _, -, -, rfl⟩ := h
  exact ⟨rfl, rfl, rfl, rfl, rfl⟩

/-- What a decision returns: the clock's snapshots and an engine that has decided it. -/
theorem snapshots_ok {decisionAt : Instant} {current : List (FeatureSnapshot D)}
    {after : FeatureEngine} (h : engine.snapshots configuration decisionAt = .ok (current, after)) :
    (∀ last ∈ engine.lastDecisionAt, last < decisionAt) ∧
      after.lastDecisionAt = some decisionAt ∧ EmittedAll configuration decisionAt current := by
  simp only [snapshots, bind_eq_ok, require_eq_ok, pure_eq_ok, Prod.mk.injEq] at h
  obtain ⟨_, -, _, hlast, _, -, _, -, emitted, hemitted, rfl, rfl⟩ := h
  have hall := mapM_eq_ok.mp hemitted
  refine ⟨?_, rfl, ?_, ?_⟩
  · intro last hmem
    rw [Option.mem_def.mp hmem] at hlast
    simpa using hlast
  · have hsymbols := map_eq_of_forall₂ (f := fun symbol => symbol)
      (g := fun item : FeatureSnapshot D => item.symbol)
      (hall.imp fun _ _ hsnapshot => (snapshot_emitted hsnapshot).1)
    simpa using hsymbols
  · intro snapshot hsnapshot
    obtain ⟨symbol, -, hsymbol⟩ := exists_of_mem_forall₂ hall hsnapshot
    exact (snapshot_emitted hsymbol).2

/-! ## Runs -/

variable [Sdk]

theorem applyUntil_eq (upTo : Instant) (envelopes : List (StreamEnvelope D)) :
    engine.applyUntil configuration upTo envelopes =
      (machine configuration).applyUntil (·.receivedAt) upTo engine envelopes := by
  induction envelopes generalizing engine with
  | nil => rfl
  | cons envelope rest ih =>
      by_cases hreceived : envelope.receivedAt ≤ upTo
      · simp only [FeatureEngine.applyUntil, Clocked.applyUntil, if_pos hreceived, machine]
        cases hresult : engine.apply configuration envelope with
        | mk result applied =>
            cases result with
            | error raised => rfl
            | ok update => exact ih
      · simp only [FeatureEngine.applyUntil, Clocked.applyUntil, if_neg hreceived]

/-- **The answers of a replay** come under ascending clocks, each with the snapshots of its
clock. -/
theorem replay_emitted {clocks : List (Instant × Bool)} {envelopes : List (StreamEnvelope D)}
    {answers : List (List (FeatureSnapshot D))}
    (h : (machine configuration).replay (·.receivedAt) engine envelopes clocks = .ok answers) :
    (clocks.map Prod.fst).Pairwise (· < ·) ∧
      (∀ last ∈ engine.lastDecisionAt, ∀ clock ∈ clocks, last < clock.1) ∧
      List.Forall₂ (fun clock answer => EmittedAll configuration clock.1 answer) clocks
        answers := by
  induction clocks generalizing engine envelopes answers with
  | nil =>
      obtain rfl := Except.ok.inj h
      exact ⟨.nil, fun _ _ _ hclock => absurd hclock List.not_mem_nil, .nil⟩
  | cons clock clocks ih =>
      simp only [Clocked.replay, bind_eq_ok, pure_eq_ok] at h
      obtain ⟨taken, htaken, decided, hdecided, later, hlater, rfl⟩ := h
      simp only [machine, bind_eq_ok, pure_eq_ok] at hdecided
      obtain ⟨⟨current, after⟩, hsnapshots, rfl⟩ := hdecided
      obtain ⟨hlast, hafter, hemitted⟩ := snapshots_ok hsnapshots
      rw [applyUntil_lastDecisionAt ((applyUntil_eq clock.1 envelopes).trans htaken)] at hlast
      obtain ⟨hascending, hbefore, hall⟩ := ih hlater
      have hnext : ∀ next ∈ clocks, clock.1 < next.1 := hbefore clock.1 hafter
      refine ⟨?_, ?_, .cons ?_ hall⟩
      · rw [List.map_cons, List.pairwise_cons]
        refine ⟨?_, hascending⟩
        intro next hnextmem
        obtain ⟨found, hfound, rfl⟩ := List.mem_map.mp hnextmem
        exact hnext found hfound
      · intro last hmem next hnextmem
        have hfirst := hlast last hmem
        rcases List.mem_cons.mp hnextmem with rfl | hlatermem
        · exact hfirst
        · exact hfirst.trans (hnext next hlatermem)
      · by_cases haffected : clock.2 = true
        · rw [if_pos haffected]
          exact hemitted.noteGap
        · rw [if_neg haffected]
          exact hemitted

/-- The answers as batches under their clocks. -/
theorem replay_batched {clocks : List (Instant × Bool)} {envelopes : List (StreamEnvelope D)}
    {answers : List (List (FeatureSnapshot D))}
    (h : (machine configuration).replay (·.receivedAt) engine envelopes clocks = .ok answers) :
    Batched (fun snapshot : FeatureSnapshot D => snapshot.decisionAt)
      ((clocks.map Prod.fst).zip answers) := by
  obtain ⟨hascending, -, hall⟩ := replay_emitted h
  have hlength : (clocks.map Prod.fst).length ≤ answers.length := by
    rw [List.length_map, hall.length_eq]
  have hpairs : ∀ batch ∈ (clocks.map Prod.fst).zip answers,
      EmittedAll configuration batch.1 batch.2 := by
    intro batch hbatch
    have hmap : List.Forall₂ (fun clock answer => EmittedAll configuration clock answer)
        (clocks.map Prod.fst) answers := List.forall₂_map_left_iff.mpr hall
    exact (List.forall₂_iff_zip.mp hmap).2 hbatch
  refine ⟨?_, fun batch hbatch => (hpairs batch hbatch).nonempty, ?_⟩
  · rw [List.map_fst_zip hlength]
    exact hascending
  · intro batch hbatch snapshot hsnapshot
    exact ((hpairs batch hbatch).each snapshot hsnapshot).clock

/-! ## `replay_features` -/

theorem replayDecisions_eq {gaps : List StreamGap} {times : List Instant}
    {envelopes : List (StreamEnvelope D)} {done snapshots : List (FeatureSnapshot D)} :
    (∃ after, times.foldlM (replayDecision configuration gaps) (engine, envelopes, done) =
        .ok after ∧ after.2.2 = snapshots) ↔
      ∃ answers, (machine configuration).replay (·.receivedAt) engine envelopes
        (Clocked.marked (gapAffected configuration gaps) times) = .ok answers ∧
        snapshots = done ++ answers.flatten := by
  induction times generalizing engine envelopes done with
  | nil =>
      simp only [List.foldlM_nil, pure_eq_ok, Clocked.marked, List.map_nil, Clocked.replay,
        Except.ok.injEq]
      constructor
      · intro h
        obtain ⟨after, rfl, rfl⟩ := h
        exact ⟨[], rfl, by simp⟩
      · intro h
        obtain ⟨answers, rfl, rfl⟩ := h
        exact ⟨_, rfl, by simp⟩
  | cons time times ih =>
      simp only [List.foldlM_cons, bind_eq_ok, replayDecision, applyUntil_eq, pure_eq_ok,
        Clocked.marked, List.map_cons, Clocked.replay]
      constructor
      · intro h
        obtain ⟨after, ⟨_, ⟨taken, htaken, ⟨current, next⟩, hcurrent, rfl⟩, hrest⟩, hend⟩ := h
        obtain ⟨answers, hanswers, rfl⟩ := ih.mp ⟨after, hrest, hend⟩
        refine ⟨(if gapAffected configuration gaps time then current.map (·.noteGap) else current) ::
          answers, ⟨taken, htaken, (next, _), ?_, answers, hanswers, rfl⟩, ?_⟩
        · simp only [machine, hcurrent, ok_bind]
          rfl
        · simp
      · intro h
        obtain ⟨_, ⟨taken, htaken, ⟨next, answer⟩, hdecided, answers, hanswers, rfl⟩, rfl⟩ := h
        simp only [machine, bind_eq_ok, pure_eq_ok, Prod.mk.injEq] at hdecided
        obtain ⟨⟨current, after⟩, hcurrent, rfl, rfl⟩ := hdecided
        obtain ⟨final, hfinal, hend⟩ :=
          ih.mpr ⟨answers, hanswers, (List.append_assoc done _ answers.flatten).symm⟩
        exact ⟨final, ⟨_, ⟨taken, htaken, _, hcurrent, rfl⟩, hfinal⟩, hend⟩

end FeatureEngine

/-- **`replay_features` is a run over its clocks**, each labelled by whether a gap affects it. -/
theorem replayFeatures_ok [Sdk] {envelopes : List (StreamEnvelope D)}
    {configuration : TradingVersion} {tradeDate : Day} {gaps : List StreamGap}
    {snapshots : List (FeatureSnapshot D)} :
    replayFeatures envelopes configuration tradeDate gaps = .ok snapshots ↔
      ∃ times answers, decisionTimes configuration tradeDate = .ok times ∧
        (FeatureEngine.machine configuration).replay (·.receivedAt) (.initial configuration)
          envelopes (Clocked.marked (gapAffected configuration gaps) times) = .ok answers ∧
        snapshots = answers.flatten := by
  simp only [replayFeatures, bind_eq_ok, pure_eq_ok]
  constructor
  · intro h
    obtain ⟨times, htimes, after, hafter, hend⟩ := h
    obtain ⟨answers, hanswers, hsnapshots⟩ :=
      FeatureEngine.replayDecisions_eq.mp ⟨after, hafter, hend⟩
    exact ⟨times, answers, htimes, hanswers, by simpa using hsnapshots⟩
  · intro h
    obtain ⟨times, answers, htimes, hanswers, hsnapshots⟩ := h
    obtain ⟨after, hafter, hend⟩ := FeatureEngine.replayDecisions_eq.mpr
      ⟨answers, hanswers, (by simpa using hsnapshots : snapshots = [] ++ answers.flatten)⟩
    exact ⟨times, htimes, after, hafter, hend⟩

end MiniLakehouse
