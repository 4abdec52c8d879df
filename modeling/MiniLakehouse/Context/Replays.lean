import MiniLakehouse.Context.Engine
import MiniLakehouse.Library.Batches

/-!
# Replayed contexts

`build_decision_contexts` as a run of the live engine over the clocks of its snapshots
(`buildDecisionContexts_replay`).  What it is given is in receipt order
(`buildAll_ordered`).
-/

namespace MiniLakehouse

variable {D : Type} [Hashing D]

namespace LiveDecisionContextEngine

variable {settings : ContextSettings D} {engine : LiveDecisionContextEngine D}

/-! ## One clock -/

/-- The guards of `build`, as facts about its snapshots, of which `first` is the first. -/
structure Buildable (settings : ContextSettings D) (engine : LiveDecisionContextEngine D)
    (snapshots : List (FeatureSnapshot D)) (first : FeatureSnapshot D) : Prop where
  first_of : (sortOn (·.symbol) snapshots).head? = some first
  one_clock : ∀ item ∈ snapshots, item.decisionAt = first.decisionAt
  increasing : ∀ last ∈ engine.lastDecisionAt, last < first.decisionAt
  symbols : (sortOn (·.symbol) snapshots).map (·.symbol) =
    sortOn id settings.configuration.market.symbols
  lineage : ∀ item ∈ snapshots, item.tradeDate = first.tradeDate ∧
    item.configurationSha256 = first.configurationSha256
  covered : settings.policy.contains first.tradeDate
  regime_covered : settings.regimePolicy.all (·.contains first.tradeDate)
  received : ∀ last ∈ engine.lastReceivedAt, last ≤ first.decisionAt

theorem checkBuild_eq_ok {snapshots : List (FeatureSnapshot D)} {first : FeatureSnapshot D} :
    engine.checkBuild settings snapshots = .ok first ↔
      Buildable settings engine snapshots first := by
  unfold checkBuild
  have hmem : ∀ item, item ∈ snapshots ↔ item ∈ sortOn (·.symbol) snapshots :=
    fun item => mem_sortOn.symm
  cases hsorted : sortOn (·.symbol) snapshots with
  | nil =>
      constructor
      · intro h
        cases h
      · intro h
        have hfirst := h.first_of
        rw [hsorted] at hfirst
        cases hfirst
  | cons head rest =>
      simp only [bind_eq_ok, require_eq_ok, pure_eq_ok]
      rw [hsorted] at hmem
      constructor
      · intro h
        obtain ⟨_, hclock, _, hincreasing, _, ⟨hsymbols, hlineage⟩, _, hcovered, _, hregime, _,
          hreceived, rfl⟩ := h
        refine ⟨by rw [hsorted]; rfl, ?_, ?_, by rw [hsorted]; exact hsymbols, ?_, hcovered,
          hregime, ?_⟩
        · intro item hitem
          rcases List.mem_cons.mp ((hmem item).mp hitem) with rfl | hrest
          · rfl
          · exact hclock item hrest
        · intro last hlast
          rw [Option.mem_def.mp hlast] at hincreasing
          simpa using hincreasing
        · intro item hitem
          rcases List.mem_cons.mp ((hmem item).mp hitem) with rfl | hrest
          · exact ⟨rfl, rfl⟩
          · exact hlineage item hrest
        · intro last hlast
          rw [Option.mem_def.mp hlast] at hreceived
          simpa using hreceived
      · intro h
        obtain rfl : head = first := by
          have hfirst := h.first_of
          rw [hsorted] at hfirst
          exact Option.some.inj hfirst
        have hrest : ∀ item ∈ rest, item ∈ snapshots :=
          fun item hitem => (hmem item).mpr (List.mem_cons_of_mem _ hitem)
        have hsymbols := h.symbols
        rw [hsorted] at hsymbols
        refine ⟨(), fun item hitem => h.one_clock item (hrest item hitem), (), ?_, (),
          ⟨hsymbols, fun item hitem => h.lineage item (hrest item hitem)⟩, (), h.covered, (),
          h.regime_covered, (), ?_, rfl⟩
        · cases hlast : engine.lastDecisionAt with
          | none => rfl
          | some last => simpa using h.increasing last hlast
        · cases hlast : engine.lastReceivedAt with
          | none => rfl
          | some last => simpa using h.received last hlast

theorem Buildable.first_mem {snapshots : List (FeatureSnapshot D)} {first : FeatureSnapshot D}
    (h : Buildable settings engine snapshots first) : first ∈ snapshots :=
  mem_sortOn.mp (List.mem_of_mem_head? (Option.mem_def.mpr h.first_of))

/-- A context is of the clock of its snapshots. -/
theorem build_clock {snapshots : List (FeatureSnapshot D)}
    {built : LiveDecisionContextEngine D × DecisionContext D}
    (h : engine.build settings snapshots = .ok built) :
    ∀ item ∈ snapshots, built.2.decisionAt = item.decisionAt := by
  simp only [build, DecisionContext.modelValidate, bind_eq_ok, pure_eq_ok, validated_eq_ok] at h
  obtain ⟨first, hfirst, _, -, _, -, _, -, _, -, _, -, _, ⟨_, rfl⟩, rfl⟩ := h
  intro item hitem
  exact ((checkBuild_eq_ok.mp hfirst).one_clock item hitem).symm

/-! ## Runs -/

variable [Sdk] [IntervalSdk] [StatusSdk]

/-- The contexts of a batch are those of a replay over its clocks. -/
theorem buildAll_replay {envelopes : List (StreamEnvelope D)}
    {clocks : List (Instant × List (FeatureSnapshot D))} {contexts : List (DecisionContext D)}
    (h : engine.buildAll settings envelopes clocks = .ok contexts) :
    (machine settings).replay (·.receivedAt) engine envelopes clocks = .ok contexts := by
  induction clocks generalizing engine envelopes contexts with
  | nil =>
      simp only [buildAll, bind_eq_ok, pure_eq_ok] at h
      obtain ⟨_, -, rfl⟩ := h
      rfl
  | cons clock clocks ih =>
      simp only [buildAll, bind_eq_ok, pure_eq_ok] at h
      obtain ⟨taken, htaken, built, hbuilt, later, hlater, rfl⟩ := h
      have hdecide : (machine settings).decide taken.1 clock.1 clock.2 = .ok built := hbuilt
      simp only [Clocked.replay, htaken, ok_bind, hdecide, ih hlater]
      rfl

/-- What the engine takes in is received no earlier than what it has taken in. -/
theorem apply_receivedAt {envelope : StreamEnvelope D} {after : LiveDecisionContextEngine D}
    (h : engine.apply settings envelope = .ok after) :
    (∀ last ∈ engine.lastReceivedAt, last ≤ envelope.receivedAt) ∧
      after.lastReceivedAt = some envelope.receivedAt := by
  simp only [apply, bind_eq_ok, require_eq_ok, pure_eq_ok] at h
  obtain ⟨_, hordered, _, -, _, -, _, -, rfl⟩ := h
  refine ⟨?_, rfl⟩
  intro last hlast
  rw [Option.mem_def.mp hlast] at hordered
  simpa using hordered

/-- Envelopes in receipt order, none of which was received before an instant. -/
def ReceivedFrom (last : Option Instant) (envelopes : List (StreamEnvelope D)) : Prop :=
  envelopes.Pairwise (fun a b => a.receivedAt ≤ b.receivedAt) ∧
    ∀ at' ∈ last, ∀ envelope ∈ envelopes, at' ≤ envelope.receivedAt

omit [Hashing D] [Sdk] [IntervalSdk] [StatusSdk] in
theorem ReceivedFrom.cons {last : Option Instant} {envelope : StreamEnvelope D}
    {rest : List (StreamEnvelope D)} (hlast : ∀ at' ∈ last, at' ≤ envelope.receivedAt)
    (h : ReceivedFrom (some envelope.receivedAt) rest) : ReceivedFrom last (envelope :: rest) := by
  have hrest := h.2 _ rfl
  refine ⟨List.pairwise_cons.mpr ⟨hrest, h.1⟩, ?_⟩
  intro at' hat item hitem
  rcases List.mem_cons.mp hitem with rfl | hmem
  · exact hlast at' hat
  · exact (hlast at' hat).trans (hrest item hmem)

theorem foldlM_ordered {envelopes : List (StreamEnvelope D)} {after : LiveDecisionContextEngine D}
    (h : envelopes.foldlM (apply settings) engine = .ok after) :
    ReceivedFrom engine.lastReceivedAt envelopes := by
  induction envelopes generalizing engine with
  | nil => exact ⟨.nil, fun _ _ _ hmem => absurd hmem List.not_mem_nil⟩
  | cons envelope rest ih =>
      rw [List.foldlM_cons, bind_eq_ok] at h
      obtain ⟨next, hnext, hrest⟩ := h
      obtain ⟨hlast, hafter⟩ := apply_receivedAt hnext
      have hordered := ih hrest
      rw [hafter] at hordered
      exact .cons hlast hordered

theorem applyUntil_ordered {upTo : Instant} {envelopes : List (StreamEnvelope D)}
    {taken : LiveDecisionContextEngine D × List (StreamEnvelope D)}
    (h : (machine settings).applyUntil (·.receivedAt) upTo engine envelopes = .ok taken)
    (hrest : ReceivedFrom taken.1.lastReceivedAt taken.2) :
    ReceivedFrom engine.lastReceivedAt envelopes := by
  induction envelopes generalizing engine with
  | nil => exact ⟨.nil, fun _ _ _ hmem => absurd hmem List.not_mem_nil⟩
  | cons envelope rest ih =>
      by_cases hreceived : envelope.receivedAt ≤ upTo
      · simp only [Clocked.applyUntil, if_pos hreceived, bind_eq_ok] at h
        obtain ⟨next, hnext, hlater⟩ := h
        obtain ⟨hlast, hafter⟩ := apply_receivedAt hnext
        have hordered := ih hlater
        rw [hafter] at hordered
        exact .cons hlast hordered
      · simp only [Clocked.applyUntil, if_neg hreceived, Except.ok.injEq] at h
        rw [← h] at hrest
        exact hrest

omit [Sdk] [IntervalSdk] [StatusSdk] in
theorem build_receivedAt {snapshots : List (FeatureSnapshot D)}
    {built : LiveDecisionContextEngine D × DecisionContext D}
    (h : engine.build settings snapshots = .ok built) :
    built.1.lastReceivedAt = engine.lastReceivedAt := by
  simp only [build, bind_eq_ok, pure_eq_ok] at h
  obtain ⟨_, -, _, -, _, -, _, -, _, -, _, -, _, -, rfl⟩ := h
  rfl

/-- **A batch is in receipt order**, its last clock or not. -/
theorem buildAll_ordered {envelopes : List (StreamEnvelope D)}
    {clocks : List (Instant × List (FeatureSnapshot D))} {contexts : List (DecisionContext D)}
    (h : engine.buildAll settings envelopes clocks = .ok contexts) :
    ReceivedFrom engine.lastReceivedAt envelopes := by
  induction clocks generalizing engine envelopes contexts with
  | nil =>
      simp only [buildAll, bind_eq_ok, pure_eq_ok] at h
      obtain ⟨_, happlied, rfl⟩ := h
      exact foldlM_ordered happlied
  | cons clock clocks ih =>
      simp only [buildAll, bind_eq_ok, pure_eq_ok] at h
      obtain ⟨taken, htaken, built, hbuilt, later, hlater, rfl⟩ := h
      have hrest := ih hlater
      rw [build_receivedAt hbuilt] at hrest
      exact applyUntil_ordered htaken hrest

end LiveDecisionContextEngine

/-! ## Batches -/

omit [Hashing D] in
/-- The clocks of snapshots that come in batches. -/
theorem featureClocks_batched {batches : List (Instant × List (FeatureSnapshot D))}
    (h : Batched (fun snapshot : FeatureSnapshot D => snapshot.decisionAt) batches) :
    featureClocks (batches.flatMap Prod.snd) = batches :=
  h.groups

/-- **A batch of contexts is a replay** of the live engine over the clocks of the snapshots. -/
theorem buildDecisionContexts_replay [Sdk] [IntervalSdk] [StatusSdk] {settings : ContextSettings D}
    {snapshots : List (FeatureSnapshot D)} {envelopes : List (StreamEnvelope D)}
    {contexts : List (DecisionContext D)}
    (h : buildDecisionContexts settings snapshots envelopes = .ok contexts) :
    ∃ engine, LiveDecisionContextEngine.init settings = .ok engine ∧
      (LiveDecisionContextEngine.machine settings).replay (·.receivedAt) engine envelopes
        (featureClocks snapshots) = .ok contexts ∧
      envelopes.Pairwise fun a b => a.receivedAt ≤ b.receivedAt := by
  simp only [buildDecisionContexts, bind_eq_ok, require_eq_ok] at h
  obtain ⟨_, -, _, -, engine, hengine, hbuilt⟩ := h
  exact ⟨engine, hengine, LiveDecisionContextEngine.buildAll_replay hbuilt,
    (LiveDecisionContextEngine.buildAll_ordered hbuilt).1⟩

end MiniLakehouse
