import MiniLakehouse.Configuration.Trading
import MiniLakehouse.Library.Keyed

/-!
# Policy references

`validate_versions` compares the ends of an interval with the policies that a gate or
an execution references.  Inside a closed interval this covers every date.  An open
interval has no end to compare, so that its policies may end before it does.
-/

namespace MiniLakehouse

namespace EffectiveVersion

theorem contains_iff {item : EffectiveVersion} {value : Day} :
    item.contains value = true ↔
      item.effectiveFrom ≤ value ∧ ∀ last ∈ item.effectiveTo, value ≤ last := by
  cases hlast : item.effectiveTo <;> simp [contains, hlast]

/-- An effective interval has no holes. -/
theorem contains_between {item : EffectiveVersion} {first value last : Day}
    (hfirst : item.contains first) (hlast : item.contains last) (hafter : first ≤ value)
    (hbefore : value ≤ last) : item.contains value := by
  rw [contains_iff] at hfirst hlast ⊢
  exact ⟨hfirst.1.trans hafter, fun final hfinal => hbefore.trans (hlast.2 final hfinal)⟩

/-- An open interval contains every later date. -/
theorem contains_after {item : EffectiveVersion} {first value : Day}
    (hfirst : item.contains first) (hopen : item.effectiveTo = none) (hafter : first ≤ value) :
    item.contains value := by
  rw [contains_iff] at hfirst ⊢
  refine ⟨hfirst.1.trans hafter, ?_⟩
  intro last hlast
  rw [hopen] at hlast
  cases hlast

/-- An interval that contains every date from one on is open. -/
theorem effectiveTo_of_contains {item : EffectiveVersion} (first : Day)
    (h : ∀ value, first ≤ value → item.contains value) : item.effectiveTo = none := by
  cases hlast : item.effectiveTo with
  | none => rfl
  | some last =>
      have hafter := contains_iff.mp (h (max first (last + 1)) (le_max_left _ _))
      have hle := hafter.2 last hlast
      have hlater : last + 1 ≤ max first (last + 1) := le_max_right _ _
      exact absurd (hlater.trans hle) (by simp)

end EffectiveVersion

/-- The versions of a family follow each other. -/
theorem EffectiveFamily.ordered {values : List EffectiveVersion} (h : EffectiveFamily values) :
    values.Pairwise fun previous current =>
      ∃ last ∈ previous.effectiveTo, last < current.effectiveFrom := by
  have htrans : IsTrans EffectiveVersion fun previous current =>
      ∃ last ∈ previous.effectiveTo, last < current.effectiveFrom := by
    constructor
    rintro first second third ⟨last, hlast, hbefore⟩ ⟨last', hlast', hbefore'⟩
    exact ⟨last, hlast, hbefore.trans ((second.interval_ordered last' hlast').trans_lt hbefore')⟩
  exact List.isChain_iff_pairwise.mp h.2.2

/-- One version of a family at most contains a date. -/
theorem filter_contains {α : Type} {family : α → EffectiveVersion} {values : List α}
    (h : EffectiveFamily (values.map family)) {item : α} {value : Day} (hitem : item ∈ values)
    (hcontains : (family item).contains value) :
    (values.filter fun item => (family item).contains value) = [item] := by
  have hordered := (List.pairwise_map.mp h.ordered).filter fun item => (family item).contains value
  have hmem : item ∈ values.filter fun item => (family item).contains value :=
    List.mem_filter.mpr ⟨hitem, hcontains⟩
  have hall : ∀ found ∈ values.filter fun item => (family item).contains value,
      (family found).contains value :=
    fun found hfound => (List.mem_filter.mp hfound).2
  generalize (values.filter fun item => (family item).contains value) = found at *
  cases found with
  | nil => cases hmem
  | cons first rest =>
      cases rest with
      | nil =>
          obtain rfl : item = first := by simpa using hmem
          rfl
      | cons second rest =>
          obtain ⟨last, hlast, hbefore⟩ :=
            (List.pairwise_cons.mp hordered).1 second (List.mem_cons_self ..)
          have hfirst := EffectiveVersion.contains_iff.mp (hall first (by simp))
          have hsecond := EffectiveVersion.contains_iff.mp (hall second (by simp))
          exact absurd (hbefore.trans_le (hsecond.1.trans (hfirst.2 last hlast))) (lt_irrefl _)

theorem resolveEffective_of_contains {α : Type} {family : α → EffectiveVersion} {label : String}
    {values : List α} (h : EffectiveFamily (values.map family)) {item : α} {value : Day}
    (hitem : item ∈ values) (hcontains : (family item).contains value) :
    resolveEffective family label values value = .ok item := by
  simp only [resolveEffective, filter_contains h hitem hcontains]

theorem resolveOptional_of_contains {α : Type} {family : α → EffectiveVersion} {label : String}
    {values : List α} (h : EffectiveFamily (values.map family)) {item : α} {value : Day}
    (hitem : item ∈ values) (hcontains : (family item).contains value) :
    resolveOptional family label values value = .ok (some item) := by
  simp only [resolveOptional, filter_contains h hitem hcontains]

/-- A version that is resolved contains the date. -/
theorem contains_of_resolveOptional {α : Type} {family : α → EffectiveVersion} {label : String}
    {values : List α} {item : α} {value : Day}
    (h : resolveOptional family label values value = .ok (some item)) :
    item ∈ values ∧ (family item).contains value := by
  unfold resolveOptional at h
  split at h
  · next found hfound =>
      obtain rfl : found = item := by simpa using h
      apply List.mem_filter.mp
      rw [hfound]
      exact List.mem_singleton_self _
  · cases h
  · split at h
    · cases h
    · split at h <;> simp at h

theorem contains_of_resolveEffective {α : Type} {family : α → EffectiveVersion} {label : String}
    {values : List α} {item : α} {value : Day}
    (h : resolveEffective family label values value = .ok item) :
    item ∈ values ∧ (family item).contains value := by
  unfold resolveEffective at h
  split at h
  · next found hfound =>
      obtain rfl : found = item := by simpa using h
      apply List.mem_filter.mp
      rw [hfound]
      exact List.mem_singleton_self _
  · cases h

namespace TradingConfiguration

variable (configuration : TradingConfiguration)

/-- On every date of a gate its policies are effective, and on every date of an
execution the policies that it references are those that are resolved. -/
def ReferencesHold : Prop :=
  (∀ gate ∈ configuration.promotionGates, ∀ value, gate.contains value →
    (∃ evaluation ∈ configuration.baselineEvaluations, evaluation.tier = .promotion ∧
      evaluation.version = gate.evaluationVersion ∧ evaluation.contains value) ∧
    ∃ arbitration ∈ configuration.candidateArbitrations,
      arbitration.version = gate.arbitrationVersion ∧ arbitration.contains value) ∧
  ∀ execution ∈ configuration.paperExecutions, ∀ value, execution.contains value →
    (∃ arbitration, configuration.resolveCandidateArbitration value = .ok (some arbitration) ∧
      arbitration.version = execution.arbitrationVersion) ∧
    (∃ gate, configuration.resolvePromotionGate value = .ok (some gate) ∧
      gate.version = execution.promotionGateVersion) ∧
    ∃ context, configuration.resolveContext value = .ok context ∧
      context.version = execution.contextVersion

/-- An open version references open policies only. -/
def OpenReferences : Prop :=
  (∀ gate ∈ configuration.promotionGates, gate.effectiveTo = none →
    (∀ evaluation ∈ configuration.baselineEvaluations,
      evaluation.version = gate.evaluationVersion → evaluation.effectiveTo = none) ∧
    ∀ arbitration ∈ configuration.candidateArbitrations,
      arbitration.version = gate.arbitrationVersion → arbitration.effectiveTo = none) ∧
  ∀ execution ∈ configuration.paperExecutions, execution.effectiveTo = none →
    (∀ arbitration ∈ configuration.candidateArbitrations,
      arbitration.version = execution.arbitrationVersion → arbitration.effectiveTo = none) ∧
    (∀ gate ∈ configuration.promotionGates,
      gate.version = execution.promotionGateVersion → gate.effectiveTo = none) ∧
    ∀ context ∈ configuration.contexts,
      context.version = execution.contextVersion → context.effectiveTo = none

variable {configuration}

/-- A policy that contains the checked dates of a version contains all its dates, where
the version is not open without the policy. -/
theorem contains_referenced {item policy : EffectiveVersion}
    (hfirst : policy.contains item.effectiveFrom)
    (hlast : ∀ last ∈ item.effectiveTo, policy.contains last)
    (hopen : item.effectiveTo = none → policy.effectiveTo = none) {value : Day}
    (hvalue : item.contains value) : policy.contains value := by
  obtain ⟨hafter, hbefore⟩ := EffectiveVersion.contains_iff.mp hvalue
  cases hend : item.effectiveTo with
  | none => exact EffectiveVersion.contains_after hfirst (hopen hend) hafter
  | some last =>
      exact EffectiveVersion.contains_between hfirst (hlast last hend) hafter (hbefore last hend)

/-- A policy that contains all dates of an open version is open. -/
theorem open_of_contains {item policy : EffectiveVersion} (hopen : item.effectiveTo = none)
    (h : ∀ value, item.contains value → policy.contains value) : policy.effectiveTo = none := by
  apply EffectiveVersion.effectiveTo_of_contains item.effectiveFrom
  intro value hafter
  apply h
  rw [EffectiveVersion.contains_iff, hopen]
  exact ⟨hafter, by simp⟩

theorem arbitrations_named (configuration : TradingConfiguration) :
    (configuration.candidateArbitrations.map (·.version)).Nodup := by
  have h := configuration.arbitrations_family.2.1
  rwa [List.map_map] at h

theorem gates_named (configuration : TradingConfiguration) :
    (configuration.promotionGates.map (·.version)).Nodup := by
  have h := configuration.gates_family.2.1
  rwa [List.map_map] at h

theorem contexts_named (configuration : TradingConfiguration) :
    (configuration.contexts.map (·.version)).Nodup := by
  have h := configuration.contexts_family.2.1
  rwa [List.map_map] at h

end TradingConfiguration

open TradingConfiguration in
/-- **References hold on every date exactly where open versions reference open
policies**: a closed interval is checked at both of its ends. -/
theorem references_hold_iff_open (configuration : TradingConfiguration) :
    configuration.ReferencesHold ↔ configuration.OpenReferences := by
  constructor
  · rintro ⟨hgates, hexecutions⟩
    constructor
    · intro gate hgate hopen
      constructor
      · intro evaluation hevaluation hname
        apply open_of_contains hopen
        intro value hvalue
        obtain ⟨⟨found, hfound, -, hfoundName, hcontains⟩, -⟩ := hgates gate hgate value hvalue
        obtain rfl := eq_of_key_eq (·.version) configuration.evaluations_named hevaluation hfound
          (hname.trans hfoundName.symm)
        exact hcontains
      · intro arbitration harbitration hname
        apply open_of_contains hopen
        intro value hvalue
        obtain ⟨-, found, hfound, hfoundName, hcontains⟩ := hgates gate hgate value hvalue
        obtain rfl := eq_of_key_eq (·.version) configuration.arbitrations_named harbitration hfound
          (hname.trans hfoundName.symm)
        exact hcontains
    · intro execution hexecution hopen
      refine ⟨?_, ?_, ?_⟩
      · intro arbitration harbitration hname
        apply open_of_contains hopen
        intro value hvalue
        obtain ⟨⟨found, hresolved, hfoundName⟩, -⟩ := hexecutions execution hexecution value hvalue
        obtain ⟨hfound, hcontains⟩ := contains_of_resolveOptional hresolved
        obtain rfl := eq_of_key_eq (·.version) configuration.arbitrations_named harbitration hfound
          (hname.trans hfoundName.symm)
        exact hcontains
      · intro gate hgate hname
        apply open_of_contains hopen
        intro value hvalue
        obtain ⟨-, ⟨found, hresolved, hfoundName⟩, -⟩ :=
          hexecutions execution hexecution value hvalue
        obtain ⟨hfound, hcontains⟩ := contains_of_resolveOptional hresolved
        obtain rfl := eq_of_key_eq (·.version) configuration.gates_named hgate hfound
          (hname.trans hfoundName.symm)
        exact hcontains
      · intro context hcontext hname
        apply open_of_contains hopen
        intro value hvalue
        obtain ⟨-, -, found, hresolved, hfoundName⟩ := hexecutions execution hexecution value hvalue
        obtain ⟨hfound, hcontains⟩ := contains_of_resolveEffective hresolved
        obtain rfl := eq_of_key_eq (·.version) configuration.contexts_named hcontext hfound
          (hname.trans hfoundName.symm)
        exact hcontains
  · rintro ⟨hgates, hexecutions⟩
    constructor
    · intro gate hgate value hvalue
      obtain ⟨⟨evaluation, hevaluation, htier, hname, hfirst, hlast⟩, arbitration, harbitration,
        hname', hfirst', hlast', -⟩ := configuration.gate_references gate hgate
      constructor
      · refine ⟨evaluation, hevaluation, htier, hname, ?_⟩
        apply contains_referenced hfirst hlast _ hvalue
        exact fun hopen => (hgates gate hgate hopen).1 evaluation hevaluation hname
      · refine ⟨arbitration, harbitration, hname', ?_⟩
        apply contains_referenced hfirst' hlast' _ hvalue
        exact fun hopen => (hgates gate hgate hopen).2 arbitration harbitration hname'
    · intro execution hexecution value hvalue
      obtain ⟨⟨arbitration, harbitration, hname, hfirst, hlast⟩, ⟨gate, hgate, hgateName, -,
        hgateFirst, hgateLast⟩, context, hcontext, hcontextName, hcontextFirst, hcontextLast⟩ :=
        configuration.execution_references execution hexecution
      refine ⟨⟨arbitration, ?_, hname⟩, ⟨gate, ?_, hgateName⟩, context, ?_, hcontextName⟩
      · apply resolveOptional_of_contains configuration.arbitrations_family harbitration
        apply contains_referenced hfirst hlast _ hvalue
        exact fun hopen => (hexecutions execution hexecution hopen).1 arbitration harbitration hname
      · apply resolveOptional_of_contains configuration.gates_family hgate
        apply contains_referenced hgateFirst hgateLast _ hvalue
        exact fun hopen => (hexecutions execution hexecution hopen).2.1 gate hgate hgateName
      · apply resolveEffective_of_contains configuration.contexts_family hcontext
        apply contains_referenced hcontextFirst hcontextLast _ hvalue
        exact fun hopen =>
          (hexecutions execution hexecution hopen).2.2 context hcontext hcontextName

namespace Trading

/-- The declared arbitration, ended after a month. -/
def lapsingArbitration : CandidateArbitrationVersion :=
  { candidateArbitration with
    effectiveTo := some (arbitrationDay + 30)
    interval_ordered := by simp [candidateArbitration, arbitrationDay] }

/-- The shipped document with an arbitration that ends before the gate and the paper
execution that reference it. -/
def lapsing : TradingConfiguration :=
  { configuration with
    candidateArbitrations := [lapsingArbitration]
    arbitrations_family := by decide
    arbitration_outcomes := by decide
    gate_references := by decide
    execution_references := by decide }

end Trading

/-- The lapsing document is accepted, and its gate outlives the arbitration. -/
theorem references_lapse : ¬Trading.lapsing.ReferencesHold := by
  rintro ⟨hgates, -⟩
  obtain ⟨-, arbitration, harbitration, -, hcontains⟩ :=
    hgates Trading.promotionGate (List.mem_singleton_self _) (Trading.arbitrationDay + 31)
      (by decide)
  obtain rfl : arbitration = Trading.lapsingArbitration := by
    simpa [Trading.lapsing] using harbitration
  exact absurd hcontains (by decide)

end MiniLakehouse
