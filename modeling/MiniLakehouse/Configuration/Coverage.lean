import MiniLakehouse.Configuration.References
import MiniLakehouse.Library.Versions

/-!
# Effective-dated resolution

A family that its validator accepts is a history of one key: its intervals are days
apart, so that a date has one version at most.  For a constituent regime the validator
looks a breadth policy up on finitely many dates, the first of the regime and the day
after each breadth interval that ends inside it.  Coverage is lost nowhere else, so that
every date of the regime has its breadth policy, and the policy knows the reference.
-/

namespace MiniLakehouse

namespace EffectiveVersion

/-- All versions of a family are versions of one thing. -/
def dating : Dating EffectiveVersion Unit := ⟨fun _ => (), effectiveFrom, effectiveTo⟩

theorem covers_iff {item : EffectiveVersion} {value : Day} :
    dating.Covers item value ↔ item.contains value = true := contains_iff.symm

end EffectiveVersion

/-- The versions of a family that are effective on a date: one at most. -/
def ResolvesOnce (values : List EffectiveVersion) (value : Day) : Prop :=
  (values.filter (·.contains value)).length ≤ 1

theorem resolvesOnce_nil (value : Day) : ResolvesOnce [] value := by simp [ResolvesOnce]

/-- An accepted family is a history. -/
theorem EffectiveFamily.isHistory {values : List EffectiveVersion} (h : EffectiveFamily values) :
    EffectiveVersion.dating.IsHistory values where
  nonempty := by
    intro item _ last hlast
    exact item.interval_ordered last hlast
  separate := by
    apply h.ordered.imp
    intro previous current hbefore _
    exact .inl hbefore

theorem EffectiveFamily.resolvesOnce {values : List EffectiveVersion} (h : EffectiveFamily values)
    (value : Day) : ResolvesOnce values value := by
  have hunique := h.isHistory.covering_unique () value
  have hfilter : EffectiveVersion.dating.asOf values () value =
      values.filter (·.contains value) := by
    apply List.filter_congr
    intro item _
    rw [Bool.eq_iff_iff, decide_eq_true_iff, EffectiveVersion.covers_iff]
    exact and_iff_right rfl
  rwa [hfilter] at hunique

namespace TradingConfiguration

variable (configuration : TradingConfiguration)

/-- Every family that is resolved by date; evaluations resolve within their tier. -/
def families : List (List EffectiveVersion) :=
  [configuration.versions.map (·.toEffectiveVersion),
    configuration.outcomes.map (·.toEffectiveVersion),
    configuration.contexts.map (·.toEffectiveVersion),
    configuration.candidateArbitrations.map (·.toEffectiveVersion),
    configuration.promotionGates.map (·.toEffectiveVersion),
    configuration.paperExecutions.map (·.toEffectiveVersion),
    configuration.breadth.map (·.toEffectiveVersion),
    configuration.regimes.map (·.toEffectiveVersion),
    (configuration.baselineEvaluations.filter (·.tier = .exploratory)).map
      (·.toEffectiveVersion),
    (configuration.baselineEvaluations.filter (·.tier = .promotion)).map (·.toEffectiveVersion)]

variable {configuration}

/-- An optional family is absent or accepted. -/
theorem resolvesOnce_of_optional {α : Type} {family : α → EffectiveVersion} {values : List α}
    (h : values ≠ [] → EffectiveFamily (values.map family)) (value : Day) :
    ResolvesOnce (values.map family) value := by
  by_cases hempty : values = []
  · rw [hempty]
    exact resolvesOnce_nil value
  · exact (h hempty).resolvesOnce value

theorem families_resolveOnce (configuration : TradingConfiguration) (value : Day) :
    ∀ family ∈ configuration.families, ResolvesOnce family value := by
  intro family hfamily
  simp only [families, List.mem_cons, List.not_mem_nil, or_false] at hfamily
  rcases hfamily with rfl | rfl | rfl | rfl | rfl | rfl | rfl | rfl | rfl | rfl
  · exact configuration.versions_family.resolvesOnce value
  · exact configuration.outcomes_family.resolvesOnce value
  · exact configuration.contexts_family.resolvesOnce value
  · exact configuration.arbitrations_family.resolvesOnce value
  · exact configuration.gates_family.resolvesOnce value
  · exact configuration.executions_family.resolvesOnce value
  · exact resolvesOnce_of_optional configuration.breadth_family value
  · exact resolvesOnce_of_optional configuration.regimes_family value
  · exact (configuration.evaluations_family .exploratory).resolvesOnce value
  · exact (configuration.evaluations_family .promotion).resolvesOnce value

/-- The day after a breadth policy ends is looked up where it lies in the regime. -/
theorem mem_regimeBoundaries {regime : RegimeVersion} {breadth : List BreadthVersion}
    {item : BreadthVersion} (hitem : item ∈ breadth) {last : Day}
    (hlast : item.effectiveTo = some last) (hinside : regime.contains (last + 1)) : last + 1 ∈ regimeBoundaries regime breadth := by
  apply List.mem_cons_of_mem
  refine List.mem_filterMap.mpr ⟨item, hitem, ?_⟩
  simp [hlast, hinside]

/-- A breadth policy that is looked up is effective. -/
theorem contains_of_resolveBreadth {breadth : List BreadthVersion} {item : BreadthVersion}
    {value : Day} (h : MiniLakehouse.resolveBreadth breadth value = .ok (some item)) :
    item ∈ breadth ∧ item.contains value := by
  unfold MiniLakehouse.resolveBreadth at h
  split at h
  · simp at h
  · exact contains_of_resolveOptional h

/-- A breadth policy is effective on every date of a constituent regime. -/
theorem breadth_covers {regime : RegimeVersion} (hregime : regime ∈ configuration.regimes)
    (hbasis : regime.basis = .constituentBreadth) {value : Day} (hvalue : regime.contains value) :
    ∃ item ∈ configuration.breadth, item.contains value := by
  have hlookup : ∀ boundary ∈ regimeBoundaries regime configuration.breadth,
      ∃ row ∈ configuration.breadth.map (·.toEffectiveVersion),
        EffectiveVersion.dating.Covers row boundary := by
    intro boundary hboundary
    obtain ⟨item, hitem, hresolved, -⟩ :=
      configuration.regime_boundaries regime hregime hbasis boundary hboundary
    exact ⟨_, List.mem_map_of_mem hitem,
      EffectiveVersion.covers_iff.mpr (contains_of_resolveBreadth hresolved).2⟩
  have hafter := (EffectiveVersion.contains_iff.mp hvalue).1
  have hspan : ∀ day, regime.effectiveFrom ≤ day → regime.contains (day + 1) →
      regime.contains day := by
    intro day hfrom hnext
    rw [EffectiveVersion.contains_iff] at hnext ⊢
    refine ⟨hfrom, ?_⟩
    intro last hlast
    exact (Int.le_of_lt (Int.lt_succ day)).trans (hnext.2 last hlast)
  have hnext : ∀ row ∈ configuration.breadth.map (·.toEffectiveVersion),
      ∀ last ∈ row.effectiveTo, regime.contains (last + 1) →
        ∃ next ∈ configuration.breadth.map (·.toEffectiveVersion),
          EffectiveVersion.dating.Covers next (last + 1) := by
    intro row hrow last hlast hinside
    obtain ⟨item, hitem, rfl⟩ := List.mem_map.mp hrow
    exact hlookup _ (mem_regimeBoundaries hitem hlast hinside)
  obtain ⟨row, hrow, hcovers⟩ := Dating.covered_of_boundaries (fun day => regime.contains day)
    hspan (hlookup _ (List.mem_cons_self ..)) hnext hafter hvalue
  obtain ⟨item, hitem, rfl⟩ := List.mem_map.mp hrow
  exact ⟨item, hitem, EffectiveVersion.covers_iff.mp hcovers⟩

/-- Policies with a date in common overlap. -/
theorem overlaps_of_contains {left right : EffectiveVersion} {value : Day}
    (hleft : left.contains value) (hright : right.contains value) : left.overlaps right := by
  rw [EffectiveVersion.contains_iff] at hleft hright
  unfold EffectiveVersion.overlaps
  simp only [Bool.and_eq_true, Option.all_eq_true, decide_eq_true_eq]
  constructor
  · intro last hlast
    exact hright.1.trans (hleft.2 last hlast)
  · intro last hlast
    exact hleft.1.trans (hright.2 last hlast)

end TradingConfiguration

open TradingConfiguration in
/-- **Every family resolves to one version at most, and a constituent regime has its
breadth policy on each of its dates.**  The policy contains the reference of the regime. -/
theorem resolution_unique_and_covered (configuration : TradingConfiguration) (value : Day) :
    (∀ family ∈ configuration.families, ResolvesOnce family value) ∧
      ∀ regime ∈ configuration.regimes, regime.basis = .constituentBreadth →
        regime.contains value → ∃ breadth ∈ configuration.breadth,
          configuration.resolveBreadth value = .ok (some breadth) ∧ breadth.contains value ∧
            ∃ index ∈ regime.referenceIndex, index ∈ breadth.indices := by
  refine ⟨families_resolveOnce configuration value, ?_⟩
  intro regime hregime hbasis hvalue
  obtain ⟨breadth, hbreadth, hcontains⟩ := breadth_covers hregime hbasis hvalue
  have hdeclared : configuration.breadth ≠ [] := List.ne_nil_of_mem hbreadth
  refine ⟨breadth, hbreadth, ?_, hcontains, ?_⟩
  · simp only [TradingConfiguration.resolveBreadth, MiniLakehouse.resolveBreadth, if_neg hdeclared]
    exact resolveOptional_of_contains (configuration.breadth_family hdeclared) hbreadth hcontains
  · apply configuration.regime_overlaps regime hregime hbasis breadth hbreadth
    exact overlaps_of_contains hvalue hcontains

end MiniLakehouse
