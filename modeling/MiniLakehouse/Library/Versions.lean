import Mathlib

/-!
# Effective-dated versions

Rows that are versions of something: each holds from its first day to its last,
both inclusive, and the open version has no last day.  `IsHistory` says that the
versions of a key are days apart, so that one of them at most covers a day
(`IsHistory.covering_unique`) and one at most is open (`IsHistory.open_unique`).
`IsCurrent.advance` is the rule for a change that closes open versions the day
before their successors start.
-/

namespace MiniLakehouse

variable {R κ : Type}

/-- What rows are versions of, and from which day to which they hold. -/
structure Dating (R κ : Type) where
  key : R → κ
  start : R → Int
  stop : R → Option Int

namespace Dating

variable (d : Dating R κ)

/-- A version holds on a day. -/
def Covers (row : R) (day : Int) : Prop := d.start row ≤ day ∧ ∀ last ∈ d.stop row, day ≤ last

instance (row : R) (day : Int) : Decidable (d.Covers row day) := by
  unfold Covers; infer_instance

/-- A version ends before another starts. -/
def Precedes (row other : R) : Prop := ∃ last ∈ d.stop row, last < d.start other

/-- No version is empty, and the versions of a key are days apart. -/
structure IsHistory (rows : List R) : Prop where
  nonempty : ∀ row ∈ rows, ∀ last ∈ d.stop row, d.start row ≤ last
  separate : rows.Pairwise fun row other =>
    d.key row = d.key other → d.Precedes row other ∨ d.Precedes other row

/-- A history in which every key has an open version. -/
structure IsCurrent (rows : List R) : Prop extends d.IsHistory rows where
  headed : ∀ row ∈ rows, ∃ current ∈ rows, d.key current = d.key row ∧ d.stop current = none

/-- The versions of a key that hold on a day. -/
def asOf [DecidableEq κ] (rows : List R) (k : κ) (day : Int) : List R :=
  rows.filter fun row => d.key row = k ∧ d.Covers row day

variable {d} {rows : List R}

theorem isCurrent_nil : d.IsCurrent [] where
  nonempty := by simp
  separate := List.Pairwise.nil
  headed := by simp

namespace IsHistory

/-- Different versions of a key are days apart. -/
theorem apart (h : d.IsHistory rows) {row other : R} (hrow : row ∈ rows) (hother : other ∈ rows)
    (hkey : d.key row = d.key other) :
    row = other ∨ d.Precedes row other ∨ d.Precedes other row := by
  by_cases hsame : row = other
  · exact .inl hsame
  · have hsymm : ∀ x y, (d.key x = d.key y → d.Precedes x y ∨ d.Precedes y x) →
        d.key y = d.key x → d.Precedes y x ∨ d.Precedes x y :=
      fun x y hxy hyx => (hxy hyx.symm).symm
    have hsymmetric : Std.Symm fun x y : R =>
        d.key x = d.key y → d.Precedes x y ∨ d.Precedes y x := ⟨hsymm⟩
    exact .inr (h.separate.forall hrow hother hsame hkey)

/-- A version that precedes another starts before it. -/
theorem start_lt (h : d.IsHistory rows) {row other : R} (hrow : row ∈ rows)
    (hprecedes : d.Precedes row other) : d.start row < d.start other := by
  obtain ⟨last, hlast, hlt⟩ := hprecedes
  exact (h.nonempty row hrow last hlast).trans_lt hlt

theorem start_unique (h : d.IsHistory rows) {row other : R} (hrow : row ∈ rows)
    (hother : other ∈ rows) (hkey : d.key row = d.key other)
    (hstart : d.start row = d.start other) : row = other := by
  rcases h.apart hrow hother hkey with hsame | hprecedes | hprecedes
  · exact hsame
  · exact absurd hstart (h.start_lt hrow hprecedes).ne
  · exact absurd hstart (h.start_lt hother hprecedes).ne'

/-- Every other version of a key ends before the open one starts. -/
theorem precedes_open (h : d.IsHistory rows) {row current : R} (hrow : row ∈ rows)
    (hcurrent : current ∈ rows) (hkey : d.key row = d.key current)
    (hopen : d.stop current = none) : row = current ∨ d.Precedes row current := by
  rcases h.apart hrow hcurrent hkey with hsame | hprecedes | hprecedes
  · exact .inl hsame
  · exact .inr hprecedes
  · obtain ⟨last, hlast, -⟩ := hprecedes
    rw [hopen] at hlast
    cases hlast

theorem start_le_open (h : d.IsHistory rows) {row current : R} (hrow : row ∈ rows)
    (hcurrent : current ∈ rows) (hkey : d.key row = d.key current)
    (hopen : d.stop current = none) : d.start row ≤ d.start current := by
  rcases h.precedes_open hrow hcurrent hkey hopen with rfl | hprecedes
  · exact le_refl _
  · exact (h.start_lt hrow hprecedes).le

/-- **A key has one open version at most.** -/
theorem open_unique [DecidableEq κ] (h : d.IsHistory rows) (k : κ) :
    (rows.filter fun row => d.key row = k ∧ d.stop row = none).length ≤ 1 := by
  have hpairwise := h.separate.filter fun row => decide (d.key row = k ∧ d.stop row = none)
  cases hfilter : rows.filter fun row => decide (d.key row = k ∧ d.stop row = none) with
  | nil => simp
  | cons first rest =>
      cases rest with
      | nil => simp
      | cons second rest =>
          have hmem : ∀ row ∈ first :: second :: rest, d.key row = k ∧ d.stop row = none := by
            intro row hrow
            rw [← hfilter] at hrow
            exact of_decide_eq_true (List.mem_filter.mp hrow).2
          obtain ⟨hkey, hopen⟩ := hmem first (by simp)
          obtain ⟨hkey', hopen'⟩ := hmem second (by simp)
          rw [hfilter, List.pairwise_cons] at hpairwise
          rcases hpairwise.1 second (by simp) (hkey.trans hkey'.symm) with
            ⟨last, hlast, -⟩ | ⟨last, hlast, -⟩
          · rw [hopen] at hlast
            cases hlast
          · rw [hopen'] at hlast
            cases hlast

/-- **A day is covered by one version of a key at most.** -/
theorem covering_unique [DecidableEq κ] (h : d.IsHistory rows) (k : κ) (day : Int) :
    (d.asOf rows k day).length ≤ 1 := by
  unfold asOf
  have hpairwise := h.separate.filter fun row => decide (d.key row = k ∧ d.Covers row day)
  cases hfilter : rows.filter fun row => decide (d.key row = k ∧ d.Covers row day) with
  | nil => simp
  | cons first rest =>
      cases rest with
      | nil => simp
      | cons second rest =>
          have hmem : ∀ row ∈ first :: second :: rest, d.key row = k ∧ d.Covers row day := by
            intro row hrow
            rw [← hfilter] at hrow
            exact of_decide_eq_true (List.mem_filter.mp hrow).2
          obtain ⟨hkey, hstart, hstop⟩ := hmem first (by simp)
          obtain ⟨hkey', hstart', hstop'⟩ := hmem second (by simp)
          rw [hfilter, List.pairwise_cons] at hpairwise
          rcases hpairwise.1 second (by simp) (hkey.trans hkey'.symm) with
            ⟨last, hlast, hlt⟩ | ⟨last, hlast, hlt⟩
          · have := hstop last hlast
            omega
          · have := hstop' last hlast
            omega

end IsHistory

/-- **A span of days is covered where its first day is, and each day of the span that
follows the end of a version.**  Whatever order the versions have and whatever gaps there
are, coverage can only be lost on the day after a version ends. -/
theorem covered_of_boundaries {rows : List R} {first : Int} (span : Int → Prop)
    (hspan : ∀ day, first ≤ day → span (day + 1) → span day)
    (hfirst : ∃ row ∈ rows, d.Covers row first)
    (hnext : ∀ row ∈ rows, ∀ last ∈ d.stop row, span (last + 1) →
      ∃ next ∈ rows, d.Covers next (last + 1))
    {day : Int} (hafter : first ≤ day) (hday : span day) : ∃ row ∈ rows, d.Covers row day := by
  induction day, hafter using Int.leInduction with
  | base => exact hfirst
  | succ day hafter ih =>
      obtain ⟨row, hrow, hstart, hstop⟩ := ih (hspan day hafter hday)
      by_cases hlast : d.stop row = some day
      · exact hnext row hrow day hlast hday
      · refine ⟨row, hrow, by omega, ?_⟩
        intro last hmem
        have hle := hstop last hmem
        have hne : last ≠ day := by
          rintro rfl
          exact hlast hmem
        omega

/-- **A change that keeps a history current**: versions keep their keys and first days, every
added version is the first of its key or starts after the open one, which ends the day before,
and no other version changes its last day. -/
theorem IsCurrent.advance (h : d.IsCurrent rows) {change : R → R} {added : List R}
    (hkey : ∀ row ∈ rows, d.key (change row) = d.key row)
    (hstart : ∀ row ∈ rows, d.start (change row) = d.start row)
    (hunique : (added.map d.key).Nodup) (hopen : ∀ row ∈ added, d.stop row = none)
    (hafter : ∀ row ∈ added, ∀ current ∈ rows, d.key current = d.key row →
      d.stop current = none → d.start current < d.start row ∧
        d.stop (change current) = some (d.start row - 1))
    (hkept : ∀ row ∈ rows, d.stop (change row) = d.stop row ∨
      d.stop row = none ∧ ∃ later ∈ added, d.key later = d.key row) :
    d.IsCurrent (rows.map change ++ added) := by
  have hclosed : ∀ row ∈ rows, d.stop row ≠ none → d.stop (change row) = d.stop row := by
    intro row hrow hstop
    rcases hkept row hrow with hsame | ⟨hnone, -⟩
    · exact hsame
    · exact absurd hnone hstop
  have hprecedes : ∀ row ∈ rows, ∀ other ∈ rows, d.Precedes row other →
      d.Precedes (change row) (change other) := by
    rintro row hrow other hother ⟨last, hlast, hlt⟩
    refine ⟨last, ?_, by rwa [hstart other hother]⟩
    rwa [hclosed row hrow (by rw [Option.mem_def.mp hlast]; simp)]
  -- An added version starts after every stored version of its key.
  have hadded : ∀ row ∈ rows, ∀ later ∈ added, d.key row = d.key later →
      d.Precedes (change row) later := by
    intro row hrow later hlater hsame
    obtain ⟨current, hcurrent, hcurrentKey, hcurrentOpen⟩ := h.headed row hrow
    obtain ⟨hlt, hstop⟩ := hafter later hlater current hcurrent (hcurrentKey.trans hsame)
      hcurrentOpen
    rcases h.precedes_open hrow hcurrent hcurrentKey.symm hcurrentOpen with rfl | hbefore
    · exact ⟨d.start later - 1, hstop, by omega⟩
    · obtain ⟨last, hlast, hlast'⟩ := hbefore
      refine ⟨last, ?_, hlast'.trans hlt⟩
      rwa [hclosed row hrow (by rw [Option.mem_def.mp hlast]; simp)]
  refine { nonempty := ?nonempty, separate := ?separate, headed := ?headed }
  case nonempty =>
    intro row hrow last hlast
    rcases List.mem_append.mp hrow with hrow | hrow
    · obtain ⟨old, hold, rfl⟩ := List.mem_map.mp hrow
      rw [hstart old hold]
      rcases hkept old hold with hsame | ⟨hnone, later, hlater, hlaterKey⟩
      · exact h.nonempty old hold last (hsame ▸ hlast)
      · obtain ⟨hlt, hstop⟩ := hafter later hlater old hold hlaterKey.symm hnone
        rw [hstop] at hlast
        obtain rfl := Option.some_inj.mp hlast
        omega
    · rw [hopen row hrow] at hlast
      cases hlast
  case separate =>
    rw [List.pairwise_append]
    refine ⟨?_, ?_, ?_⟩
    · rw [List.pairwise_map]
      refine h.separate.imp_of_mem ?_
      intro row other hrow hother hapart hsame
      rw [hkey row hrow, hkey other hother] at hsame
      exact (hapart hsame).imp (hprecedes row hrow other hother) (hprecedes other hother row hrow)
    · refine (List.pairwise_map.mp hunique).imp ?_
      intro row other hne hsame
      exact absurd hsame hne
    · intro changed hchanged later hlater hsame
      obtain ⟨row, hrow, rfl⟩ := List.mem_map.mp hchanged
      rw [hkey row hrow] at hsame
      exact .inl (hadded row hrow later hlater hsame)
  case headed =>
    intro row hrow
    rcases List.mem_append.mp hrow with hrow | hrow
    · obtain ⟨old, hold, rfl⟩ := List.mem_map.mp hrow
      rw [hkey old hold]
      obtain ⟨current, hcurrent, hcurrentKey, hcurrentOpen⟩ := h.headed old hold
      rcases hkept current hcurrent with hsame | ⟨-, later, hlater, hlaterKey⟩
      · refine ⟨change current, ?_, (hkey current hcurrent).trans hcurrentKey,
          hsame.trans hcurrentOpen⟩
        exact List.mem_append_left _ (List.mem_map_of_mem hcurrent)
      · exact ⟨later, List.mem_append_right _ hlater, hlaterKey.trans hcurrentKey,
          hopen later hlater⟩
    · exact ⟨row, List.mem_append_right _ hrow, rfl, hopen row hrow⟩

end Dating

end MiniLakehouse
