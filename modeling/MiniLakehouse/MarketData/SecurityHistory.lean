import MiniLakehouse.MarketData.Securities

/-!
# The history of securities

On a history the two statements of a publication come to one change of its rows
(`publishSecurities_eq`): a differing candidate closes the open version of its
symbol the day before it starts, or replaces the version of its day.  A capture
that would add or revive a version below the open one reopens the history; every
other publication keeps it current (`mergedBy_isCurrent`), and a capture that is
absorbed changes nothing when it is published again (`published_absorbed`).
-/

namespace MiniLakehouse

variable {D : Type}

/-! ## What the statements come to -/

/-- A candidate differs from the open version of its symbol, if there is one. -/
def Differs (target : List (SecurityVersion D)) (candidate : SecurityVersion D) : Prop :=
  ∀ current ∈ target, current.symbol = candidate.symbol → current.effectiveTo = none →
    current.toSecurityAttributes ≠ candidate.toSecurityAttributes

instance (target : List (SecurityVersion D)) (candidate : SecurityVersion D) :
    Decidable (Differs target candidate) := by
  unfold Differs; infer_instance

/-- The candidates that differ. -/
def changed (target candidates : List (SecurityVersion D)) : List (SecurityVersion D) :=
  candidates.filter fun candidate => Differs target candidate

/-- The version that a candidate is merged into, if any. -/
def matchedBy (on : SecurityVersion D → SecurityVersion D → Bool)
    (matched : SecurityVersion D → SecurityVersion D → SecurityVersion D)
    (changes : List (SecurityVersion D)) (row : SecurityVersion D) : SecurityVersion D :=
  (changes.find? (on row)).elim row (matched row)

/-- A row after the first statement. -/
def closedBy (changes : List (SecurityVersion D)) : SecurityVersion D → SecurityVersion D :=
  matchedBy closesVersion SecurityVersion.close changes

/-- A row after both statements. -/
def mergedBy (changes : List (SecurityVersion D)) (row : SecurityVersion D) :
    SecurityVersion D :=
  matchedBy sameVersion reviseVersion changes (closedBy changes row)

/-- The candidates for which the second statement finds no row. -/
def inserted (target changes : List (SecurityVersion D)) : List (SecurityVersion D) :=
  changes.filter fun candidate => !target.any (sameVersion · candidate)

/-- One candidate at most for each symbol, and none of them closed. -/
structure Candidates (candidates : List (SecurityVersion D)) : Prop where
  symbols : (candidates.map (·.symbol)).Nodup
  unclosed : ∀ candidate ∈ candidates, candidate.effectiveTo = none

theorem closesVersion_iff {target source : SecurityVersion D} :
    closesVersion target source = true ↔ target.symbol = source.symbol ∧
      target.effectiveTo = none ∧ target.effectiveFrom < source.effectiveFrom := by
  simp [closesVersion, SecurityVersion.isOpen, and_assoc]

theorem sameVersion_iff {target source : SecurityVersion D} :
    sameVersion target source = true ↔
      target.symbol = source.symbol ∧ target.effectiveFrom = source.effectiveFrom := by
  simp [sameVersion]

theorem Candidates.changed {candidates : List (SecurityVersion D)} (h : Candidates candidates)
    (target : List (SecurityVersion D)) : Candidates (changed target candidates) where
  symbols := h.symbols.sublist (List.filter_sublist.map _)
  unclosed := fun candidate hmem => h.unclosed candidate (List.mem_of_mem_filter hmem)

theorem mem_changed {target candidates : List (SecurityVersion D)}
    {candidate : SecurityVersion D} :
    candidate ∈ changed target candidates ↔ candidate ∈ candidates ∧ Differs target candidate := by
  simp [changed]

/-- The candidate that a condition on its symbol finds. -/
theorem Candidates.find?_eq_some {candidates : List (SecurityVersion D)} (h : Candidates candidates)
    {on : SecurityVersion D → Bool} {symbol : String}
    (hon : ∀ candidate, on candidate = true → candidate.symbol = symbol)
    {candidate : SecurityVersion D} :
    candidates.find? on = some candidate ↔ candidate ∈ candidates ∧ on candidate = true := by
  constructor
  · intro hfind
    exact ⟨List.mem_of_find?_eq_some hfind, List.find?_some hfind⟩
  · rintro ⟨hmem, hcandidate⟩
    cases hfind : candidates.find? on with
    | none => exact absurd hcandidate (List.find?_eq_none.mp hfind candidate hmem)
    | some found =>
        have hfound := List.mem_of_find?_eq_some hfind
        have hsame := (hon found (List.find?_some hfind)).trans (hon candidate hcandidate).symm
        rw [List.inj_on_of_nodup_map h.symbols hfound hmem hsame]

/-- Two candidates are not merged into one row. -/
theorem Candidates.separate {candidates : List (SecurityVersion D)} (h : Candidates candidates)
    {on : SecurityVersion D → SecurityVersion D → Bool}
    (hon : ∀ row candidate, on row candidate = true → candidate.symbol = row.symbol)
    (row : SecurityVersion D) : candidates.Pairwise fun first second =>
      on row first = true → on row second = false := by
  refine (List.pairwise_map.mp h.symbols).imp ?_
  intro first second hne hfirst
  by_contra hsecond
  rw [Bool.not_eq_false] at hsecond
  exact hne ((hon row first hfirst).trans (hon row second hsecond).symm)

theorem matchedBy_key {on : SecurityVersion D → SecurityVersion D → Bool}
    {matched : SecurityVersion D → SecurityVersion D → SecurityVersion D}
    (changes : List (SecurityVersion D)) {row : SecurityVersion D}
    (hkey : ∀ candidate, on row candidate = true →
      (matched row candidate).symbol = row.symbol ∧
        (matched row candidate).effectiveFrom = row.effectiveFrom) :
    (matchedBy on matched changes row).symbol = row.symbol ∧
      (matchedBy on matched changes row).effectiveFrom = row.effectiveFrom := by
  unfold matchedBy
  cases hfind : changes.find? (on row) with
  | none => exact ⟨rfl, rfl⟩
  | some candidate => exact hkey candidate (List.find?_some hfind)

theorem closedBy_key (changes : List (SecurityVersion D)) (row : SecurityVersion D) :
    (closedBy changes row).symbol = row.symbol ∧
      (closedBy changes row).effectiveFrom = row.effectiveFrom :=
  matchedBy_key changes fun _ _ => ⟨rfl, rfl⟩

theorem reviseVersion_key {row candidate : SecurityVersion D}
    (h : sameVersion row candidate = true) :
    (reviseVersion row candidate).symbol = row.symbol ∧
      (reviseVersion row candidate).effectiveFrom = row.effectiveFrom := by
  obtain ⟨hsymbol, hfrom⟩ := sameVersion_iff.mp h
  unfold reviseVersion
  split
  · exact ⟨hsymbol.symm, hfrom.symm⟩
  · exact ⟨rfl, rfl⟩

theorem mergedBy_key (changes : List (SecurityVersion D)) (row : SecurityVersion D) :
    (mergedBy changes row).symbol = row.symbol ∧
      (mergedBy changes row).effectiveFrom = row.effectiveFrom := by
  obtain ⟨hsymbol, hfrom⟩ := closedBy_key changes row
  have hrevised : ∀ candidate, sameVersion (closedBy changes row) candidate = true →
      (reviseVersion (closedBy changes row) candidate).symbol = (closedBy changes row).symbol ∧
        (reviseVersion (closedBy changes row) candidate).effectiveFrom =
          (closedBy changes row).effectiveFrom := fun _ h => reviseVersion_key h
  obtain ⟨hsymbol', hfrom'⟩ := matchedBy_key changes hrevised
  exact ⟨hsymbol'.trans hsymbol, hfrom'.trans hfrom⟩

/-- Where no symbol has two open versions, the changes are the candidates that differ. -/
theorem securityChanges_eq {target candidates : List (SecurityVersion D)}
    (h : ∀ symbol, (target.filter fun row =>
      row.symbol = symbol ∧ row.effectiveTo = none).length ≤ 1) :
    securityChanges target candidates = changed target candidates := by
  have hone : ∀ candidate, candidateChanges target candidate =
      if Differs target candidate then [candidate] else [] := by
    intro candidate
    have hopen : (target.filter fun current =>
        current.symbol = candidate.symbol && current.isOpen) =
        target.filter fun row => row.symbol = candidate.symbol ∧ row.effectiveTo = none := by
      apply List.filter_congr
      intro row _
      simp [SecurityVersion.isOpen]
    have hmem : ∀ current, current ∈ target.filter (fun row =>
        row.symbol = candidate.symbol ∧ row.effectiveTo = none) ↔
        current ∈ target ∧ current.symbol = candidate.symbol ∧ current.effectiveTo = none := by
      intro current
      simp
    rw [candidateChanges, hopen]
    have hlength := h candidate.symbol
    cases hfilter : target.filter fun row =>
        decide (row.symbol = candidate.symbol ∧ row.effectiveTo = none) with
    | nil =>
        rw [if_pos]
        intro current hcurrent hsymbol hto
        have := (hmem current).mpr ⟨hcurrent, hsymbol, hto⟩
        rw [hfilter] at this
        cases this
    | cons current rest =>
        rw [hfilter] at hlength
        obtain rfl : rest = [] := List.eq_nil_of_length_eq_zero (by simpa using hlength)
        have hcurrent := (hmem current).mp (by rw [hfilter]; simp)
        by_cases hattributes :
            current.toSecurityAttributes = candidate.toSecurityAttributes
        · have hnot : ¬Differs target candidate := fun hdiffers =>
            hdiffers current hcurrent.1 hcurrent.2.1 hcurrent.2.2 hattributes
          simp [hattributes, hnot]
        · have hdiffers : Differs target candidate := by
            intro other hother hsymbol hto
            have hmem' := (hmem other).mpr ⟨hother, hsymbol, hto⟩
            rw [hfilter, List.mem_singleton] at hmem'
            rw [hmem']
            exact hattributes
          simp [hattributes, hdiffers]
  unfold securityChanges changed
  induction candidates with
  | nil => rfl
  | cons candidate rest ih =>
      rw [List.flatMap_cons, hone, ih]
      by_cases hdiffers : Differs target candidate <;> simp [hdiffers]

/-! ## One publication -/

section Publication

variable {target candidates : List (SecurityVersion D)}

theorem closed_single (h : securityDating.IsHistory target) (changes : List (SecurityVersion D))
    (symbol : String) : ((target.map (closedBy changes)).filter fun row =>
      row.symbol = symbol ∧ row.effectiveTo = none).length ≤ 1 := by
  rw [List.filter_map, List.length_map]
  refine le_trans (List.Sublist.length_le ?_) (h.open_unique symbol)
  refine List.monotone_filter_right target ?_
  intro row hrow
  simp only [Function.comp, decide_eq_true_eq] at hrow ⊢
  refine ⟨(closedBy_key changes row).1.symm.trans hrow.1, ?_⟩
  have hto := hrow.2
  unfold closedBy matchedBy at hto
  cases hfind : changes.find? (closesVersion row) with
  | none =>
      rw [hfind, Option.elim_none] at hto
      exact hto
  | some candidate => simp [hfind, SecurityVersion.close] at hto

/-- The second statement reads the changes of the first. -/
theorem changed_closed (hcandidates : Candidates candidates) :
    changed (target.map (closedBy (changed target candidates))) candidates =
      changed target candidates := by
  apply List.filter_congr
  intro candidate hcandidate
  rw [decide_eq_decide]
  constructor
  · intro hdiffers current hcurrent hsymbol hto hattributes
    -- An open version that does not differ is not closed.
    have hkept : closedBy (changed target candidates) current = current := by
      unfold closedBy matchedBy
      cases hfind : (changed target candidates).find? (closesVersion current) with
      | none => rfl
      | some other =>
          obtain ⟨hother, hnew⟩ := mem_changed.mp (List.mem_of_find?_eq_some hfind)
          have hcloses := (closesVersion_iff.mp (List.find?_some hfind)).1
          have hsame := List.inj_on_of_nodup_map hcandidates.symbols hother hcandidate
            (hcloses.symm.trans hsymbol)
          rw [hsame] at hnew
          exact absurd hattributes (hnew current hcurrent hsymbol hto)
    exact hdiffers current (List.mem_map.mpr ⟨current, hcurrent, hkept⟩) hsymbol hto hattributes
  · intro hdiffers row hrow hsymbol hto
    obtain ⟨current, hcurrent, rfl⟩ := List.mem_map.mp hrow
    rw [(closedBy_key _ current).1] at hsymbol
    unfold closedBy matchedBy at hto ⊢
    cases hfind : (changed target candidates).find? (closesVersion current) with
    | none =>
        rw [hfind, Option.elim_none] at hto
        exact hdiffers current hcurrent hsymbol hto
    | some other => simp [hfind, SecurityVersion.close] at hto

/-- **Both statements on a history.** -/
theorem mergeSecurities_eq (h : securityDating.IsHistory target)
    (hcandidates : Candidates candidates) :
    mergeSecurities target candidates = .ok (target.map (mergedBy (changed target candidates)) ++
      inserted target (changed target candidates)) := by
  have hchanges : securityChanges target candidates = changed target candidates :=
    securityChanges_eq h.open_unique
  have hchangesClosed : securityChanges (target.map (closedBy (changed target candidates)))
      candidates = changed target candidates :=
    (securityChanges_eq (closed_single h _)).trans (changed_closed hcandidates)
  have hfirst : merge mergeCardinality closesVersion SecurityVersion.close (fun _ => none) target
      (changed target candidates) = .ok (target.map (closedBy (changed target candidates))) := by
    rw [merge_eq_ok fun row _ => (hcandidates.changed target).separate
      (fun row candidate hon => (closesVersion_iff.mp hon).1.symm) row]
    simp only [List.filterMap_none, List.append_nil]
    rfl
  rw [mergeSecurities, hchanges, hfirst, ok_bind, hchangesClosed,
    merge_eq_ok fun row _ => (hcandidates.changed target).separate
      (fun row candidate hon => (sameVersion_iff.mp hon).1.symm) row]
  rw [List.filterMap_some, List.map_map]
  congr 2
  apply List.filter_congr
  intro candidate _
  rw [List.any_map]
  congr 2
  funext row
  simp [sameVersion, closedBy_key]

/-- A candidate that would add or revive a version below the open one of its symbol. -/
def ReopensWith (target : List (SecurityVersion D)) (candidate : SecurityVersion D) : Prop :=
  ∃ current ∈ target, current.symbol = candidate.symbol ∧ current.effectiveTo = none ∧
    candidate.effectiveFrom < current.effectiveFrom ∧
    current.toSecurityAttributes ≠ candidate.toSecurityAttributes ∧
    ∀ row ∈ target, row.symbol = candidate.symbol →
      row.effectiveFrom = candidate.effectiveFrom → row.availableAt < candidate.availableAt

variable (h : securityDating.IsCurrent target) (hcandidates : Candidates candidates)
  (hkept : ∀ candidate ∈ candidates, ¬ReopensWith target candidate)

include h hkept in
/-- A candidate that is merged into a closed version is not newer. -/
theorem not_revived {candidate row current : SecurityVersion D} (hrow : row ∈ target)
    (hcandidate : candidate ∈ changed target candidates)
    (hsame : sameVersion row candidate = true) (hcurrent : current ∈ target)
    (hsymbol : current.symbol = row.symbol) (hopen : current.effectiveTo = none)
    (hne : row ≠ current) : ¬row.availableAt < candidate.availableAt := by
  intro hnewer
  obtain ⟨hmem, hdiffers⟩ := mem_changed.mp hcandidate
  obtain ⟨hrowSymbol, hrowFrom⟩ := sameVersion_iff.mp hsame
  have hbelow := h.start_lt hrow
    ((h.precedes_open hrow hcurrent hsymbol.symm hopen).resolve_left hne)
  refine hkept candidate hmem ⟨current, hcurrent, hsymbol.trans hrowSymbol, hopen, ?_,
    hdiffers current hcurrent (hsymbol.trans hrowSymbol) hopen, ?_⟩
  · rw [← hrowFrom]
    exact hbelow
  · intro other hother hotherSymbol hotherFrom
    have heq : other = row := h.start_unique hother hrow (hotherSymbol.trans hrowSymbol.symm)
      (hotherFrom.trans hrowFrom.symm)
    rwa [heq]

include hcandidates hkept in
/-- An inserted version starts after the open one, which both statements end the day before. -/
theorem inserted_after {candidate current : SecurityVersion D}
    (hcandidate : candidate ∈ inserted target (changed target candidates))
    (hcurrent : current ∈ target) (hsymbol : current.symbol = candidate.symbol)
    (hopen : current.effectiveTo = none) :
    current.effectiveFrom < candidate.effectiveFrom ∧
      (mergedBy (changed target candidates) current).effectiveTo =
        some (candidate.effectiveFrom - 1) := by
  have hchanged := hcandidates.changed target
  obtain ⟨hmem, hmissing⟩ := List.mem_filter.mp hcandidate
  have hmissing' : ∀ row ∈ target, sameVersion row candidate = false := by simpa using hmissing
  have hdiffers := (mem_changed.mp hmem).2
  have hlt : current.effectiveFrom < candidate.effectiveFrom := by
    rcases lt_trichotomy current.effectiveFrom candidate.effectiveFrom with hlt | heq | hgt
    · exact hlt
    · have := hmissing' current hcurrent
      rw [sameVersion_iff.mpr ⟨hsymbol, heq⟩] at this
      cases this
    · refine absurd ⟨current, hcurrent, hsymbol, hopen, hgt, hdiffers current hcurrent hsymbol hopen,
        ?_⟩ (hkept candidate (mem_changed.mp hmem).1)
      intro row hrow hrowSymbol hrowFrom
      have := hmissing' row hrow
      rw [sameVersion_iff.mpr ⟨hrowSymbol, hrowFrom⟩] at this
      cases this
  have hclosed : closedBy (changed target candidates) current = current.close candidate := by
    have hfind : (changed target candidates).find? (closesVersion current) = some candidate :=
      (hchanged.find?_eq_some fun other hother => (closesVersion_iff.mp hother).1.symm).mpr
        ⟨hmem, closesVersion_iff.mpr ⟨hsymbol, hopen, hlt⟩⟩
    rw [closedBy, matchedBy, hfind, Option.elim_some]
  refine ⟨hlt, ?_⟩
  have hunmatched : (changed target candidates).find? (sameVersion (current.close candidate)) =
      none := by
    rw [List.find?_eq_none]
    intro other hother hsame
    obtain ⟨hotherSymbol, hotherFrom⟩ := sameVersion_iff.mp hsame
    have heq := List.inj_on_of_nodup_map hchanged.symbols hother hmem
      (hotherSymbol.symm.trans hsymbol)
    rw [heq] at hotherFrom
    exact absurd hotherFrom hlt.ne
  rw [mergedBy, matchedBy, hclosed, hunmatched]
  rfl

include h hcandidates hkept in
/-- A version changes its last day only where a successor of the open one is inserted. -/
theorem mergedBy_kept {row : SecurityVersion D} (hrow : row ∈ target) :
    (mergedBy (changed target candidates) row).effectiveTo = row.effectiveTo ∨
      row.effectiveTo = none ∧
        ∃ later ∈ inserted target (changed target candidates), later.symbol = row.symbol := by
  cases hfind : (changed target candidates).find? (closesVersion row) with
  | some candidate =>
      have hmem := List.mem_of_find?_eq_some hfind
      obtain ⟨hsymbol, hopen, hlt⟩ := closesVersion_iff.mp (List.find?_some hfind)
      refine .inr ⟨hopen, candidate, List.mem_filter.mpr ⟨hmem, ?_⟩, hsymbol.symm⟩
      -- Every stored version of the symbol starts at or below the open one.
      have hbelow : ∀ other ∈ target, ¬sameVersion other candidate = true := by
        intro other hother hsame
        obtain ⟨hotherSymbol, hotherFrom⟩ := sameVersion_iff.mp hsame
        have hle : other.effectiveFrom ≤ row.effectiveFrom :=
          h.start_le_open hother hrow (hotherSymbol.trans hsymbol.symm) hopen
        rw [hotherFrom] at hle
        exact absurd hlt (not_lt.mpr hle)
      simpa using hbelow
  | none =>
      have hclosed : closedBy (changed target candidates) row = row := by
        rw [closedBy, matchedBy, hfind, Option.elim_none]
      left
      rw [mergedBy, matchedBy, hclosed]
      cases hsame : (changed target candidates).find? (sameVersion row) with
      | none => rfl
      | some candidate =>
          have hmem := List.mem_of_find?_eq_some hsame
          have hmatch := List.find?_some hsame
          rw [Option.elim_some, reviseVersion]
          split
          · next hnewer =>
              rw [(hcandidates.changed target).unclosed candidate hmem]
              obtain ⟨current, hcurrent, hsymbol, hopen⟩ := h.headed row hrow
              by_cases heq : row = current
              · rw [heq]
                exact hopen.symm
              · exact absurd hnewer (not_revived h hkept hrow hmem hmatch hcurrent hsymbol hopen heq)
          · rfl

include h hcandidates hkept in
/-- **A publication that reopens nothing keeps the history current.** -/
theorem mergedBy_isCurrent : securityDating.IsCurrent
    (target.map (mergedBy (changed target candidates)) ++
      inserted target (changed target candidates)) := by
  have hchanged := hcandidates.changed target
  apply h.advance
  · exact fun row _ => (mergedBy_key _ row).1
  · exact fun row _ => (mergedBy_key _ row).2
  · exact hchanged.symbols.sublist (List.filter_sublist.map _)
  · exact fun row hrow => hchanged.unclosed row (List.mem_of_mem_filter hrow)
  · intro candidate hcandidate current hcurrent hsymbol hopen
    exact inserted_after hcandidates hkept hcandidate hcurrent hsymbol hopen
  · intro row hrow
    exact mergedBy_kept h hcandidates hkept hrow

/-! ## Publishing again -/

/-- What a publication leaves of a candidate: the open version of its symbol has its
attributes, or starts no earlier and is no older. -/
def Absorbed (target : List (SecurityVersion D)) (candidate : SecurityVersion D) : Prop :=
  ∃ current ∈ target, current.symbol = candidate.symbol ∧ current.effectiveTo = none ∧
    (current.toSecurityAttributes = candidate.toSecurityAttributes ∨
      candidate.effectiveFrom ≤ current.effectiveFrom ∧
        (candidate.effectiveFrom = current.effectiveFrom →
          candidate.availableAt ≤ current.availableAt))

/-- The rows after a publication. -/
def publishedVersions (target candidates : List (SecurityVersion D)) : List (SecurityVersion D) :=
  target.map (mergedBy (changed target candidates)) ++ inserted target (changed target candidates)

theorem mergedBy_unmatched {changes : List (SecurityVersion D)} {row : SecurityVersion D}
    (hcloses : ∀ candidate ∈ changes, closesVersion row candidate = false)
    (hsame : ∀ candidate ∈ changes, sameVersion row candidate = true →
      ¬row.availableAt < candidate.availableAt) : mergedBy changes row = row := by
  have hclosed : closedBy changes row = row := by
    have hnone : changes.find? (closesVersion row) = none := by
      rw [List.find?_eq_none]
      intro candidate hcandidate
      simp [hcloses candidate hcandidate]
    rw [closedBy, matchedBy, hnone, Option.elim_none]
  rw [mergedBy, matchedBy, hclosed]
  cases hfind : changes.find? (sameVersion row) with
  | none => rfl
  | some candidate =>
      have hnot := hsame candidate (List.mem_of_find?_eq_some hfind) (List.find?_some hfind)
      rw [Option.elim_some, reviseVersion, if_neg hnot]

include h hkept in
/-- **Publishing what is absorbed changes nothing.** -/
theorem published_absorbed (habsorbed : ∀ candidate ∈ candidates, Absorbed target candidate) :
    publishedVersions target candidates = target := by
  -- A candidate that differs is not above the open version, and the same day no newer.
  have hbelow : ∀ candidate ∈ changed target candidates, ∀ current ∈ target,
      current.symbol = candidate.symbol → current.effectiveTo = none →
      candidate.effectiveFrom ≤ current.effectiveFrom ∧
        (candidate.effectiveFrom = current.effectiveFrom →
          candidate.availableAt ≤ current.availableAt) := by
    intro candidate hcandidate current hcurrent hsymbol hopen
    obtain ⟨hmem, hdiffers⟩ := mem_changed.mp hcandidate
    obtain ⟨other, hother, hotherSymbol, hotherOpen, hcase⟩ := habsorbed candidate hmem
    have hsame : current = other := by
      rcases h.precedes_open hcurrent hother (hsymbol.trans hotherSymbol.symm) hotherOpen with
        heq | ⟨last, hlast, -⟩
      · exact heq
      · rw [show securityDating.stop current = none from hopen] at hlast
        cases hlast
    rw [hsame]
    exact hcase.resolve_left (hdiffers other hother hotherSymbol hotherOpen)
  have hrows : target.map (mergedBy (changed target candidates)) = target := by
    calc target.map (mergedBy (changed target candidates))
        = target.map id := by
          apply List.map_congr_left
          intro row hrow
          apply mergedBy_unmatched
          · intro candidate hcandidate
            by_contra hcloses
            rw [Bool.not_eq_false, closesVersion_iff] at hcloses
            exact absurd hcloses.2.2
              (not_lt.mpr (hbelow candidate hcandidate row hrow hcloses.1 hcloses.2.1).1)
          · intro candidate hcandidate hsame
            obtain ⟨hsymbol, hfrom⟩ := sameVersion_iff.mp hsame
            obtain ⟨current, hcurrent, hcurrentSymbol, hopen⟩ := h.headed row hrow
            by_cases heq : row = current
            · rw [← heq] at hopen
              exact not_lt.mpr ((hbelow candidate hcandidate row hrow hsymbol hopen).2 hfrom.symm)
            · exact not_revived h hkept hrow hcandidate hsame hcurrent hcurrentSymbol hopen heq
      _ = target := List.map_id _
  have hnone : inserted target (changed target candidates) = [] := by
    rw [inserted, List.filter_eq_nil_iff]
    intro candidate hcandidate hmissing
    have hmissing' : ∀ row ∈ target, sameVersion row candidate = false := by simpa using hmissing
    obtain ⟨hmem, hdiffers⟩ := mem_changed.mp hcandidate
    obtain ⟨current, hcurrent, hsymbol, hopen, -⟩ := habsorbed candidate hmem
    have hle := (hbelow candidate hcandidate current hcurrent hsymbol hopen).1
    have hstored : ∀ row ∈ target, row.symbol = candidate.symbol →
        row.effectiveFrom ≠ candidate.effectiveFrom := by
      intro row hrow hrowSymbol hrowFrom
      have := hmissing' row hrow
      rw [sameVersion_iff.mpr ⟨hrowSymbol, hrowFrom⟩] at this
      cases this
    refine hkept candidate hmem ⟨current, hcurrent, hsymbol, hopen,
      lt_of_le_of_ne hle (hstored current hcurrent hsymbol).symm,
      hdiffers current hcurrent hsymbol hopen, ?_⟩
    intro row hrow hrowSymbol hrowFrom
    exact absurd hrowFrom (hstored row hrow hrowSymbol)
  rw [publishedVersions, hrows, hnone, List.append_nil]

/-- An open version that no change is about stays. -/
theorem published_untouched {current : SecurityVersion D} (hcurrent : current ∈ target)
    (hnone : ∀ candidate ∈ changed target candidates, candidate.symbol ≠ current.symbol) :
    current ∈ publishedVersions target candidates := by
  refine List.mem_append_left _ (List.mem_map.mpr ⟨current, hcurrent, ?_⟩)
  apply mergedBy_unmatched
  · intro candidate hcandidate
    by_contra hcloses
    rw [Bool.not_eq_false, closesVersion_iff] at hcloses
    exact hnone candidate hcandidate hcloses.1.symm
  · intro candidate hcandidate hsame
    exact absurd (sameVersion_iff.mp hsame).1.symm (hnone candidate hcandidate)

include h hcandidates in
/-- The open version of a symbol that a change is about: the change itself, which starts no
earlier, or the one that is stored, where the change starts before it or is no newer. -/
theorem published_open {current candidate : SecurityVersion D} (hcurrent : current ∈ target)
    (hopen : current.effectiveTo = none) (hcandidate : candidate ∈ changed target candidates)
    (hsymbol : current.symbol = candidate.symbol) :
    (candidate ∈ publishedVersions target candidates ∧ current.effectiveFrom ≤ candidate.effectiveFrom) ∨
    (current ∈ publishedVersions target candidates ∧ candidate.effectiveFrom ≤ current.effectiveFrom ∧
      (candidate.effectiveFrom = current.effectiveFrom →
        candidate.availableAt ≤ current.availableAt)) := by
  have hchanged := hcandidates.changed target
  have hsole : ∀ other ∈ changed target candidates, other.symbol = current.symbol →
      other = candidate := fun other hother hotherSymbol =>
    List.inj_on_of_nodup_map hchanged.symbols hother hcandidate (hotherSymbol.trans hsymbol)
  rcases lt_trichotomy current.effectiveFrom candidate.effectiveFrom with hlt | heq | hgt
  · -- Nothing of the symbol starts where the change does.
    refine .inl ⟨List.mem_append_right _ (List.mem_filter.mpr ⟨hcandidate, ?_⟩), hlt.le⟩
    have hmissing : ∀ row ∈ target, ¬sameVersion row candidate = true := by
      intro row hrow hsame
      obtain ⟨hrowSymbol, hrowFrom⟩ := sameVersion_iff.mp hsame
      have hle : row.effectiveFrom ≤ current.effectiveFrom :=
        h.start_le_open hrow hcurrent (hrowSymbol.trans hsymbol.symm) hopen
      rw [hrowFrom] at hle
      exact absurd hlt (not_lt.mpr hle)
    simpa using hmissing
  · have hclosed : closedBy (changed target candidates) current = current := by
      have hnone : (changed target candidates).find? (closesVersion current) = none := by
        rw [List.find?_eq_none]
        intro other hother hcloses
        obtain ⟨hotherSymbol, -, hlt⟩ := closesVersion_iff.mp hcloses
        rw [hsole other hother hotherSymbol.symm] at hlt
        exact absurd heq hlt.ne
      rw [closedBy, matchedBy, hnone, Option.elim_none]
    have hfind : (changed target candidates).find? (sameVersion current) = some candidate :=
      (hchanged.find?_eq_some fun other hother => (sameVersion_iff.mp hother).1.symm).mpr
        ⟨hcandidate, sameVersion_iff.mpr ⟨hsymbol, heq⟩⟩
    have hmerged : mergedBy (changed target candidates) current =
        reviseVersion current candidate := by
      rw [mergedBy, matchedBy, hclosed, hfind, Option.elim_some]
    have hmem : reviseVersion current candidate ∈ publishedVersions target candidates :=
      List.mem_append_left _ (List.mem_map.mpr ⟨current, hcurrent, hmerged⟩)
    by_cases hnewer : current.availableAt < candidate.availableAt
    · rw [reviseVersion, if_pos hnewer] at hmem
      exact .inl ⟨hmem, heq.le⟩
    · rw [reviseVersion, if_neg hnewer] at hmem
      exact .inr ⟨hmem, heq.ge, fun _ => not_lt.mp hnewer⟩
  · refine .inr ⟨List.mem_append_left _ (List.mem_map.mpr ⟨current, hcurrent, ?_⟩), hgt.le,
      fun heq => absurd heq hgt.ne⟩
    apply mergedBy_unmatched
    · intro other hother
      by_contra hcloses
      rw [Bool.not_eq_false, closesVersion_iff] at hcloses
      rw [hsole other hother hcloses.1.symm] at hcloses
      exact absurd hcloses.2.2 (not_lt.mpr hgt.le)
    · intro other hother hsame
      obtain ⟨hotherSymbol, hfrom⟩ := sameVersion_iff.mp hsame
      rw [hsole other hother hotherSymbol.symm] at hfrom
      exact absurd hfrom hgt.ne'

include h hcandidates in
/-- A publication absorbs its candidates. -/
theorem absorbed_published {candidate : SecurityVersion D} (hcandidate : candidate ∈ candidates) :
    Absorbed (publishedVersions target candidates) candidate := by
  by_cases hdiffers : Differs target candidate
  · have hmem := mem_changed.mpr ⟨hcandidate, hdiffers⟩
    have hopen := hcandidates.unclosed candidate hcandidate
    by_cases hnew : ∃ row ∈ target, row.symbol = candidate.symbol
    · obtain ⟨row, hrow, hrowSymbol⟩ := hnew
      obtain ⟨current, hcurrent, hsymbol, hcurrentOpen⟩ := h.headed row hrow
      rcases published_open h hcandidates hcurrent hcurrentOpen hmem (hsymbol.trans hrowSymbol)
        with ⟨hin, -⟩ | ⟨hin, hle, havailable⟩
      · exact ⟨candidate, hin, rfl, hopen, .inl rfl⟩
      · exact ⟨current, hin, hsymbol.trans hrowSymbol, hcurrentOpen, .inr ⟨hle, havailable⟩⟩
    · refine ⟨candidate, List.mem_append_right _ (List.mem_filter.mpr ⟨hmem, ?_⟩), rfl, hopen,
        .inl rfl⟩
      have hmissing : ∀ row ∈ target, ¬sameVersion row candidate = true :=
        fun row hrow hsame => hnew ⟨row, hrow, (sameVersion_iff.mp hsame).1⟩
      simpa using hmissing
  · obtain ⟨current, hcurrent, hsymbol, hopen, hattributes⟩ : ∃ current ∈ target,
        current.symbol = candidate.symbol ∧ current.effectiveTo = none ∧
          current.toSecurityAttributes = candidate.toSecurityAttributes := by
      simpa [Differs] using hdiffers
    refine ⟨current, published_untouched hcurrent ?_, hsymbol, hopen, .inl hattributes⟩
    intro other hother hotherSymbol
    obtain ⟨hmem, hnew⟩ := mem_changed.mp hother
    have heq := List.inj_on_of_nodup_map hcandidates.symbols hmem hcandidate
      (hotherSymbol.trans hsymbol)
    rw [heq] at hnew
    exact hdiffers hnew

include h hcandidates in
/-- A publication of nothing older keeps a candidate absorbed. -/
theorem Absorbed.publishedVersions {earlier : SecurityVersion D} (habsorbed : Absorbed target earlier)
    (hlater : ∀ candidate ∈ candidates, earlier.symbol = candidate.symbol →
      earlier.effectiveFrom ≤ candidate.effectiveFrom ∧
        earlier.availableAt ≤ candidate.availableAt) :
    Absorbed (publishedVersions target candidates) earlier := by
  obtain ⟨current, hcurrent, hsymbol, hopen, hcase⟩ := habsorbed
  by_cases hchange : ∃ candidate ∈ changed target candidates, candidate.symbol = current.symbol
  · obtain ⟨candidate, hcandidate, hcandidateSymbol⟩ := hchange
    have hmem := (mem_changed.mp hcandidate).1
    obtain ⟨hfrom, havailable⟩ := hlater candidate hmem (hsymbol.symm.trans hcandidateSymbol.symm)
    rcases published_open h hcandidates hcurrent hopen hcandidate hcandidateSymbol.symm with
      ⟨hin, -⟩ | ⟨hin, -⟩
    · exact ⟨candidate, hin, hcandidateSymbol.trans hsymbol, hcandidates.unclosed candidate hmem,
        .inr ⟨hfrom, fun _ => havailable⟩⟩
    · exact ⟨current, hin, hsymbol, hopen, hcase⟩
  · refine ⟨current, published_untouched hcurrent ?_, hsymbol, hopen, hcase⟩
    intro candidate hcandidate hcandidateSymbol
    exact hchange ⟨candidate, hcandidate, hcandidateSymbol⟩

include h hcandidates hkept in
/-- What was just published does not reopen anything. -/
theorem not_reopens_published {candidate : SecurityVersion D} (hcandidate : candidate ∈ candidates) :
    ¬ReopensWith (publishedVersions target candidates) candidate := by
  rintro ⟨current, hcurrent, hsymbol, hopen, hbelow, hdiffers, holder⟩
  have hhistory := mergedBy_isCurrent h hcandidates hkept
  have hsole : ∀ other ∈ publishedVersions target candidates, other.symbol = candidate.symbol →
      other.effectiveTo = none → current = other := by
    intro other hother hotherSymbol hotherOpen
    rcases hhistory.precedes_open hcurrent hother (hsymbol.trans hotherSymbol.symm) hotherOpen with
      heq | ⟨last, hlast, -⟩
    · exact heq
    · rw [show securityDating.stop current = none from hopen] at hlast
      cases hlast
  obtain ⟨absorbing, habsorbing, habsorbingSymbol, habsorbingOpen, hcase⟩ :=
    absorbed_published h hcandidates hcandidate
  obtain rfl := hsole absorbing habsorbing habsorbingSymbol habsorbingOpen
  -- The open version was there before, since the candidate did not become it.
  by_cases hnew : Differs target candidate
  · have hmem := mem_changed.mpr ⟨hcandidate, hnew⟩
    have hnotself : candidate ∉ publishedVersions target candidates := by
      intro hself
      have := hsole candidate hself rfl (hcandidates.unclosed candidate hcandidate)
      rw [this] at hdiffers
      exact hdiffers rfl
    have hold : ∃ row ∈ target, row.symbol = candidate.symbol := by
      by_contra hnone
      refine hnotself (List.mem_append_right _ (List.mem_filter.mpr ⟨hmem, ?_⟩))
      have hmissing : ∀ row ∈ target, ¬sameVersion row candidate = true :=
        fun row hrow hsame => hnone ⟨row, hrow, (sameVersion_iff.mp hsame).1⟩
      simpa using hmissing
    obtain ⟨row, hrow, hrowSymbol⟩ := hold
    obtain ⟨before, hbefore, hbeforeSymbol, hbeforeOpen⟩ := h.headed row hrow
    have hbeforeSymbol' : before.symbol = candidate.symbol := hbeforeSymbol.trans hrowSymbol
    rcases published_open h hcandidates hbefore hbeforeOpen hmem hbeforeSymbol' with
      ⟨hself, -⟩ | ⟨hin, hle, -⟩
    · exact hnotself hself
    · obtain rfl := hsole before hin hbeforeSymbol' hbeforeOpen
      refine hkept candidate hcandidate ⟨current, hbefore, hsymbol, hopen, hbelow, hdiffers, ?_⟩
      intro other hother hotherSymbol hotherFrom
      by_contra hnotolder
      have hkeptRow : mergedBy (changed target candidates) other = other := by
        apply mergedBy_unmatched
        · intro change hchange
          by_contra hcloses
          rw [Bool.not_eq_false, closesVersion_iff] at hcloses
          have heq := List.inj_on_of_nodup_map (hcandidates.changed target).symbols hchange hmem
            (hcloses.1.symm.trans hotherSymbol)
          rw [heq, hotherFrom] at hcloses
          exact lt_irrefl _ hcloses.2.2
        · intro change hchange hsame
          have heq := List.inj_on_of_nodup_map (hcandidates.changed target).symbols hchange hmem
            ((sameVersion_iff.mp hsame).1.symm.trans hotherSymbol)
          rw [heq]
          exact hnotolder
      refine hnotolder (holder other ?_ hotherSymbol hotherFrom)
      exact List.mem_append_left _ (List.mem_map.mpr ⟨other, hother, hkeptRow⟩)
  · obtain ⟨before, hbefore, hbeforeSymbol, hbeforeOpen, hattributes⟩ : ∃ before ∈ target,
        before.symbol = candidate.symbol ∧ before.effectiveTo = none ∧
          before.toSecurityAttributes = candidate.toSecurityAttributes := by
      simpa [Differs] using hnew
    have hin : before ∈ publishedVersions target candidates := by
      apply published_untouched hbefore
      intro other hother hotherSymbol
      obtain ⟨hmem, hotherNew⟩ := mem_changed.mp hother
      have heq := List.inj_on_of_nodup_map hcandidates.symbols hmem hcandidate
        (hotherSymbol.trans hbeforeSymbol)
      rw [heq] at hotherNew
      exact hnew hotherNew
    obtain rfl := hsole before hin hbeforeSymbol hbeforeOpen
    exact hdiffers hattributes

end Publication

/-! ## Every run -/

section Runs

variable [Hashing D] [SparkSql]

/-- What a capture says of its symbols. -/
def Offers (processedAt : Instant) (records : List RestRecord) (candidate : SecurityVersion D) :
    Prop :=
  ∃ record ∈ latestSecurities D records, securityCandidate processedAt record = some candidate

/-- A capture that would add or revive a version below the open one of its symbol. -/
def Reopens (target : List (SecurityVersion D)) (records : List RestRecord) : Prop :=
  ∃ processedAt candidate, Offers processedAt records candidate ∧ ReopensWith target candidate

/-- No record of a symbol was received before the earlier capture's. -/
def NotOlder (D : Type) [Hashing D] (earlier later : List RestRecord) : Prop :=
  ∀ record ∈ latestSecurities D earlier, ∀ other ∈ latestSecurities D later,
    record.symbol = other.symbol → record.receivedAt ≤ other.receivedAt

/-- Every required field is there. -/
def Normalizes (D : Type) [Hashing D] (records : List RestRecord) : Prop :=
  ∀ record ∈ latestSecurities D records, record.symbol.isSome ∧ (record.field "board").isSome

/-- The captures published into a table, one after another, where none of them reopens a
version. -/
inductive SecuritiesRun : List (List RestRecord) → List (SecurityVersion D) → Prop
  | start : SecuritiesRun [] []
  | publish {captures : List (List RestRecord)} {target target' : List (SecurityVersion D)}
      {records : List RestRecord} {processedAt : Instant} (h : SecuritiesRun captures target)
      (hkept : ¬Reopens target records)
      (hpublish : publishSecurities processedAt records target = .ok target') :
      SecuritiesRun (captures ++ [records]) target'

theorem securityCandidate_eq_some {processedAt : Instant} {record : RestRecord}
    {candidate : SecurityVersion D} (h : securityCandidate processedAt record = some candidate) :
    record.symbol = some candidate.symbol ∧ candidate.effectiveFrom = record.receivedDate ∧
      candidate.effectiveTo = none ∧ candidate.availableAt = record.receivedAt := by
  unfold securityCandidate at h
  split at h
  · next hsymbol _ =>
      cases h
      exact ⟨hsymbol, rfl, rfl, rfl⟩
  · cases h

/-- The candidates of a capture. -/
theorem securityCandidates_eq_ok {processedAt : Instant} {records : List RestRecord}
    {candidates : List (SecurityVersion D)}
    (h : securityCandidates processedAt records = .ok candidates) :
    Candidates candidates ∧
      ∀ candidate, candidate ∈ candidates ↔ Offers processedAt records candidate := by
  have hpairs : List.Forall₂ (fun record (candidate : SecurityVersion D) =>
      securityCandidate processedAt record = some candidate) (latestSecurities D records)
      candidates := by
    refine (mapM_eq_ok.mp h).imp ?_
    intro record candidate hcandidate
    cases hfound : (securityCandidate processedAt record : Option (SecurityVersion D)) with
    | none => simp [hfound] at hcandidate
    | some found =>
        rw [hfound, Option.elim_some, Except.ok.injEq] at hcandidate
        rw [hcandidate]
  refine ⟨⟨?_, ?_⟩, ?_⟩
  · have hsymbols : candidates.map (fun candidate => some candidate.symbol) =
        (latestSecurities D records).map (·.symbol) :=
      map_eq_of_forall₂ (hpairs.imp fun _ _ hcandidate =>
        (securityCandidate_eq_some hcandidate).1.symm)
    have hnodup : (candidates.map fun candidate => some candidate.symbol).Nodup := by
      rw [hsymbols]
      exact firstInGroup_nodup
    rw [show (candidates.map fun candidate => some candidate.symbol) =
      (candidates.map (·.symbol)).map some by rw [List.map_map]; rfl] at hnodup
    exact hnodup.of_map some
  · intro candidate hcandidate
    obtain ⟨record, -, hfound⟩ := exists_of_mem_forall₂ hpairs hcandidate
    exact (securityCandidate_eq_some hfound).2.2.1
  · intro candidate
    constructor
    · intro hcandidate
      obtain ⟨record, hrecord, hfound⟩ := exists_of_mem_forall₂ hpairs hcandidate
      exact ⟨record, hrecord, hfound⟩
    · rintro ⟨record, hrecord, hfound⟩
      obtain ⟨other, hother, hpair⟩ := exists_of_mem_forall₂ hpairs.flip hrecord
      rw [hfound] at hpair
      rw [Option.some_inj.mp hpair]
      exact hother

/-- A publication is what both statements come to. -/
theorem publishSecurities_eq {processedAt : Instant} {records : List RestRecord}
    {target : List (SecurityVersion D)} (h : securityDating.IsHistory target) :
    publishSecurities processedAt records target =
      (securityCandidates processedAt records >>= fun candidates =>
        .ok (publishedVersions target candidates)) := by
  unfold publishSecurities
  cases hcandidates : (securityCandidates processedAt records :
      Except Raised (List (SecurityVersion D))) with
  | error raised => rfl
  | ok candidates =>
      rw [ok_bind, ok_bind,
        mergeSecurities_eq h (securityCandidates_eq_ok hcandidates).1]
      rfl

/-- A run leaves a current history. -/
theorem SecuritiesRun.current {captures : List (List RestRecord)}
    {target : List (SecurityVersion D)} (h : SecuritiesRun captures target) :
    securityDating.IsCurrent target := by
  induction h with
  | start => exact Dating.isCurrent_nil
  | @publish captures target target' records processedAt _ hkept hpublish ih =>
      rw [publishSecurities_eq ih.toIsHistory, bind_eq_ok] at hpublish
      obtain ⟨candidates, hcandidates, hpublished⟩ := hpublish
      obtain ⟨hcandidate, hoffers⟩ := securityCandidates_eq_ok hcandidates
      rw [← Except.ok.inj hpublished]
      refine mergedBy_isCurrent ih hcandidate ?_
      intro candidate hmem hreopens
      exact hkept ⟨processedAt, candidate, (hoffers candidate).mp hmem, hreopens⟩

/-- A capture offers the same at any time. -/
theorem Offers.later {processedAt : Instant} {records : List RestRecord}
    {candidate : SecurityVersion D} (h : Offers processedAt records candidate) (later : Instant) :
    Offers later records { candidate with processedAt := later } := by
  obtain ⟨record, hrecord, hcandidate⟩ := h
  refine ⟨record, hrecord, ?_⟩
  unfold securityCandidate at hcandidate ⊢
  split at hcandidate
  · cases hcandidate
    rfl
  · cases hcandidate

/-- What a capture says stays absorbed while nothing older is published. -/
theorem SecuritiesRun.absorbed {captures : List (List RestRecord)}
    {target : List (SecurityVersion D)} (h : SecuritiesRun captures target)
    {before between : List (List RestRecord)} {records : List RestRecord}
    (hcaptures : captures = before ++ records :: between)
    (hbetween : ∀ later ∈ between, NotOlder D records later) {processedAt : Instant}
    {candidate : SecurityVersion D} (hoffers : Offers processedAt records candidate) :
    Absorbed target candidate := by
  induction h generalizing between with
  | start => simp at hcaptures
  | @publish captures target target' last lastAt hrun hkept hpublish ih =>
      have hcurrent := hrun.current
      rw [publishSecurities_eq hcurrent.toIsHistory, bind_eq_ok] at hpublish
      obtain ⟨candidates, hcandidates, hpublished⟩ := hpublish
      obtain ⟨hcandidate, hmem⟩ := securityCandidates_eq_ok hcandidates
      rw [← Except.ok.inj hpublished]
      rcases List.eq_nil_or_concat' between with rfl | ⟨rest, later, rfl⟩
      · obtain ⟨-, hlast⟩ := List.append_inj' hcaptures rfl
        obtain rfl := List.singleton_inj.mp hlast
        have habsorbed := absorbed_published hcurrent hcandidate
          ((hmem _).mpr (hoffers.later lastAt))
        exact habsorbed
      · have hsplit : captures ++ [last] = (before ++ records :: rest) ++ [later] := by
          simpa using hcaptures
        obtain ⟨hearlier, hlast⟩ := List.append_inj' hsplit rfl
        obtain rfl := List.singleton_inj.mp hlast
        have habsorbed := ih hearlier fun other hother => hbetween other (by simp [hother])
        refine habsorbed.publishedVersions hcurrent hcandidate ?_
        intro other hother hsymbol
        obtain ⟨record, hrecord, hfound⟩ := hoffers
        obtain ⟨record', hrecord', hfound'⟩ := (hmem other).mp hother
        obtain ⟨hrecordSymbol, hfrom, -, havailable⟩ := securityCandidate_eq_some hfound
        obtain ⟨hrecordSymbol', hfrom', -, havailable'⟩ := securityCandidate_eq_some hfound'
        have hle := hbetween last (by simp) record hrecord record' hrecord'
          (by rw [hrecordSymbol, hrecordSymbol', hsymbol])
        rw [hfrom, hfrom', havailable, havailable']
        exact ⟨marketDate_mono hle, hle⟩

/-- The capture that was published last does not reopen anything. -/
theorem SecuritiesRun.last_not_reopens {captures before : List (List RestRecord)}
    {target : List (SecurityVersion D)} (h : SecuritiesRun captures target)
    {records : List RestRecord} (hcaptures : captures = before ++ [records]) :
    ¬Reopens target records := by
  cases h with
  | start => simp at hcaptures
  | @publish captures target target' last lastAt hrun hkept hpublish =>
      obtain ⟨-, hlast⟩ := List.append_inj' hcaptures rfl
      obtain rfl := List.singleton_inj.mp hlast
      have hcurrent := hrun.current
      rw [publishSecurities_eq hcurrent.toIsHistory, bind_eq_ok] at hpublish
      obtain ⟨candidates, hcandidates, hpublished⟩ := hpublish
      obtain ⟨hcandidate, hoffers⟩ := securityCandidates_eq_ok hcandidates
      rw [← Except.ok.inj hpublished]
      rintro ⟨processedAt, candidate, hoffered, hreopens⟩
      have hnot := not_reopens_published hcurrent hcandidate
        (fun other hother hbefore => hkept ⟨lastAt, other, (hoffers other).mp hother, hbefore⟩)
        ((hoffers _).mpr (hoffered.later lastAt))
      exact hnot hreopens

/-- A capture whose required fields are there has candidates. -/
theorem Normalizes.candidates {records : List RestRecord} (h : Normalizes D records)
    (processedAt : Instant) :
    ∃ candidates : List (SecurityVersion D),
      securityCandidates processedAt records = .ok candidates := by
  apply mapM_total
  intro record hrecord
  obtain ⟨hsymbol, hboard⟩ := h record hrecord
  obtain ⟨symbol, hsymbol⟩ := Option.isSome_iff_exists.mp hsymbol
  obtain ⟨board, hboard⟩ := Option.isSome_iff_exists.mp hboard
  cases hfound : (securityCandidate processedAt record : Option (SecurityVersion D)) with
  | none => simp [securityCandidate, hsymbol, hboard] at hfound
  | some candidate => exact ⟨candidate, rfl⟩

/-- A capture that was published has its required fields. -/
theorem SecuritiesRun.normalizes {captures : List (List RestRecord)}
    {target : List (SecurityVersion D)} (h : SecuritiesRun captures target)
    {records : List RestRecord} (hrecords : records ∈ captures) : Normalizes D records := by
  induction h with
  | start => cases hrecords
  | @publish captures target target' last lastAt hrun hkept hpublish ih =>
      rcases List.mem_append.mp hrecords with hrecords | hrecords
      · exact ih hrecords
      · rw [List.mem_singleton.mp hrecords]
        simp only [publishSecurities, bind_eq_ok] at hpublish
        obtain ⟨candidates, hcandidates, -⟩ := hpublish
        intro record hrecord
        obtain ⟨candidate, -, hfound⟩ :=
          exists_of_mem_forall₂ (mapM_eq_ok.mp hcandidates).flip hrecord
        unfold securityCandidate at hfound
        split at hfound
        · next hsymbol hboard =>
            refine ⟨by simp [hsymbol], ?_⟩
            obtain ⟨board, hboard, -⟩ := Option.map_eq_some_iff.mp hboard
            simp [hboard]
        · cases hfound

/-- **The securities history.**  After any publications of which none reopens a version,
the versions of a symbol are days apart, with inclusive last days, and one at most is open; a
capture that normalizes is published without failing, and publishing one again changes
nothing, if nothing older came between and it does not reopen a version now. -/
theorem securities_history {captures : List (List RestRecord)}
    {target : List (SecurityVersion D)} (h : SecuritiesRun captures target) :
    securityDating.IsHistory target ∧
    (∀ symbol, (target.filter fun row =>
      row.symbol = symbol ∧ row.effectiveTo = none).length ≤ 1) ∧
    (∀ symbol instant,
      (securityDating.asOf target symbol (marketTimezone.date instant)).length ≤ 1) ∧
    (∀ records processedAt, Normalizes D records →
      ∃ target', publishSecurities processedAt records target = .ok target') ∧
    (∀ before records between, captures = before ++ records :: between →
      (∀ later ∈ between, NotOlder D records later) → between = [] ∨ ¬Reopens target records →
      ∀ processedAt, publishSecurities processedAt records target = .ok target) := by
  have hcurrent := h.current
  have hhistory := hcurrent.toIsHistory
  refine ⟨hhistory, hhistory.open_unique, ?_, ?_, ?_⟩
  · intro symbol instant
    exact hhistory.covering_unique symbol _
  · intro records processedAt hnormalizes
    obtain ⟨candidates, hcandidates⟩ := hnormalizes.candidates processedAt
    exact ⟨_, by rw [publishSecurities_eq hhistory, hcandidates]; rfl⟩
  · intro before records between hcaptures hbetween hagain processedAt
    have hmem : records ∈ captures := by simp [hcaptures]
    obtain ⟨candidates, hcandidates⟩ := (h.normalizes hmem).candidates processedAt
    obtain ⟨-, hoffers⟩ := securityCandidates_eq_ok hcandidates
    have hnot : ¬Reopens target records := by
      rcases hagain with rfl | hnot
      · exact h.last_not_reopens hcaptures
      · exact hnot
    rw [publishSecurities_eq hhistory, hcandidates, ok_bind]
    congr 1
    apply published_absorbed hcurrent
    · intro candidate hcandidate hreopens
      exact hnot ⟨processedAt, candidate, (hoffers candidate).mp hcandidate, hreopens⟩
    · intro candidate hcandidate
      exact h.absorbed hcaptures hbetween ((hoffers candidate).mp hcandidate)

end Runs

/-! One symbol that changes its board from one day to the next. -/

namespace BoardChange

def onHose : String := "\x7b\"board\":\"HOSE\"\x7d"

def onHnx : String := "\x7b\"board\":\"HNX\"\x7d"

/-- Spark on the two texts. -/
@[reducible] def sparkSql : SparkSql where
  getJsonObject json path :=
    if path = "$.board" then
      if json = onHose then some "HOSE" else if json = onHnx then some "HNX" else none
    else none
  upper := id
  trim := id
  substr text _ _ := text
  tryCastBigint _ := none
  tryCastDecimal _ _ _ := none
  castDecimal _ _ value := some value
  toDate _ := none
  toTimestamp _ := none

/-- A capture at noon UTC of a day. -/
def capture (day : Day) (recordJson : String) : List RestRecord :=
  [⟨"get_securities_info", some "VIC", day * dayLength + seconds 43200, recordJson⟩]

def publishAll (captures : List (List RestRecord)) :
    Except Raised (List (SecurityVersion Spelled)) :=
  letI := sparkSql
  captures.foldlM (fun target records => publishSecurities 0 records target) []

/-- The table after the first day. -/
def firstDay : List (SecurityVersion Spelled) :=
  (publishAll [capture 1 onHose]).toOption.getD []

/-- The table after both days. -/
def bothDays : List (SecurityVersion Spelled) :=
  (publishAll [capture 1 onHose, capture 2 onHnx]).toOption.getD []

theorem evaluated :
    letI := sparkSql
    publishSecurities 0 (capture 1 onHose) [] = .ok firstDay ∧
      publishSecurities 0 (capture 2 onHnx) firstDay = .ok bothDays ∧
      (∀ row ∈ firstDay, row.effectiveFrom = 1) ∧ ∀ row ∈ bothDays, row.effectiveFrom ≤ 2 := by
  decide +kernel

/-- A capture does not reopen a table of no later days. -/
theorem not_reopens {target : List (SecurityVersion Spelled)} {day : Day} {recordJson : String}
    (h : ∀ row ∈ target, row.effectiveFrom ≤ day) :
    letI := sparkSql
    ¬Reopens target (capture day recordJson) := by
  rintro ⟨processedAt, candidate, ⟨record, hrecord, hcandidate⟩, current, hcurrent, -, -, hlt, -⟩
  have hmem := List.mem_of_mem_filter (mem_firstInGroup hrecord).1
  have hdate : record.receivedDate = day := by
    rw [List.mem_singleton.mp hmem]
    have hday : ∀ n : Int, (n * 86400000000 + 43200000000 + 25200000000) / 86400000000 = n := by
      omega
    exact hday day
  rw [(@securityCandidate_eq_some _ _ sparkSql _ _ _ hcandidate).2.1, hdate] at hlt
  exact absurd (h current hcurrent) (not_le.mpr hlt)

end BoardChange

/-- A capture of an earlier day that is published late reopens the history: two versions are
open from the second day on.  And where the days are in order, the version of the first day
ends on it, so that no day is below its last one. -/
theorem securities_reopened :
    (∃ target, BoardChange.publishAll
        [BoardChange.capture 2 BoardChange.onHnx, BoardChange.capture 1 BoardChange.onHose] =
          .ok target ∧
      (target.filter fun row => row.symbol = "VIC" ∧ row.effectiveTo = none).length = 2 ∧
      (securityDating.asOf target "VIC" 2).length = 2) ∧
    ∃ target, BoardChange.publishAll
        [BoardChange.capture 1 BoardChange.onHose, BoardChange.capture 2 BoardChange.onHnx] =
          .ok target ∧
      ∃ row ∈ target, row.effectiveTo = some row.effectiveFrom := by
  have hlate : (BoardChange.publishAll
      [BoardChange.capture 2 BoardChange.onHnx, BoardChange.capture 1 BoardChange.onHose]).toOption.any
        (fun target => (target.filter fun row =>
          row.symbol = "VIC" ∧ row.effectiveTo = none).length = 2 ∧
          (securityDating.asOf target "VIC" 2).length = 2) = true := by
    decide +kernel
  have hordered : (BoardChange.publishAll
      [BoardChange.capture 1 BoardChange.onHose, BoardChange.capture 2 BoardChange.onHnx]).toOption.any
        (fun target => target.any fun row => row.effectiveTo = some row.effectiveFrom) = true := by
    decide +kernel
  obtain ⟨target, htarget, hopen⟩ := (Option.any_eq_true _ _).mp hlate
  obtain ⟨target', htarget', hrow⟩ := (Option.any_eq_true _ _).mp hordered
  rw [decide_eq_true_eq] at hopen
  obtain ⟨row, hmem, hsame⟩ := List.any_eq_true.mp hrow
  exact ⟨⟨target, toOption_eq_some.mp htarget, hopen⟩, target', toOption_eq_some.mp htarget', row,
    hmem, of_decide_eq_true hsame⟩

/-- Two days in order: the history holds, and the second capture is published again. -/
theorem securities_history_boardChange :
    letI := BoardChange.sparkSql
    securityDating.IsHistory BoardChange.bothDays ∧
      publishSecurities 5 (BoardChange.capture 2 BoardChange.onHnx) BoardChange.bothDays =
        .ok BoardChange.bothDays := by
  let _ := BoardChange.sparkSql
  obtain ⟨hfirst, hsecond, hday, hdays⟩ := BoardChange.evaluated
  have hrun := ((SecuritiesRun.start (D := Spelled)).publish (BoardChange.not_reopens (by simp))
    hfirst).publish (BoardChange.not_reopens fun row hrow => (hday row hrow).trans_le (by decide))
      hsecond
  obtain ⟨hhistory, -, -, -, hagain⟩ := securities_history hrun
  exact ⟨hhistory, hagain [BoardChange.capture 1 BoardChange.onHose] _ [] rfl (by simp)
    (.inl rfl) 5⟩

end MiniLakehouse
