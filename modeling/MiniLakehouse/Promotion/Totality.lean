import MiniLakehouse.Promotion.Soundness

/-!
# Evaluation of a cohort

The gate of a cohort can always be computed.  Sessions of one lineage and one
target matrix, recorded under the policies of the gate, pass every check of the
folds, of the pooled rows and of the report (`evaluatePromotionGate_total`), so
that a publication never fails for the evidence that earlier ones have stored.
-/

namespace MiniLakehouse

/-! ## Rates -/

theorem roundHalfUp_bounds {x : Rat} {n : Nat} (hlow : 0 ≤ x) (hhigh : x ≤ n) :
    0 ≤ roundHalfUp x ∧ roundHalfUp x ≤ n := by
  have hfloor := Rat.floor_le (x + 1 / 2)
  have hnext := Rat.lt_floor_add_one (x + 1 / 2)
  push_cast at hnext
  rw [roundHalfUp, if_pos hlow]
  constructor
  · have hpos : (-1 : Rat) < ((x + 1 / 2).floor : Rat) := by linarith
    have hint : (-1 : Int) < (x + 1 / 2).floor := by exact_mod_cast hpos
    omega
  · have hlt : ((x + 1 / 2).floor : Rat) < n + 1 := by linarith
    have hint : (x + 1 / 2).floor < (n : Int) + 1 := by exact_mod_cast hlt
    omega

theorem ratio_total {numerator denominator : Rat} {places : Nat} (h : denominator ≠ 0) :
    ratio numerator denominator places = .ok (quantizeHalfUp places (numerator / denominator)) := by
  rw [ratio, require_of h]
  rfl

/-- A rate of consistent counts is a proportion. -/
theorem rate_total {numerator denominator : Nat} (h : numerator ≤ denominator) :
    ∃ value, rate numerator denominator = .ok value ∧ 0 ≤ value ∧ value ≤ 1 := by
  by_cases hzero : denominator = 0
  · refine ⟨0, ?_, le_rfl, by norm_num⟩
    rw [rate, require_of h, hzero]
    rfl
  · have hpos : (0 : Rat) < denominator := by exact_mod_cast Nat.pos_of_ne_zero hzero
    have hle : (numerator : Rat) ≤ denominator := by exact_mod_cast h
    have hscaled : (numerator : Rat) / denominator * 10 ^ ratePlaces ≤
        ((10 ^ ratePlaces : Nat) : Rat) := by
      push_cast
      have hone : (numerator : Rat) / denominator ≤ 1 := (div_le_one hpos).mpr hle
      exact mul_le_of_le_one_left (by positivity) hone
    obtain ⟨hlow, hhigh⟩ := roundHalfUp_bounds (by positivity) hscaled
    have hlow' : (0 : Rat) ≤ roundHalfUp ((numerator : Rat) / denominator * 10 ^ ratePlaces) := by
      exact_mod_cast hlow
    have hhigh' : (roundHalfUp ((numerator : Rat) / denominator * 10 ^ ratePlaces) : Rat) ≤
        10 ^ ratePlaces := by
      exact_mod_cast hhigh
    refine ⟨quantizeHalfUp ratePlaces (numerator / denominator), ?_, ?_, ?_⟩
    · rw [rate, require_of h]
      simp only [ok_bind, if_neg hzero]
      exact ratio_total hpos.ne'
    · exact div_nonneg hlow' (by positivity)
    · exact (div_le_one (by positivity)).mpr hhigh'

/-! ## Pooled rows -/

/-- What the validator of an evaluation asks of it. -/
structure ArbitratedEvaluation.WellFormed (evaluation : ArbitratedEvaluation) : Prop where
  symbol_valid : isSymbolName evaluation.symbol
  horizon_pos : 1 ≤ evaluation.horizonSeconds
  positive_le : evaluation.positiveNetCount ≤ evaluation.eligibleOutcomeCount
  eligible_le : evaluation.eligibleOutcomeCount ≤ evaluation.selectedCount
  averaged : evaluation.eligibleOutcomeCount = 0 ↔
    evaluation.averageConditionalNetReturnBps = none

theorem ArbitratedEvaluation.allHold_checks {evaluation : ArbitratedEvaluation}
    {population : String} :
    AllHold (evaluation.checks population) ↔ evaluation.WellFormed := by
  simp only [checks, allHold_cons, allHold_nil, decide_eq_true_eq, Bool.and_eq_true,
    beq_iff_eq, and_true]
  constructor
  · rintro ⟨hsymbol, hhorizon, ⟨hpositive, heligible⟩, haverage⟩
    refine ⟨hsymbol, hhorizon, hpositive, heligible, ?_⟩
    rw [← Option.isNone_iff_eq_none, ← haverage, beq_iff_eq]
  · rintro ⟨hsymbol, hhorizon, hpositive, heligible, haverage⟩
    refine ⟨hsymbol, hhorizon, ⟨hpositive, heligible⟩, ?_⟩
    rw [Bool.eq_iff_iff, beq_iff_eq, haverage, Option.isNone_iff_eq_none]

namespace Pooled

variable {rows : List ArbitratedEvaluation}

theorem positive_le_eligible (h : ∀ row ∈ rows, row.WellFormed) :
    positive rows ≤ eligible rows :=
  List.sum_le_sum fun row hrow => (h row hrow).positive_le

theorem eligible_le_selected (h : ∀ row ∈ rows, row.WellFormed) :
    eligible rows ≤ selected rows :=
  List.sum_le_sum fun row hrow => (h row hrow).eligible_le

theorem weightedAverage_total (rows : List ArbitratedEvaluation) :
    ∃ average, weightedAverage rows = .ok average ∧ (eligible rows = 0 ↔ average = none) := by
  rw [weightedAverage_eq]
  by_cases hzero : eligible rows = 0
  · exact ⟨none, if_pos hzero, by simp [hzero]⟩
  · rw [if_neg hzero, ratio_total (by exact_mod_cast hzero)]
    exact ⟨_, rfl, by simp [hzero]⟩

end Pooled

theorem combine_total {rows : List ArbitratedEvaluation} {key : TargetKey} (hrows : rows ≠ [])
    (hkeys : ∀ item ∈ rows, item.key = key) (hvalid : ∀ item ∈ rows, item.WellFormed) :
    ∃ result, combine rows = .ok result ∧ result.key = key := by
  obtain ⟨first, rest, rfl⟩ := List.exists_cons_of_ne_nil hrows
  have hfirst := hkeys first (by simp)
  have hsame : ∀ item ∈ first :: rest, item.key = first.key := by
    intro item hitem
    rw [hkeys item hitem, hfirst]
  obtain ⟨average, haverage, hnone⟩ := Pooled.weightedAverage_total (first :: rest)
  rw [combine, require_of hsame, haverage]
  refine ⟨⟨⟨first.strategy, first.symbol, first.horizonSeconds, _, _, _, average⟩, ?_⟩,
    validated_of ?_, hfirst⟩
  all_goals
    rw [ArbitratedEvaluation.allHold_checks]
    exact ⟨(hvalid first (by simp)).symbol_valid, (hvalid first (by simp)).horizon_pos,
      Pooled.positive_le_eligible hvalid, Pooled.eligible_le_selected hvalid, hnone⟩

/-! ## Folds -/

variable {D : Type}

/-- The report has a well-formed row under each key. -/
theorem keyedRow_total {report : ArbitratedSessionReport D} {key : TargetKey}
    (h : key ∈ report.keys) :
    ∃ row, keyedRow key report = .ok row ∧ row.key = key ∧ row.WellFormed := by
  cases hrow : report.row key with
  | none =>
      obtain ⟨item, hitem, rfl⟩ := List.mem_map.mp h
      simpa using List.find?_eq_none.mp hrow item hitem
  | some row =>
      refine ⟨row.toArbitratedEvaluation, ?_, ?_, ArbitratedEvaluation.allHold_checks.mp row.valid⟩
      · simp only [keyedRow, hrow]
      · simpa using List.find?_some hrow

/-- A loop in which each member gives a value of a kind. -/
private theorem mapM_each {α β ε : Type} {f : α → Except ε β} {P : α → β → Prop} {xs : List α}
    (h : ∀ x ∈ xs, ∃ y, f x = .ok y ∧ P x y) :
    ∃ ys, xs.mapM f = .ok ys ∧ List.Forall₂ P xs ys := by
  induction xs with
  | nil => exact ⟨[], rfl, .nil⟩
  | cons x xs ih =>
      obtain ⟨y, hy, hp⟩ := h x (by simp)
      obtain ⟨ys, hys, hps⟩ := ih fun other hother => h other (by simp [hother])
      exact ⟨y :: ys, by simp [hy, hys], .cons hp hps⟩

/-- A loop whose members succeed and what follows it. -/
private theorem mapM_then_total {α β γ ε : Type} {f : α → Except ε β}
    {g : List β → Except ε γ} {xs : List α} (hf : ∀ x ∈ xs, ∃ y, f x = .ok y)
    (hg : ∀ ys, xs.mapM f = .ok ys → ∃ b, g ys = .ok b) : ∃ b, (xs.mapM f >>= g) = .ok b := by
  obtain ⟨ys, hys⟩ := mapM_total hf
  rw [hys, ok_bind]
  exact hg ys hys

/-- The first and the last date of each part, in an ascending list of dates. -/
private theorem groupsOrdered_of {fields : ArbitratedWalkForwardFoldFields}
    (hdevelopment : fields.developmentDates ≠ []) (hpurged : fields.purgedDates ≠ [])
    (hholdout : fields.holdoutDates ≠ [])
    (h : (fields.developmentDates ++ fields.purgedDates ++ fields.holdoutDates).Pairwise
      (· < ·)) : fields.groupsOrdered = true := by
  obtain ⟨hfirst, -, hheld⟩ := List.pairwise_append.mp h
  obtain ⟨-, hascending, hacross⟩ := List.pairwise_append.mp hfirst
  have hdeveloped := List.getLast_mem hdevelopment
  have hhead := List.head_mem hpurged
  have hlast := List.getLast_mem hpurged
  have hbefore := hacross _ hdeveloped _ hhead
  have hafter := hheld _ (List.mem_append_right _ hlast) _ (List.head_mem hholdout)
  have hwithin : fields.purgedDates.head hpurged ≤ fields.purgedDates.getLast hpurged := by
    generalize fields.purgedDates = purged at hpurged hascending hlast
    cases purged with
    | nil => exact absurd rfl hpurged
    | cons first rest =>
        rcases List.mem_cons.mp hlast with hsame | hlater
        · exact hsame.ge
        · exact ((List.pairwise_cons.mp hascending).1 _ hlater).le
  rw [ArbitratedWalkForwardFoldFields.groupsOrdered, List.getLast?_eq_some_getLast hdevelopment,
    List.head?_eq_some_head hpurged, List.getLast?_eq_some_getLast hpurged,
    List.head?_eq_some_head hholdout]
  simp [hbefore, hwithin, hafter]

section

variable {sessions : SessionEvidence D} {policy : BaselineEvaluationVersion}
  {keys : List TargetKey} {start number : Nat}

/-- Every session has the rows of the target matrix. -/
def SharesMatrix (sessions : SessionEvidence D) (keys : List TargetKey) : Prop :=
  keys ≠ [] ∧ keys.Nodup ∧ ∀ entry ∈ sessions.ordered, entry.2.keys = keys

theorem evaluateFold_total (hmatrix : SharesMatrix sessions keys)
    (hstart : policy.firstHoldout ≤ start) (hnumber : 1 ≤ number)
    (hroom : start + policy.holdoutSessions ≤ sessions.ordered.length) :
    ∃ fold, evaluateFold policy sessions.ordered keys start number = .ok fold ∧
      fold.fold = number ∧ fold.keys = keys ∧ fold.holdoutDates ≠ [] := by
  have hdevelopment := policy.development_bound
  have hpurge := policy.purge_bound
  have hheld := policy.holdout_bound
  rw [BaselineEvaluationVersion.firstHoldout] at hstart
  have heach : ∀ key ∈ keys, ∃ result : ArbitratedHoldoutEvaluation,
      (((sessions.ordered.drop start).take policy.holdoutSessions).mapM
        (fun entry => keyedRow key entry.2) >>= fun rows => combine rows) = .ok result ∧
      result.key = key := by
    intro key hkey
    have hcovered : ∀ entry ∈ (sessions.ordered.drop start).take policy.holdoutSessions,
        ∃ row, keyedRow key entry.2 = .ok row ∧ row.key = key ∧ row.WellFormed := by
      intro entry hentry
      apply keyedRow_total
      rw [hmatrix.2.2 entry (List.mem_of_mem_drop (List.mem_of_mem_take hentry))]
      exact hkey
    obtain ⟨rows, hrows, hrelated⟩ := mapM_each hcovered
    have hall : ∀ row ∈ rows, row.key = key ∧ row.WellFormed := by
      intro row hrow
      obtain ⟨entry, -, hrow⟩ := exists_of_mem_forall₂ hrelated hrow
      exact hrow
    have hlength : 0 < rows.length := by
      rw [← hrelated.length_eq, List.length_take, List.length_drop]
      omega
    obtain ⟨result, hresult, hsame⟩ := combine_total (List.ne_nil_of_length_pos hlength)
      (fun row hrow => (hall row hrow).1) fun row hrow => (hall row hrow).2
    exact ⟨result, by rw [hrows, ok_bind, hresult], hsame⟩
  obtain ⟨evaluations, hevaluations, hrelated⟩ := mapM_each heach
  have hkeys : evaluations.map (·.key) = keys := by
    rw [map_eq_of_forall₂ (f := id) hrelated, List.map_id]
  have hparts := four_parts sessions.ordered (start - policy.purgeSessions)
    (start - (start - policy.purgeSessions)) policy.holdoutSessions
  rw [show start - policy.purgeSessions + (start - (start - policy.purgeSessions)) = start by
    omega] at hparts
  have hascending := sessions.dates_ascending
  rw [SessionEvidence.dates, hparts, List.map_append] at hascending
  have hgroups := (List.pairwise_append.mp hascending).1
  simp only [List.map_append] at hgroups
  obtain ⟨hfirst, hholdout, -⟩ := List.pairwise_append.mp hgroups
  obtain ⟨hdeveloped, hpurged, -⟩ := List.pairwise_append.mp hfirst
  have hdevelopedNonempty :
      (sessions.ordered.take (start - policy.purgeSessions)).map Prod.fst ≠ [] := by
    apply List.ne_nil_of_length_pos
    simp only [List.length_map, List.length_take]
    omega
  have hpurgedNonempty : ((sessions.ordered.drop (start - policy.purgeSessions)).take
      (start - (start - policy.purgeSessions))).map Prod.fst ≠ [] := by
    apply List.ne_nil_of_length_pos
    simp only [List.length_map, List.length_take, List.length_drop]
    omega
  have hholdoutNonempty :
      ((sessions.ordered.drop start).take policy.holdoutSessions).map Prod.fst ≠ [] := by
    apply List.ne_nil_of_length_pos
    simp only [List.length_map, List.length_take, List.length_drop]
    omega
  have hevaluationsNonempty : evaluations ≠ [] := by
    rintro rfl
    exact hmatrix.1 hkeys.symm
  rw [evaluateFold, hevaluations]
  refine ⟨⟨⟨number, _, _, _, evaluations⟩, ?_⟩, validated_of ?_, rfl, hkeys, hholdoutNonempty⟩
  all_goals
    simp only [ArbitratedWalkForwardFoldFields.checks, allHold_cons, allHold_nil,
      decide_eq_true_eq, bne_iff_ne, Bool.and_eq_true, and_true]
    refine ⟨hnumber, hdevelopedNonempty, hpurgedNonempty, hholdoutNonempty,
      hevaluationsNonempty, ⟨⟨⟨hdeveloped, hpurged⟩, hholdout⟩, ?_⟩, ?_⟩
    · exact groupsOrdered_of hdevelopedNonempty hpurgedNonempty hholdoutNonempty hgroups
    · show (evaluations.map (·.key)).Nodup
      rw [hkeys]
      exact hmatrix.2.1

/-- **The loop over folds** is total, and its folds are numbered from the first. -/
theorem evaluateFolds_total {fuel : Nat} (hmatrix : SharesMatrix sessions keys)
    (hstart : policy.firstHoldout ≤ start) (hnumber : 1 ≤ number) :
    ∃ folds, evaluateFolds policy sessions.ordered keys fuel start number = .ok folds ∧
      folds.map (·.fold) = List.range' number folds.length ∧
      (∀ fold ∈ folds, fold.keys = keys ∧ fold.holdoutDates ≠ []) ∧
      (start + policy.holdoutSessions ≤ sessions.ordered.length → 0 < fuel → folds ≠ []) := by
  induction fuel generalizing start number with
  | zero => exact ⟨[], rfl, rfl, by simp, by simp⟩
  | succ fuel ih =>
      by_cases hroom : start + policy.holdoutSessions ≤ sessions.ordered.length
      · obtain ⟨first, hfirst, hnumbered, hkeys, hheld⟩ :=
          evaluateFold_total hmatrix hstart hnumber hroom
        have hlater : policy.firstHoldout ≤ start + policy.holdoutSessions := by omega
        have hnext : 1 ≤ number + 1 := by omega
        obtain ⟨rest, hrest, hranged, hall, -⟩ := ih hlater hnext
        refine ⟨first :: rest, ?_, ?_, ?_, by simp⟩
        · rw [evaluateFolds, if_pos hroom, hfirst, ok_bind, hrest]
          rfl
        · rw [List.map_cons, hranged, hnumbered]
          rfl
        · intro fold hfold
          rcases List.mem_cons.mp hfold with rfl | hfold
          · exact ⟨hkeys, hheld⟩
          · exact hall fold hfold
      · exact ⟨[], by rw [evaluateFolds, if_neg hroom], rfl, by simp,
          fun h => absurd h hroom⟩

end

/-! ## The walk-forward report -/

variable [Hashing D]

/-- Sessions that one gate can be evaluated over: recorded under its policies, with one
lineage and with its targets. -/
structure PromotionCohort (evaluationPolicy : BaselineEvaluationVersion)
    (gatePolicy : PromotionGateVersion) (arbitrationPolicy : CandidateArbitrationVersion)
    (sessions : SessionEvidence D) : Prop where
  nonempty : sessions.entries ≠ []
  recorded : ∀ entry ∈ sessions.ordered, MatchesPolicies evaluationPolicy arbitrationPolicy entry
  lineage : ∀ entry ∈ sessions.ordered, ∀ other ∈ sessions.ordered,
    entry.2.researchLineage = other.2.researchLineage
  targets : ∀ entry ∈ sessions.ordered, entry.2.keys = gatePolicy.targets.map (·.key)

theorem PromotionTarget.before_key_ne {left right : PromotionTarget} (h : left.before right) :
    left.key ≠ right.key := by
  intro hkey
  simp only [key, Prod.mk.injEq] at hkey
  obtain ⟨hstrategy, hsymbol, hhorizon⟩ := hkey
  simp [before, hstrategy, hsymbol, hhorizon] at h

theorem PromotionGateVersion.keys_nodup (gatePolicy : PromotionGateVersion) :
    (gatePolicy.targets.map (·.key)).Nodup := by
  rw [List.Nodup, List.pairwise_map]
  exact gatePolicy.targets_ordered.imp PromotionTarget.before_key_ne

section

variable {sessions : SessionEvidence D} {evaluationPolicy : BaselineEvaluationVersion}
  {gatePolicy : PromotionGateVersion} {arbitrationPolicy : CandidateArbitrationVersion}

theorem PromotionCohort.sharesMatrix
    (h : PromotionCohort evaluationPolicy gatePolicy arbitrationPolicy sessions) :
    SharesMatrix sessions (gatePolicy.targets.map (·.key)) := by
  refine ⟨?_, gatePolicy.keys_nodup, h.targets⟩
  intro hnone
  exact gatePolicy.targets_nonempty (List.map_eq_nil_iff.mp hnone)

omit [Hashing D] in
/-- The dates after the last holdout follow it. -/
private theorem pendingOrdered_of {fields : ArbitratedWalkForwardReportFields D} {last : Day}
    {dates : List Day} (hascending : dates.Pairwise (· < ·))
    (hlast : fields.folds.getLast?.bind (·.holdoutDates.getLast?) = some last)
    (hpending : fields.pendingDates = dates.filter (last < ·)) :
    fields.pendingOrdered = true := by
  rw [ArbitratedWalkForwardReportFields.pendingOrdered, hlast]
  have hordered : fields.pendingDates.Pairwise (· < ·) := by
    rw [hpending]
    exact hascending.filter _
  cases hhead : fields.pendingDates.head? with
  | none => rfl
  | some first =>
      have hfirst : first ∈ fields.pendingDates := List.mem_of_head? hhead
      rw [hpending] at hfirst
      have hafter : last < first := by simpa using (List.mem_filter.mp hfirst).2
      simp [hordered, hafter]

theorem evaluateArbitratedWalkForward_total
    (h : PromotionCohort evaluationPolicy gatePolicy arbitrationPolicy sessions)
    (hrequired : evaluationPolicy.required ≤ sessions.ordered.length) :
    ∃ walk, evaluateArbitratedWalkForward sessions evaluationPolicy arbitrationPolicy = .ok walk ∧
      walk.folds ≠ [] ∧ ∀ fold ∈ walk.folds, fold.keys = gatePolicy.targets.map (·.key) := by
  have hnonempty : sessions.ordered ≠ [] := by
    intro hnone
    have hlength := sessions.length_ordered
    rw [hnone] at hlength
    exact h.nonempty (List.eq_nil_of_length_eq_zero hlength.symm)
  obtain ⟨first, rest, hordered⟩ := List.exists_cons_of_ne_nil hnonempty
  have hfirst : first ∈ sessions.ordered := by rw [hordered]; exact List.mem_cons_self ..
  have hlineage : ∀ entry ∈ first :: rest, entry.2.researchLineage = first.2.researchLineage := by
    rw [← hordered]
    exact fun entry hentry => h.lineage entry hentry first hfirst
  have hkeys : ∀ entry ∈ first :: rest, entry.2.keys = first.2.keys := by
    rw [← hordered]
    exact fun entry hentry => (h.targets entry hentry).trans (h.targets first hfirst).symm
  have hfirstHoldout : evaluationPolicy.firstHoldout ≤ evaluationPolicy.firstHoldout := le_rfl
  obtain ⟨folds, hfolds, hnumbered, hall, hsome⟩ :=
    @evaluateFolds_total _ _ _ _ _ _ sessions.ordered.length h.sharesMatrix hfirstHoldout le_rfl
  have hfoldsNonempty : folds ≠ [] := by
    apply hsome
    · rwa [BaselineEvaluationVersion.required, ← BaselineEvaluationVersion.firstHoldout]
        at hrequired
    · exact List.length_pos_of_ne_nil hnonempty
  obtain ⟨last, hlast⟩ : ∃ last, folds.getLast?.bind (·.holdoutDates.getLast?) = some last := by
    have hheld := (hall _ (List.getLast_mem hfoldsNonempty)).2
    refine ⟨(folds.getLast hfoldsNonempty).holdoutDates.getLast hheld, ?_⟩
    rw [List.getLast?_eq_some_getLast hfoldsNonempty, Option.bind_some,
      List.getLast?_eq_some_getLast hheld]
  have hrecorded := h.recorded
  rw [← h.targets first hfirst, hordered] at hfolds
  rw [hordered] at hrequired hrecorded
  simp only [evaluateArbitratedWalkForward, hordered, require_of hrequired,
    require_of hrecorded, require_of hlineage, require_of hkeys, ok_bind, hfolds, hlast]
  have hchecks : ∀ fields : ArbitratedWalkForwardReportFields D,
      fields.evaluationVersion = evaluationPolicy.version →
      fields.arbitrationVersion = arbitrationPolicy.version →
      fields.sessionSha256s = (first :: rest).map (fun entry => entry.2.sha256) →
      fields.folds = folds → fields.pendingDates = sessions.dates.filter (last < ·) →
      AllHold fields.checks := by
    intro fields hevaluation harbitration hsessions hfoldsEq hpending
    simp only [ArbitratedWalkForwardReportFields.checks, allHold_cons, allHold_nil, and_true]
    refine ⟨?_, ?_, ?_, ?_, ?_, ?_, ?_⟩
    · rw [hevaluation]
      exact evaluationPolicy.version_pattern
    · rw [harbitration]
      exact arbitrationPolicy.version_pattern
    · rw [hsessions]
      rfl
    · rw [hfoldsEq, bne_iff_ne]
      exact hfoldsNonempty
    · rw [hfoldsEq, hnumbered, beq_self_eq_true]
    · rw [hfoldsEq]
      obtain ⟨head, tail, rfl⟩ := List.exists_cons_of_ne_nil hfoldsNonempty
      have hhead := (hall head (by simp)).1
      simp only [List.head?_cons, Option.all_some, List.all_eq_true, beq_iff_eq]
      intro fold hfold
      rw [(hall fold hfold).1, hhead]
    · exact pendingOrdered_of sessions.dates_ascending (by rw [hfoldsEq]; exact hlast) hpending
  exact ⟨_, validated_of (hchecks _ rfl rfl rfl rfl rfl), hfoldsNonempty,
    fun fold hfold => (hall fold hfold).1⟩

/-! ## Targets -/

omit [Hashing D] in
/-- The target's row of each fold. -/
theorem foldRow_total {target : PromotionTarget} {fold : ArbitratedWalkForwardFold}
    (h : target.key ∈ fold.keys) :
    ∃ row, foldRow target fold = .ok row ∧ row.key = target.key ∧ row.WellFormed := by
  cases hrow : fold.evaluations.find? (·.key == target.key) with
  | none =>
      obtain ⟨item, hitem, hkey⟩ := List.mem_map.mp h
      exact absurd hkey (by simpa using List.find?_eq_none.mp hrow item hitem)
  | some row =>
      refine ⟨row.toArbitratedEvaluation, ?_, ?_, ArbitratedEvaluation.allHold_checks.mp row.valid⟩
      · simp only [foldRow, hrow]
      · simpa using List.find?_some hrow

omit [Hashing D] in
theorem worstReturn_total {rows : List ArbitratedEvaluation} (h : rows ≠ []) :
    ∃ worst, worstReturn rows = .ok worst := by
  simp only [worstReturn]
  split
  · next hlength =>
      split
      · next worst _ => exact ⟨some worst, rfl⟩
      · next hnone =>
          rw [List.min?_eq_none_iff.mp hnone] at hlength
          exact absurd (List.eq_nil_of_length_eq_zero hlength.symm) h
  · exact ⟨none, rfl⟩

omit [Hashing D] in
private theorem optional_sublist {α : Type} {p : Prop} [Decidable p] (x : α) :
    (if p then [x] else []).Sublist [x] := by
  by_cases hp : p
  · rw [if_pos hp]
  · rw [if_neg hp]
    exact List.nil_sublist _

omit [Hashing D] in
/-- The reasons of a target name each threshold once. -/
theorem targetReasons_total {policy : PromotionGateVersion} {selected eligible positive : Nat}
    {average worst : Option Rat} (heligible : eligible ≤ selected)
    (hpositive : positive ≤ eligible) :
    ∃ pending failed, targetReasons policy selected eligible positive average worst =
      .ok (pending, failed) ∧ (pending ++ failed).Nodup := by
  obtain ⟨coverage, hcoverage, -⟩ := rate_total heligible
  obtain ⟨positiveNet, hpositiveNet⟩ : ∃ value, positiveRate positive eligible = .ok value := by
    by_cases hzero : eligible = 0
    · exact ⟨none, if_pos hzero⟩
    · obtain ⟨value, hvalue, -⟩ := rate_total hpositive
      exact ⟨some value, by rw [positiveRate, if_neg hzero, hvalue]; rfl⟩
  unfold targetReasons
  by_cases hselected : selected < policy.minimumSelectedCount
  · exact ⟨[.insufficientSelections], [], if_pos hselected, by decide⟩
  · rw [if_neg hselected, hcoverage, ok_bind, hpositiveNet, ok_bind]
    refine ⟨_, _, rfl, ?_⟩
    have hall : [PromotionReason.missingFoldOutcomes, .outcomeCoverage, .positiveNetRate,
        .averageNetReturn, .worstFoldNetReturn].Nodup := by decide
    refine hall.sublist ?_
    exact (optional_sublist PromotionReason.missingFoldOutcomes).append
      ((((optional_sublist PromotionReason.outcomeCoverage).append (optional_sublist _)).append
        (optional_sublist _)).append (optional_sublist _))

omit [Hashing D] in
theorem targetResult_total {target : PromotionTarget} {folds : List ArbitratedWalkForwardFold}
    {policy : PromotionGateVersion} (hfolds : folds ≠ [])
    (hkeys : ∀ fold ∈ folds, target.key ∈ fold.keys) :
    ∃ result, targetResult target folds policy = .ok result ∧ result.key = target.key := by
  obtain ⟨rows, hrows, hrelated⟩ := mapM_each fun fold hfold => foldRow_total (hkeys fold hfold)
  have hall : ∀ row ∈ rows, row.key = target.key ∧ row.WellFormed := by
    intro row hrow
    obtain ⟨fold, -, hrow⟩ := exists_of_mem_forall₂ hrelated hrow
    exact hrow
  have hwell : ∀ row ∈ rows, row.WellFormed := fun row hrow => (hall row hrow).2
  have hlength : rows ≠ [] := by
    rintro rfl
    exact hfolds (List.eq_nil_of_length_eq_zero hrelated.length_eq)
  have heligible := Pooled.eligible_le_selected hwell
  have hpositive := Pooled.positive_le_eligible hwell
  obtain ⟨average, haverage, -⟩ := Pooled.weightedAverage_total rows
  obtain ⟨worst, hworst⟩ := worstReturn_total hlength
  obtain ⟨pending, failed, hreasons, hunique⟩ :=
    @targetReasons_total policy _ _ _ average worst heligible hpositive
  obtain ⟨coverage, hcoverage, hcoverageBounds⟩ := rate_total heligible
  obtain ⟨positive, hpositiveRate, hpositiveBounds⟩ := rate_total hpositive
  obtain ⟨first, rest, rfl⟩ := List.exists_cons_of_ne_nil hlength
  obtain ⟨hfirstKey, hfirst⟩ := hall first (by simp)
  simp only [ArbitratedEvaluation.key, PromotionTarget.key, Prod.mk.injEq] at hfirstKey
  obtain ⟨hstrategy, hsymbol, hhorizon⟩ := hfirstKey
  have hvalid : isSymbolName first.symbol ∧ 1 ≤ target.horizonSeconds :=
    ⟨hfirst.symbol_valid, target.horizon_bounds.1⟩
  have hstatus : (if failed ≠ [] then PromotionStatus.fail
      else if pending ≠ [] then .pending else .pass) = .pass ↔ pending ++ failed = [] := by
    by_cases hfailed : failed = []
    · by_cases hpending : pending = [] <;> simp [hfailed, hpending]
    · simp [hfailed]
  have hcounts := And.intro hpositive heligible
  simp only [Pooled.selected, Pooled.eligible, Pooled.positive]
    at hreasons hcoverage hpositiveRate hcounts
  simp only [targetResult, hrows, ok_bind, haverage, hworst, hreasons, hcoverage, hpositiveRate,
    PromotionTargetResult.modelValidate, ensure_of hvalid, ensure_of hcoverageBounds,
    ensure_of hpositiveBounds, ensure_of hcounts, ensure_of hunique, ensure_of hstatus]
  refine ⟨_, rfl, ?_⟩
  simp [PromotionTargetResult.key, PromotionTarget.key, hstrategy, hsymbol]

/-! ## The gate -/

/-- Every target of the gate names a baseline, as the sessions spell it. -/
theorem PromotionCohort.strategies
    (h : PromotionCohort evaluationPolicy gatePolicy arbitrationPolicy sessions) :
    ∀ target ∈ gatePolicy.targets, ∃ strategy : BaselineName, strategy.text = target.strategy := by
  obtain ⟨entry, rest, hentries⟩ := List.exists_cons_of_ne_nil h.nonempty
  have hentry : entry ∈ sessions.ordered := by
    rw [SessionEvidence.ordered, mem_sortOn, hentries]
    exact List.mem_cons_self ..
  intro target htarget
  have hkey : target.key ∈ entry.2.keys := by
    rw [h.targets entry hentry]
    exact List.mem_map_of_mem htarget
  obtain ⟨item, -, hsame⟩ := List.mem_map.mp hkey
  exact ⟨item.strategy, congrArg Prod.fst hsame⟩

omit [Hashing D] in
theorem pendingTarget_total {target : PromotionTarget} {strategy : BaselineName}
    (h : strategy.text = target.strategy) :
    ∃ result, pendingTarget target = .ok result ∧ result.key = target.key ∧
      result.status = .pending := by
  have hmem : strategy ∈ baselineNames := by cases strategy <;> decide
  cases hfind : baselineNames.find? (·.text == target.strategy) with
  | none =>
      have hnot := List.find?_eq_none.mp hfind strategy hmem
      exact absurd h (by simpa using hnot)
  | some found =>
      have hfound : found.text = target.strategy := by simpa using List.find?_some hfind
      have hvalid : isSymbolName target.symbol ∧ 1 ≤ target.horizonSeconds :=
        ⟨target.symbol_pattern, target.horizon_bounds.1⟩
      have hzero : (0 : Rat) ≤ 0 ∧ (0 : Rat) ≤ 1 := ⟨le_rfl, by norm_num⟩
      have hcounts : 0 ≤ 0 ∧ 0 ≤ 0 := ⟨le_rfl, le_rfl⟩
      have hunique : [PromotionReason.insufficientSelections].Nodup := by decide
      have hstatus : PromotionStatus.pending = .pass ↔
          [PromotionReason.insufficientSelections] = [] := by simp
      simp only [pendingTarget, hfind, PromotionTargetResult.modelValidate, ensure_of hvalid,
        ensure_of hzero, ensure_of hcounts, ensure_of hunique, ensure_of hstatus, ok_bind]
      refine ⟨_, rfl, ?_, rfl⟩
      simp [PromotionTargetResult.key, PromotionTarget.key, hfound]

omit [Hashing D] in
/-- Results under the keys of the targets are those of distinct targets. -/
theorem results_unique {targets : List PromotionTarget} {results : List PromotionTargetResult}
    (h : List.Forall₂ (fun target result => result.key = target.key) targets results)
    (hunique : (targets.map (·.key)).Nodup) :
    (results.map fun item => (item.strategy, item.symbol, item.horizonSeconds)).Nodup := by
  rw [← map_eq_of_forall₂ h] at hunique
  have hkeys : results.map (·.key) =
      (results.map fun item => (item.strategy, item.symbol, item.horizonSeconds)).map
        fun parts => (parts.1.text, parts.2.1, parts.2.2) := by
    rw [List.map_map]
    rfl
  rw [hkeys] at hunique
  exact hunique.of_map _

omit [Hashing D] in
theorem PromotionGateReport.modelValidate_total {gateSha256 evaluationSha256 arbitrationSha256 : D}
    {required observed gaps : Nat} {holdoutDates : List Day} {walkForwardSha256 : Option D}
    {audits : List D} {status : PromotionStatus} {reasons : List PromotionReason}
    {results : List PromotionTargetResult} (hrequired : 1 ≤ required)
    (hresults : List.Forall₂ (fun target result => result.key = target.key)
      gatePolicy.targets results)
    (hordered : holdoutDates.Pairwise (· < ·)) (hreasons : reasons.Nodup)
    (hstatus : status = expectedStatus reasons results)
    (hsourced : walkForwardSha256.isNone → holdoutDates = [])
    (hcomplete : status = .pass → holdoutDates ≠ [] ∧ walkForwardSha256.isSome ∧
      audits.length = holdoutDates.length) :
    ∃ report, PromotionGateReport.modelValidate gatePolicy.version gateSha256
      evaluationPolicy.version evaluationSha256 arbitrationPolicy.version arbitrationSha256
      required observed holdoutDates gaps walkForwardSha256 audits status reasons results =
        .ok report := by
  have hversions : isVersionName gatePolicy.version ∧ isVersionName evaluationPolicy.version ∧
      isVersionName arbitrationPolicy.version :=
    ⟨gatePolicy.version_pattern, evaluationPolicy.version_pattern,
      arbitrationPolicy.version_pattern⟩
  have hnonempty : results ≠ [] := by
    rintro rfl
    exact gatePolicy.targets_nonempty (List.eq_nil_of_length_eq_zero hresults.length_eq)
  have hunique := results_unique hresults gatePolicy.keys_nodup
  simp only [PromotionGateReport.modelValidate, ensure_of hversions, ensure_of hrequired,
    ensure_of hnonempty, ensure_of hordered, ensure_of hunique, ensure_of hreasons,
    ensure_of hstatus, ensure_of hsourced, ensure_of hcomplete, ok_bind]
  exact ⟨_, rfl⟩

omit [Hashing D] in
/-- The dates that are held out have sessions, and there are some. -/
theorem holdouts_total {walk : ArbitratedWalkForwardReport D}
    (h : WalkForward sessions evaluationPolicy walk) (hfolds : walk.folds ≠ []) :
    walk.holdoutDates ≠ [] ∧
      ∀ value ∈ walk.holdoutDates, ∃ session, sessions.get value = some session := by
  constructor
  · obtain ⟨fold, rest, hcons⟩ := List.exists_cons_of_ne_nil hfolds
    have hheld := (h.cuts fold (by rw [hcons]; exact List.mem_cons_self ..)).held
    have hbound := evaluationPolicy.holdout_bound
    rw [ArbitratedWalkForwardReport.holdoutDates, hcons, List.flatMap_cons]
    intro hnone
    rw [(List.append_eq_nil_iff.mp hnone).1] at hheld
    simp only [List.length_nil] at hheld
    omega
  · intro value hvalue
    have hdate : value ∈ sessions.dates := by
      apply List.mem_of_mem_drop
      rw [h.covered]
      exact List.mem_append_left _ hvalue
    obtain ⟨entry, hentry, rfl⟩ := List.mem_map.mp hdate
    exact ⟨entry.2, SessionEvidence.get_of_mem hentry⟩

/-- **The gate of a cohort is always computed.** -/
theorem evaluatePromotionGate_total
    (h : PromotionCohort evaluationPolicy gatePolicy arbitrationPolicy sessions)
    (htier : evaluationPolicy.tier = .promotion)
    (hnames : gatePolicy.evaluationVersion = evaluationPolicy.version ∧
      gatePolicy.arbitrationVersion = arbitrationPolicy.version) :
    ∃ report, evaluatePromotionGate sessions evaluationPolicy gatePolicy arbitrationPolicy =
      .ok report := by
  have hrequired : 1 ≤ evaluationPolicy.required := by
    have hdevelopment := evaluationPolicy.development_bound
    rw [BaselineEvaluationVersion.required]
    omega
  simp only [evaluatePromotionGate, require_of htier, require_of hnames, ok_bind]
  by_cases hfew : sessions.entries.length < evaluationPolicy.required
  · rw [if_pos hfew]
    obtain ⟨results, hresults, hrelated⟩ := mapM_each fun target htarget =>
      pendingTarget_total (h.strategies target htarget).choose_spec
    rw [hresults, ok_bind]
    have hpending : ∀ result ∈ results, result.status = .pending := by
      intro result hresult
      obtain ⟨target, -, -, hstatus⟩ := exists_of_mem_forall₂ hrelated hresult
      exact hstatus
    have hnofail : ¬∃ item ∈ results, item.status = .fail := by
      rintro ⟨item, hitem, hfail⟩
      rw [hpending item hitem] at hfail
      cases hfail
    apply PromotionGateReport.modelValidate_total hrequired (hrelated.imp fun _ _ hkey => hkey.1)
      List.Pairwise.nil (by decide) _ (fun _ => rfl) (by simp)
    rw [expectedStatus, if_neg (by simpa using hnofail), if_pos (.inl (by simp))]
  · rw [if_neg hfew]
    have hmany : evaluationPolicy.required ≤ sessions.ordered.length := by
      rw [sessions.length_ordered]
      exact not_lt.mp hfew
    obtain ⟨walk, hwalk, hfolds, hkeys⟩ := evaluateArbitratedWalkForward_total h hmany
    obtain ⟨hsplit, hascending, -⟩ := evaluateArbitratedWalkForward_ok hwalk
    obtain ⟨hheld, hget⟩ := holdouts_total hsplit hfolds
    have hsorted : sortOn id walk.holdoutDates = walk.holdoutDates :=
      (hascending.imp le_of_lt).insertionSort_eq
    obtain ⟨results, hresults, hrelated⟩ := mapM_each fun target htarget =>
      @targetResult_total target walk.folds gatePolicy hfolds fun fold hfold => by
        rw [hkeys fold hfold]
        exact List.mem_map_of_mem htarget
    simp only [hwalk, ok_bind, hsorted]
    refine mapM_then_total ?_ ?_
    · intro value hvalue
      obtain ⟨session, hsession⟩ := hget value hvalue
      exact ⟨session, by rw [hsession]⟩
    intro holdouts hholdouts
    rw [hresults, ok_bind]
    have hlength := (mapM_eq_ok.mp hholdouts).length_eq
    apply PromotionGateReport.modelValidate_total hrequired hrelated hascending
    case hreasons => split <;> decide
    case hstatus =>
      split
      · simp [expectedStatus]
      · simp [expectedStatus]
    case hsourced => simp
    case hcomplete =>
      intro _
      exact ⟨hheld, rfl, by rw [List.length_map, hlength]⟩

end

end MiniLakehouse
