import MiniLakehouse.Promotion.Engine
import MiniLakehouse.Configuration.Trading

/-!
# Soundness of a promotion pass

A PASS rests on averages of averages: daily, over a holdout, over all folds.
`Pools` says what one level of pooling keeps of the rows below it, `WalkForward`
how the folds cut the ordered sessions, and `TargetEvidence` what the holdout
sessions themselves show for a target of a passing gate.
-/

namespace MiniLakehouse

variable {D : Type}

/-! ## Pooled rows -/

namespace Pooled

variable (rows : List ArbitratedEvaluation)

def selected : Nat := (rows.map (·.selectedCount)).sum

def eligible : Nat := (rows.map (·.eligibleOutcomeCount)).sum

def positive : Nat := (rows.map (·.positiveNetCount)).sum

/-- The sum of the averages, each weighted by its eligible outcomes. -/
def returns : Rat :=
  (rows.map fun item =>
    item.averageConditionalNetReturnBps.getD 0 * (item.eligibleOutcomeCount : Rat)).sum

variable {rows}

@[simp] theorem selected_append {others : List ArbitratedEvaluation} :
    selected (rows ++ others) = selected rows + selected others := by simp [selected]

@[simp] theorem eligible_append {others : List ArbitratedEvaluation} :
    eligible (rows ++ others) = eligible rows + eligible others := by simp [eligible]

@[simp] theorem positive_append {others : List ArbitratedEvaluation} :
    positive (rows ++ others) = positive rows + positive others := by simp [positive]

@[simp] theorem returns_append {others : List ArbitratedEvaluation} :
    returns (rows ++ others) = returns rows + returns others := by simp [returns]

/-- Rows without an average add nothing to the weighted sum. -/
theorem weightedReturns_sum : (weightedReturns rows).sum = returns rows := by
  induction rows with
  | nil => rfl
  | cons row rows ih =>
      simp only [weightedReturns, returns] at ih
      cases haverage : row.averageConditionalNetReturnBps with
      | none => simp [weightedReturns, returns, haverage, ih]
      | some average => simp [weightedReturns, returns, haverage, ih]

theorem weightedAverage_eq : weightedAverage rows =
    if eligible rows = 0 then .ok none
    else some <$> ratio (returns rows) (eligible rows) bpsPlaces := by
  rw [← weightedReturns_sum]
  rfl

/-- A published average is within half a basis-point quantum of the exact mean. -/
theorem weightedAverage_some {average : Rat} (h : weightedAverage rows = .ok (some average)) :
    0 < eligible rows ∧ |average - returns rows / eligible rows| ≤ 5 / 100000 := by
  rw [weightedAverage_eq] at h
  split at h
  · simp at h
  · next hpos =>
      refine ⟨Nat.pos_of_ne_zero hpos, ?_⟩
      cases hratio : ratio (returns rows) (eligible rows) bpsPlaces with
      | error raised => simp [hratio] at h
      | ok value =>
          obtain rfl : value = average := by simpa [hratio] using h
          have herror := ratio_error hratio
          exact herror.trans (by norm_num [bpsPlaces])

theorem weightedAverage_none (h : weightedAverage rows = .ok none) : eligible rows = 0 := by
  rw [weightedAverage_eq] at h
  split at h
  · next hzero => exact hzero
  · cases hratio : ratio (returns rows) (eligible rows) bpsPlaces with
    | error raised => simp [hratio] at h
    | ok value => simp [hratio] at h

end Pooled

/-- One row stands for the rows that it was pooled from. -/
structure Pools (rows : List ArbitratedEvaluation) (result : ArbitratedEvaluation) : Prop where
  selected : result.selectedCount = Pooled.selected rows
  eligible : result.eligibleOutcomeCount = Pooled.eligible rows
  positive : result.positiveNetCount = Pooled.positive rows
  average : weightedAverage rows = .ok result.averageConditionalNetReturnBps

theorem combine_ok {rows : List ArbitratedEvaluation} {result : ArbitratedHoldoutEvaluation}
    (h : combine rows = .ok result) :
    Pools rows result.toArbitratedEvaluation ∧ ∃ item ∈ rows, item.key = result.key := by
  unfold combine at h
  split at h
  · cases h
  · next first rest =>
      simp only [bind_eq_ok, require_eq_ok] at h
      obtain ⟨-, hkeys, average, haverage, h⟩ := h
      obtain ⟨-, rfl⟩ := validated_eq_ok.mp h
      exact ⟨⟨rfl, rfl, rfl, haverage⟩, first, by simp, rfl⟩

/-! ## Rows of the sessions -/

/-- A target's rows of the sessions on some dates. -/
def SessionEvidence.rows (sessions : SessionEvidence D) (key : TargetKey) (dates : List Day) :
    List ArbitratedEvaluation :=
  dates.filterMap fun value => (sessions.get value).bind fun report =>
    (report.row key).map (·.toArbitratedEvaluation)

/-- Each of the dates has a session with a row of the target. -/
def SessionEvidence.Covers (sessions : SessionEvidence D) (key : TargetKey)
    (dates : List Day) : Prop :=
  ∀ value ∈ dates, ∃ report, sessions.get value = some report ∧ (report.row key).isSome

namespace SessionEvidence

variable {sessions : SessionEvidence D}

theorem rows_append {key : TargetKey} {first second : List Day} :
    sessions.rows key (first ++ second) = sessions.rows key first ++ sessions.rows key second :=
  List.filterMap_append

theorem get_of_mem {entry : Day × ArbitratedSessionReport D} (h : entry ∈ sessions.ordered) :
    sessions.get entry.1 = some entry.2 := by
  have hmem : entry ∈ sessions.entries := mem_sortOn.mp h
  rw [get, (find?_key_eq_some Prod.fst sessions.dates_unique).mpr ⟨hmem, rfl⟩, Option.map_some]

theorem dates_ascending : sessions.dates.Pairwise (· < ·) :=
  sortOn_keys_ascending sessions.dates_unique

theorem length_ordered : sessions.ordered.length = sessions.entries.length :=
  (sortOn_perm Prod.fst sessions.entries).length_eq

/-- The keyed rows of some sessions are the rows on their dates. -/
theorem rows_of_keyed {key : TargetKey} {entries : List (Day × ArbitratedSessionReport D)}
    {rows : List ArbitratedEvaluation} (hentries : ∀ entry ∈ entries, entry ∈ sessions.ordered)
    (h : entries.mapM (fun entry => keyedRow key entry.2) = .ok rows) :
    sessions.rows key (entries.map Prod.fst) = rows ∧
      sessions.Covers key (entries.map Prod.fst) ∧ ∀ item ∈ rows, item.key = key := by
  rw [mapM_eq_ok] at h
  induction h with
  | nil => simp [SessionEvidence.rows, Covers]
  | @cons entry row entries rows hrow _ ih =>
      obtain ⟨hrest, hcovers, hkeys⟩ := ih fun other hother => hentries other (by simp [hother])
      have hget := get_of_mem (hentries entry (by simp))
      unfold keyedRow at hrow
      split at hrow
      · next found hfound =>
          obtain rfl := Except.ok.inj hrow
          have hkey : found.key = key := by simpa using List.find?_some hfound
          refine ⟨?_, ?_, ?_⟩
          · simp only [SessionEvidence.rows] at hrest
            simp [SessionEvidence.rows, hget, hfound, hrest]
          · intro value hvalue
            rcases List.mem_cons.mp hvalue with rfl | hvalue
            · exact ⟨entry.2, hget, by simp [hfound]⟩
            · exact hcovers value hvalue
          · intro item hitem
            rcases List.mem_cons.mp hitem with rfl | hitem
            · exact hkey
            · exact hkeys item hitem
      · cases hrow

end SessionEvidence

/-! ## Folds -/

/-- How a fold cuts the ordered dates: all earlier dates, the purged ones, its holdout. -/
structure CutsDates (dates : List Day) (policy : BaselineEvaluationVersion)
    (fold : ArbitratedWalkForwardFold) : Prop where
  cut : ∃ later, dates =
    fold.developmentDates ++ fold.purgedDates ++ fold.holdoutDates ++ later
  purged : fold.purgedDates.length = policy.purgeSessions
  held : fold.holdoutDates.length = policy.holdoutSessions

/-- Each row of a fold stands for the rows of its holdout sessions. -/
def PoolsHoldout (sessions : SessionEvidence D) (fold : ArbitratedWalkForwardFold) : Prop :=
  ∀ row ∈ fold.evaluations,
    Pools (sessions.rows row.key fold.holdoutDates) row.toArbitratedEvaluation ∧
      sessions.Covers row.key fold.holdoutDates

/-- Four consecutive parts of a list. -/
theorem four_parts {α : Type} (xs : List α) (a b c : Nat) :
    xs = xs.take a ++ (xs.drop a).take b ++ (xs.drop (a + b)).take c ++ xs.drop (a + b + c) := by
  rw [List.append_assoc, List.append_assoc, ← List.drop_drop (i := c) (j := a + b),
    List.take_append_drop, ← List.drop_drop (i := b) (j := a), List.take_append_drop,
    List.take_append_drop]

section

variable {sessions : SessionEvidence D} {policy : BaselineEvaluationVersion}
  {keys : List TargetKey} {start number : Nat}

theorem evaluateFold_ok {fold : ArbitratedWalkForwardFold}
    (h : evaluateFold policy sessions.ordered keys start number = .ok fold)
    (hstart : policy.purgeSessions ≤ start)
    (hroom : start + policy.holdoutSessions ≤ sessions.ordered.length) :
    CutsDates sessions.dates policy fold ∧ PoolsHoldout sessions fold ∧
      fold.holdoutDates = (sessions.dates.drop start).take policy.holdoutSessions := by
  simp only [evaluateFold, bind_eq_ok] at h
  obtain ⟨evaluations, hevaluations, h⟩ := h
  obtain ⟨-, rfl⟩ := validated_eq_ok.mp h
  refine ⟨?_, ?_, ?_⟩
  · constructor
    case cut =>
      refine ⟨(sessions.ordered.drop (start + policy.holdoutSessions)).map Prod.fst, ?_⟩
      have hparts := four_parts sessions.ordered (start - policy.purgeSessions)
        policy.purgeSessions policy.holdoutSessions
      rw [Nat.sub_add_cancel hstart] at hparts
      simp only [Nat.sub_sub_self hstart]
      simpa only [List.map_append, SessionEvidence.dates] using congrArg (List.map Prod.fst) hparts
    case purged =>
      simp only [Nat.sub_sub_self hstart, List.length_map, List.length_take, List.length_drop]
      omega
    case held =>
      simp only [List.length_map, List.length_take, List.length_drop]
      omega
  · intro row hrow
    rw [mapM_eq_ok] at hevaluations
    obtain ⟨key, -, hkey⟩ := exists_of_mem_forall₂ hevaluations hrow
    simp only [bind_eq_ok] at hkey
    obtain ⟨rows, hrows, hcombine⟩ := hkey
    obtain ⟨hpooled, hcovers, hkeyed⟩ := SessionEvidence.rows_of_keyed
      (fun entry hentry => List.mem_of_mem_drop (List.mem_of_mem_take hentry)) hrows
    obtain ⟨hpools, item, hitem, hsame⟩ := combine_ok hcombine
    obtain rfl : row.key = key := hsame.symm.trans (hkeyed item hitem)
    exact ⟨hpooled ▸ hpools, hcovers⟩
  · simp only [SessionEvidence.dates, List.map_drop, List.map_take]

/-- **The loop over folds** cuts off one holdout after another, until less than a
holdout is left. -/
theorem evaluateFolds_ok {fuel : Nat} {folds : List ArbitratedWalkForwardFold}
    (h : evaluateFolds policy sessions.ordered keys fuel start number = .ok folds)
    (hstart : policy.purgeSessions ≤ start)
    (hfuel : sessions.ordered.length ≤ start + fuel) :
    (∀ fold ∈ folds, CutsDates sessions.dates policy fold ∧ PoolsHoldout sessions fold) ∧
      ∃ pending, sessions.dates.drop start = folds.flatMap (·.holdoutDates) ++ pending ∧
        pending.length < policy.holdoutSessions := by
  have hsize : sessions.dates.length = sessions.ordered.length := List.length_map ..
  have hheld := policy.holdout_bound
  induction fuel generalizing start number folds with
  | zero =>
      obtain rfl := Except.ok.inj h
      refine ⟨by simp, [], ?_, hheld⟩
      rw [List.drop_eq_nil_of_le (by omega)]
      rfl
  | succ fuel ih =>
      rw [evaluateFolds] at h
      split at h
      · next hroom =>
          simp only [bind_eq_ok, pure_eq_ok] at h
          obtain ⟨first, hfirst, rest, hrest, rfl⟩ := h
          obtain ⟨hcuts, hpools, hholdout⟩ := evaluateFold_ok hfirst hstart hroom
          obtain ⟨hall, pending, hpending, hshort⟩ := ih hrest (by omega) (by omega)
          refine ⟨?_, pending, ?_, hshort⟩
          · intro fold hfold
            rcases List.mem_cons.mp hfold with rfl | hfold
            · exact ⟨hcuts, hpools⟩
            · exact hall fold hfold
          · rw [List.flatMap_cons, List.append_assoc, ← hpending, hholdout, ← List.drop_drop,
              List.take_append_drop]
      · next hroom =>
          obtain rfl := Except.ok.inj h
          refine ⟨by simp, sessions.dates.drop start, rfl, ?_⟩
          rw [List.length_drop]
          omega

end

/-! ## The walk-forward report -/

/-- What follows the last of some ascending dates. -/
private theorem filter_after_last {first second : List Day} {last : Day}
    (hascending : (first ++ second).Pairwise (· < ·)) (hlast : first.getLast? = some last) :
    (first ++ second).filter (last < ·) = second := by
  obtain ⟨before, rfl⟩ := List.getLast?_eq_some_iff.mp hlast
  obtain ⟨hfirst, -, hacross⟩ := List.pairwise_append.mp hascending
  obtain ⟨-, -, hbefore⟩ := List.pairwise_append.mp hfirst
  have hnone : (before ++ [last]).filter (last < ·) = [] := by
    rw [List.filter_eq_nil_iff]
    intro value hvalue
    rw [decide_eq_true_eq, not_lt]
    rcases List.mem_append.mp hvalue with hold | hsame
    · exact (hbefore value hold last (by simp)).le
    · exact (List.mem_singleton.mp hsame).le
  have hall : second.filter (last < ·) = second := by
    rw [List.filter_eq_self]
    intro value hvalue
    exact decide_eq_true (hacross last (by simp) value hvalue)
  rw [List.filter_append, hnone, hall, List.nil_append]

/-- The last date of the last fold is the last of all holdout dates. -/
private theorem holdouts_getLast {folds : List ArbitratedWalkForwardFold} {last : Day}
    (h : folds.getLast?.bind (·.holdoutDates.getLast?) = some last) :
    (folds.flatMap (·.holdoutDates)).getLast? = some last := by
  obtain ⟨fold, hfold, hlast⟩ := Option.bind_eq_some_iff.mp h
  obtain ⟨before, rfl⟩ := List.getLast?_eq_some_iff.mp hfold
  rw [List.flatMap_append, List.flatMap_singleton, List.getLast?_append, hlast, Option.some_or]

/-- How the folds of a walk-forward report split the sessions. -/
structure WalkForward (sessions : SessionEvidence D) (policy : BaselineEvaluationVersion)
    (walk : ArbitratedWalkForwardReport D) : Prop where
  cuts : ∀ fold ∈ walk.folds, CutsDates sessions.dates policy fold
  disjoint : walk.folds.Pairwise fun left right =>
    left.holdoutDates.Disjoint right.holdoutDates
  covered : sessions.dates.drop policy.firstHoldout = walk.holdoutDates ++ walk.pendingDates
  once : ∀ value ∈ sessions.dates.drop policy.firstHoldout,
    (∃ fold ∈ walk.folds, value ∈ fold.holdoutDates) ↔ value ∉ walk.pendingDates

variable [Hashing D]

theorem evaluateArbitratedWalkForward_ok {sessions : SessionEvidence D}
    {policy : BaselineEvaluationVersion} {arbitrationPolicy : CandidateArbitrationVersion}
    {walk : ArbitratedWalkForwardReport D}
    (h : evaluateArbitratedWalkForward sessions policy arbitrationPolicy = .ok walk) :
    WalkForward sessions policy walk ∧ walk.holdoutDates.Pairwise (· < ·) ∧
      ∀ fold ∈ walk.folds, PoolsHoldout sessions fold := by
  simp only [evaluateArbitratedWalkForward, bind_eq_ok, require_eq_ok] at h
  obtain ⟨-, hrequired, -, -, h⟩ := h
  split at h
  · cases h
  · next first rest hordered =>
      simp only [bind_eq_ok, require_eq_ok] at h
      obtain ⟨-, -, -, -, folds, hfolds, h⟩ := h
      split at h
      · cases h
      · next last hlast =>
          obtain ⟨-, rfl⟩ := validated_eq_ok.mp h
          obtain ⟨hall, pending, hpending, -⟩ := evaluateFolds_ok hfolds
            (by simp [BaselineEvaluationVersion.firstHoldout]) (by omega)
          have hascending : (sessions.dates.drop policy.firstHoldout).Pairwise (· < ·) :=
            sessions.dates_ascending.sublist (List.drop_sublist ..)
          have hfilter : sessions.dates.filter (last < ·) = pending := by
            have hsplit := List.take_append_drop policy.firstHoldout sessions.dates
            rw [hpending, ← List.append_assoc] at hsplit
            rw [← hsplit]
            apply filter_after_last
            · rw [hsplit]
              exact sessions.dates_ascending
            · rw [List.getLast?_append, holdouts_getLast hlast, Option.some_or]
          rw [hpending] at hascending
          have hheld : (folds.flatMap (·.holdoutDates)).Pairwise (· < ·) :=
            (List.pairwise_append.mp hascending).1
          refine ⟨?_, hheld, fun fold hfold => (hall fold hfold).2⟩
          constructor
          case cuts => exact fun fold hfold => (hall fold hfold).1
          case disjoint => exact (List.nodup_flatMap.mp (nodup_of_ascending hheld)).2
          case covered =>
            rw [hpending]
            exact congrArg _ hfilter.symm
          case once =>
            intro value hvalue
            rw [hpending, List.mem_append, List.mem_flatMap] at hvalue
            have hapart := List.disjoint_of_nodup_append (nodup_of_ascending hascending)
            simp only [hfilter]
            constructor
            · rintro ⟨fold, hfold, hmem⟩ hlater
              exact hapart (List.mem_flatMap.mpr ⟨fold, hfold, hmem⟩) hlater
            · intro hnot
              exact hvalue.resolve_right hnot

/-! ## A passing target -/

omit [Hashing D] in
theorem foldRow_ok {sessions : SessionEvidence D} {target : PromotionTarget}
    {fold : ArbitratedWalkForwardFold} {row : ArbitratedEvaluation}
    (hpools : PoolsHoldout sessions fold) (h : foldRow target fold = .ok row) :
    Pools (sessions.rows target.key fold.holdoutDates) row ∧
      sessions.Covers target.key fold.holdoutDates := by
  unfold foldRow at h
  split at h
  · next found hfound =>
      obtain rfl := Except.ok.inj h
      have hkey : found.key = target.key := by simpa using List.find?_some hfound
      rw [← hkey]
      exact hpools found (List.mem_of_find?_eq_some hfound)
  · cases h

theorem worstReturn_some {rows : List ArbitratedEvaluation} {worst : Rat}
    (h : worstReturn rows = .ok (some worst)) :
    ∀ row ∈ rows, ∃ average, row.averageConditionalNetReturnBps = some average ∧
      worst ≤ average := by
  simp only [worstReturn] at h
  split at h
  · next hlength =>
      split at h
      · next least hleast =>
          obtain rfl : least = worst := by simpa using h
          intro row hrow
          have hsome := List.filterMap_length_eq_length.mp hlength row hrow
          obtain ⟨average, haverage⟩ := Option.isSome_iff_exists.mp hsome
          refine ⟨average, haverage, ?_⟩
          exact (List.min?_eq_some_iff.mp hleast).2 average
            (List.mem_filterMap.mpr ⟨row, hrow, haverage⟩)
      · cases h
  · simp at h

/-- Rows of the folds that leave a target without a reason. -/
structure PassingRows (policy : PromotionGateVersion) (rows : List ArbitratedEvaluation) :
    Prop where
  selected : policy.minimumSelectedCount ≤ Pooled.selected rows
  coverage : policy.minimumOutcomeCoverageRate - 5 / 10000000 ≤
    (Pooled.eligible rows : Rat) / Pooled.selected rows
  positive : 0 < Pooled.eligible rows → policy.minimumPositiveNetRate - 5 / 10000000 ≤
    (Pooled.positive rows : Rat) / Pooled.eligible rows
  average : ∃ average, weightedAverage rows = .ok average ∧
    ∀ value ∈ average, policy.minimumAverageNetReturnBps ≤ value
  worst : ∀ row ∈ rows, ∃ average, row.averageConditionalNetReturnBps = some average ∧
    policy.minimumWorstFoldNetReturnBps ≤ average

private theorem any_lt_eq_false {value : Option Rat} {bound : Rat} :
    value.any (· < bound) = false ↔ ∀ x ∈ value, bound ≤ x := by
  cases value <;> simp

/-- **A target without reasons** meets each threshold on the rows of the folds. -/
theorem targetReasons_nil {policy : PromotionGateVersion} {rows : List ArbitratedEvaluation}
    {average worst : Option Rat} (haverage : weightedAverage rows = .ok average)
    (hworst : worstReturn rows = .ok worst)
    (h : targetReasons policy (Pooled.selected rows) (Pooled.eligible rows)
      (Pooled.positive rows) average worst = .ok ([], [])) : PassingRows policy rows := by
  unfold targetReasons at h
  split at h
  · simp at h
  · next hselected =>
      simp only [bind_eq_ok, pure_eq_ok, Prod.mk.injEq, List.append_eq_nil_iff,
        ite_eq_right_iff, reduceCtorEq, imp_false, Bool.not_eq_true, any_lt_eq_false,
        not_lt] at h
      obtain ⟨coverage, hcoverage, positive, hpositive, hsome, ⟨⟨huncovered, hnegative⟩, hlow⟩,
        hpoor⟩ := h
      have hpos : 0 < Pooled.selected rows :=
        lt_of_lt_of_le policy.selectedCount_pos (not_lt.mp hselected)
      constructor
      case selected => exact not_lt.mp hselected
      case coverage => exact rate_ge hcoverage hpos huncovered
      case positive =>
        intro heligible
        rw [positiveRate, if_neg heligible.ne'] at hpositive
        cases hrate : rate (Pooled.positive rows) (Pooled.eligible rows) with
        | error raised => simp [hrate] at hpositive
        | ok value =>
            obtain rfl : some value = positive := by simpa [hrate] using hpositive
            exact rate_ge hrate heligible (hnegative value rfl)
      case average => exact ⟨average, haverage, hlow⟩
      case worst =>
        cases worst with
        | none => simp at hsome
        | some least =>
            intro row hrow
            obtain ⟨value, hvalue, hleast⟩ := worstReturn_some hworst row hrow
            exact ⟨value, hvalue, (hpoor least rfl).trans hleast⟩

/-- A passing target was computed from rows that pass. -/
theorem targetResult_pass {target : PromotionTarget} {folds : List ArbitratedWalkForwardFold}
    {policy : PromotionGateVersion} {result : PromotionTargetResult}
    (h : targetResult target folds policy = .ok result) (hpass : result.status = .pass) :
    ∃ rows, rows ≠ [] ∧ folds.mapM (foldRow target) = .ok rows ∧ PassingRows policy rows := by
  simp only [targetResult, bind_eq_ok] at h
  obtain ⟨rows, hrows, average, haverage, worst, hworst, ⟨pending, failed⟩, hreasons,
    coverage, -, positive, -, h⟩ := h
  split at h
  · cases h
  · next first rest =>
      simp only [PromotionTargetResult.modelValidate, bind_eq_ok, pure_eq_ok] at h
      obtain ⟨_, -, _, -, _, -, _, -, _, -, _, -, rfl⟩ := h
      have hnone : failed = [] ∧ pending = [] := by
        by_cases hfailed : failed = []
        · by_cases hpending : pending = []
          · exact ⟨hfailed, hpending⟩
          · simp [hfailed, hpending] at hpass
        · simp [hfailed] at hpass
      obtain ⟨rfl, rfl⟩ := hnone
      exact ⟨first :: rest, by simp, hrows, targetReasons_nil haverage hworst hreasons⟩

/-- What the holdout sessions themselves show for a target of a passing gate. -/
structure TargetEvidence (sessions : SessionEvidence D) (walk : ArbitratedWalkForwardReport D)
    (policy : PromotionGateVersion) (key : TargetKey) : Prop where
  covered : sessions.Covers key walk.holdoutDates
  selected : policy.minimumSelectedCount ≤
    Pooled.selected (sessions.rows key walk.holdoutDates)
  coverage : policy.minimumOutcomeCoverageRate - 5 / 10000000 ≤
    (Pooled.eligible (sessions.rows key walk.holdoutDates) : Rat) /
      Pooled.selected (sessions.rows key walk.holdoutDates)
  positive : policy.minimumPositiveNetRate - 5 / 10000000 ≤
    (Pooled.positive (sessions.rows key walk.holdoutDates) : Rat) /
      Pooled.eligible (sessions.rows key walk.holdoutDates)
  average : policy.minimumAverageNetReturnBps - 1 / 10000 ≤
    Pooled.returns (sessions.rows key walk.holdoutDates) /
      Pooled.eligible (sessions.rows key walk.holdoutDates)
  folds : ∀ fold ∈ walk.folds,
    0 < Pooled.eligible (sessions.rows key fold.holdoutDates) ∧
      policy.minimumWorstFoldNetReturnBps - 5 / 100000 ≤
        Pooled.returns (sessions.rows key fold.holdoutDates) /
          Pooled.eligible (sessions.rows key fold.holdoutDates)

section

variable {sessions : SessionEvidence D} {key : TargetKey}
  {folds : List ArbitratedWalkForwardFold} {rows : List ArbitratedEvaluation}

omit [Hashing D] in
/-- Counts pooled over folds are the counts pooled over their sessions. -/
theorem counts_of_folds
    (h : List.Forall₂ (fun fold row => Pools (sessions.rows key fold.holdoutDates) row)
      folds rows) :
    Pooled.selected rows = Pooled.selected (sessions.rows key (folds.flatMap (·.holdoutDates))) ∧
      Pooled.eligible rows =
        Pooled.eligible (sessions.rows key (folds.flatMap (·.holdoutDates))) ∧
      Pooled.positive rows =
        Pooled.positive (sessions.rows key (folds.flatMap (·.holdoutDates))) := by
  induction h with
  | nil => exact ⟨rfl, rfl, rfl⟩
  | @cons fold row folds rows hpools _ ih =>
      obtain ⟨hselected, heligible, hpositive⟩ := ih
      rw [List.flatMap_cons, SessionEvidence.rows_append]
      refine ⟨?_, ?_, ?_⟩
      · rw [Pooled.selected_append, ← hselected, ← hpools.selected]
        rfl
      · rw [Pooled.eligible_append, ← heligible, ← hpools.eligible]
        rfl
      · rw [Pooled.positive_append, ← hpositive, ← hpools.positive]
        rfl

omit [Hashing D] in
/-- One fold's average times its weight, against the weighted returns below it. -/
theorem Pools.returns_close {below : List ArbitratedEvaluation} {row : ArbitratedEvaluation}
    {average : Rat} (h : Pools below row)
    (haverage : row.averageConditionalNetReturnBps = some average) :
    |average * row.eligibleOutcomeCount - Pooled.returns below| ≤
      5 / 100000 * row.eligibleOutcomeCount := by
  have hbelow := h.average
  rw [haverage] at hbelow
  obtain ⟨hpos, hclose⟩ := Pooled.weightedAverage_some hbelow
  rw [← h.eligible] at hpos hclose
  have hweight : (0 : Rat) < row.eligibleOutcomeCount := by exact_mod_cast hpos
  have hscaled : average * row.eligibleOutcomeCount - Pooled.returns below =
      (average - Pooled.returns below / row.eligibleOutcomeCount) *
        row.eligibleOutcomeCount := by
    rw [sub_mul, div_mul_cancel₀ _ hweight.ne']
  rw [hscaled, abs_mul, abs_of_pos hweight]
  exact mul_le_mul_of_nonneg_right hclose hweight.le

omit [Hashing D] in
/-- **Averages of averages.**  Weighted by fold they are off by at most half a quantum. -/
theorem returns_of_folds
    (h : List.Forall₂ (fun fold row => Pools (sessions.rows key fold.holdoutDates) row)
      folds rows)
    (hsome : ∀ row ∈ rows, ∃ average, row.averageConditionalNetReturnBps = some average) :
    |Pooled.returns rows -
        Pooled.returns (sessions.rows key (folds.flatMap (·.holdoutDates)))| ≤
      5 / 100000 * Pooled.eligible rows := by
  induction h with
  | nil => simp [Pooled.returns, Pooled.eligible, SessionEvidence.rows]
  | @cons fold row folds rows hpools _ ih =>
      have hrest := ih fun other hother => hsome other (by simp [hother])
      obtain ⟨average, haverage⟩ := hsome row (by simp)
      have hfirst := hpools.returns_close haverage
      have hreturns : Pooled.returns (row :: rows) =
          average * row.eligibleOutcomeCount + Pooled.returns rows := by
        simp [Pooled.returns, haverage]
      have heligible : (Pooled.eligible (row :: rows) : Rat) =
          row.eligibleOutcomeCount + Pooled.eligible rows := by
        simp [Pooled.eligible]
      rw [List.flatMap_cons, SessionEvidence.rows_append, Pooled.returns_append, hreturns,
        heligible, mul_add, add_sub_add_comm]
      exact (abs_add_le _ _).trans (add_le_add hfirst hrest)

end

omit [Hashing D] in
theorem pools_of_rows {sessions : SessionEvidence D} {target : PromotionTarget}
    {folds : List ArbitratedWalkForwardFold} {rows : List ArbitratedEvaluation}
    (hpools : ∀ fold ∈ folds, PoolsHoldout sessions fold)
    (h : List.Forall₂ (fun fold row => foldRow target fold = .ok row) folds rows) :
    List.Forall₂ (fun fold row => Pools (sessions.rows target.key fold.holdoutDates) row)
      folds rows ∧ ∀ fold ∈ folds, sessions.Covers target.key fold.holdoutDates := by
  induction h with
  | nil => exact ⟨.nil, by simp⟩
  | @cons fold row folds rows hrow _ ih =>
      obtain ⟨hrest, hcovers⟩ := ih fun other hother => hpools other (by simp [hother])
      obtain ⟨hfirst, hcover⟩ := foldRow_ok (hpools fold (by simp)) hrow
      refine ⟨.cons hfirst hrest, ?_⟩
      intro other hother
      rcases List.mem_cons.mp hother with rfl | hother
      · exact hcover
      · exact hcovers other hother

omit [Hashing D] in
/-- **A passing target's evidence** in the holdout sessions. -/
theorem PassingRows.evidence {sessions : SessionEvidence D}
    {walk : ArbitratedWalkForwardReport D} {policy : PromotionGateVersion}
    {target : PromotionTarget} {rows : List ArbitratedEvaluation}
    (h : PassingRows policy rows) (hnonempty : rows ≠ [])
    (hrows : walk.folds.mapM (foldRow target) = .ok rows)
    (hpools : ∀ fold ∈ walk.folds, PoolsHoldout sessions fold) :
    TargetEvidence sessions walk policy target.key := by
  obtain ⟨hpooled, hcovers⟩ := pools_of_rows hpools (mapM_eq_ok.mp hrows)
  obtain ⟨hselected, heligible, hpositive⟩ := counts_of_folds hpooled
  have hsome : ∀ row ∈ rows, ∃ average, row.averageConditionalNetReturnBps = some average :=
    fun row hrow => (h.worst row hrow).imp fun _ haverage => haverage.1
  have hclose := returns_of_folds hpooled hsome
  have hfolds : ∀ fold ∈ walk.folds,
      0 < Pooled.eligible (sessions.rows target.key fold.holdoutDates) ∧
        policy.minimumWorstFoldNetReturnBps - 5 / 100000 ≤
          Pooled.returns (sessions.rows target.key fold.holdoutDates) /
            Pooled.eligible (sessions.rows target.key fold.holdoutDates) := by
    intro fold hfold
    obtain ⟨row, hrow, hpools⟩ := exists_of_mem_forall₂ hpooled.flip hfold
    obtain ⟨average, haverage, hworst⟩ := h.worst row hrow
    have hbelow := hpools.average
    rw [haverage] at hbelow
    obtain ⟨hpos, herror⟩ := Pooled.weightedAverage_some hbelow
    exact ⟨hpos, by linarith [(abs_le.mp herror).2]⟩
  have hpos : 0 < Pooled.eligible rows := by
    obtain ⟨first, rest, rfl⟩ := List.exists_cons_of_ne_nil hnonempty
    obtain ⟨fold, hfold, hpools⟩ := exists_of_mem_forall₂ hpooled (List.mem_cons_self ..)
    have hfirst := (hfolds fold hfold).1
    rw [← hpools.eligible] at hfirst
    exact lt_of_lt_of_le hfirst (by simp [Pooled.eligible])
  have hweight : (0 : Rat) < Pooled.eligible rows := by exact_mod_cast hpos
  constructor
  case covered =>
    intro value hvalue
    obtain ⟨fold, hfold, hheld⟩ := List.mem_flatMap.mp hvalue
    exact hcovers fold hfold value hheld
  case selected => exact h.selected.trans_eq hselected
  case coverage =>
    have hcoverage := h.coverage
    rwa [hselected, heligible] at hcoverage
  case positive =>
    have hrate := h.positive hpos
    rwa [hpositive, heligible] at hrate
  case average =>
    obtain ⟨average, haverage, hbound⟩ := h.average
    cases average with
    | none => exact absurd (Pooled.weightedAverage_none haverage) hpos.ne'
    | some value =>
        obtain ⟨-, herror⟩ := Pooled.weightedAverage_some haverage
        have hreturns : policy.minimumAverageNetReturnBps - 5 / 100000 ≤
            Pooled.returns rows / Pooled.eligible rows := by
          linarith [(abs_le.mp herror).2, hbound value rfl]
        rw [le_div_iff₀ hweight] at hreturns
        rw [ArbitratedWalkForwardReport.holdoutDates, ← heligible, le_div_iff₀ hweight]
        linarith [(abs_le.mp hclose).2]
  case folds => exact hfolds

/-- **A PASS is sound against the pooled holdout evidence.**  The folds split the
sessions, each target meets its thresholds on the holdout sessions up to the
rounding of the rates and averages, the capture gaps stay within the gate, and
the report names exactly the holdout sessions it was computed from. -/
theorem promotion_pass_sound {sessions : SessionEvidence D}
    {evaluationPolicy : BaselineEvaluationVersion} {gatePolicy : PromotionGateVersion}
    {arbitrationPolicy : CandidateArbitrationVersion} {report : PromotionGateReport D}
    (h : evaluatePromotionGate sessions evaluationPolicy gatePolicy arbitrationPolicy =
      .ok report) (hpass : report.status = .pass) :
    ∃ walk holdouts, evaluateArbitratedWalkForward sessions evaluationPolicy arbitrationPolicy =
        .ok walk ∧
      WalkForward sessions evaluationPolicy walk ∧
      (∀ target ∈ gatePolicy.targets, TargetEvidence sessions walk gatePolicy target.key) ∧
      List.Forall₂ (fun value session => sessions.get value = some session)
        walk.holdoutDates holdouts ∧
      (holdouts.map (·.captureGapCount)).sum ≤ gatePolicy.maximumCaptureGapCount ∧
      report.holdoutDates = walk.holdoutDates ∧
      report.captureGapCount = (holdouts.map (·.captureGapCount)).sum ∧
      report.shadowAuditSha256s = holdouts.map (·.shadowAuditSha256) ∧
      report.walkForwardSha256 = some walk.sha256 := by
  simp only [evaluatePromotionGate, bind_eq_ok, require_eq_ok] at h
  obtain ⟨-, -, -, -, h⟩ := h
  split at h
  · simp only [PromotionGateReport.modelValidate, bind_eq_ok, pure_eq_ok] at h
    obtain ⟨_, -, _, -, _, -, _, -, _, -, _, -, _, -, _, -, _, -, _, -, rfl⟩ := h
    cases hpass
  · simp only [PromotionGateReport.modelValidate, bind_eq_ok, pure_eq_ok] at h
    obtain ⟨walk, hwalk, holdouts, hholdouts, targets, htargets, _, -, _, -, _, -, _, -, _, -,
      _, -, _, -, _, -, _, -, rfl⟩ := h
    obtain ⟨hsplit, hascending, hpools⟩ := evaluateArbitratedWalkForward_ok hwalk
    have hsorted : sortOn id walk.holdoutDates = walk.holdoutDates :=
      (hascending.imp le_of_lt).insertionSort_eq
    rw [hsorted] at hholdouts
    have hgaps : ¬gatePolicy.maximumCaptureGapCount < (holdouts.map (·.captureGapCount)).sum := by
      intro hexceeded
      simp only [if_pos hexceeded] at hpass
      rw [if_pos (.inl (by simp))] at hpass
      cases hpass
    simp only [if_neg hgaps] at hpass
    have hnofail : ¬∃ item ∈ targets, item.status = .fail := by
      intro hfail
      rw [if_pos (.inr hfail)] at hpass
      cases hpass
    rw [if_neg (by simpa using hnofail)] at hpass
    have hnopending : ¬∃ item ∈ targets, item.status = .pending := by
      intro hpending
      rw [if_pos hpending] at hpass
      cases hpass
    have heach : ∀ target ∈ gatePolicy.targets,
        TargetEvidence sessions walk gatePolicy target.key := by
      intro target htarget
      obtain ⟨result, hresult, htargetResult⟩ :=
        exists_of_mem_forall₂ (mapM_eq_ok.mp htargets).flip htarget
      have hstatus : result.status = .pass := by
        cases hstatus : result.status with
        | pass => rfl
        | pending => exact absurd ⟨result, hresult, hstatus⟩ hnopending
        | fail => exact absurd ⟨result, hresult, hstatus⟩ hnofail
      obtain ⟨rows, hnonempty, hrows, hpassing⟩ := targetResult_pass htargetResult hstatus
      exact hpassing.evidence hnonempty hrows hpools
    have hget : List.Forall₂ (fun value session => sessions.get value = some session)
        walk.holdoutDates holdouts := by
      refine (mapM_eq_ok.mp hholdouts).imp ?_
      intro value session hvalue
      split at hvalue
      · next found hfound =>
          obtain rfl := Except.ok.inj hvalue
          exact hfound
      · cases hvalue
    exact ⟨walk, holdouts, hwalk, hsplit, heach, hget, not_lt.mp hgaps, hsorted, rfl, rfl, rfl⟩

/-! ## A rehearsed promotion

Six sessions under a small evaluation policy: two developed, one purged, three
holdouts of one session each. -/

namespace Rehearsal

def smallEvaluation : BaselineEvaluationVersion :=
  { Trading.promotionEvaluation with
    developmentSessions := 2
    holdoutSessions := 1
    purgeSessions := 1
    development_bound := le_refl 2
    holdout_bound := le_refl 1
    purge_bound := le_refl 1 }

private theorem pullback_named : isStrategyName "momentum_pullback" := by decide

private theorem pullback_symbol : isSymbolName "VIC" := by decide

private theorem pullback_horizon : 1 ≤ 300 ∧ 300 ≤ 86400 := by decide

private def pullback : PromotionTarget :=
  ⟨"momentum_pullback", "VIC", 300, pullback_named, pullback_symbol, pullback_horizon⟩

def smallGate : PromotionGateVersion :=
  { Trading.promotionGate with
    targets := [pullback]
    targets_nonempty := by decide
    targets_ordered := by decide }

/-- The daily result of 2026-10-12 and the days after it. -/
def dailyEvaluation (offset : Nat) : ArbitratedEvaluation :=
  ⟨.momentumPullback, "VIC", 300, 3, 3, 2, some (offset + 1 / 3)⟩

private theorem dailyEvaluation_valid (offset : Nat) :
    AllHold ((dailyEvaluation offset).checks "session") := by
  simp [ArbitratedEvaluation.checks, dailyEvaluation]
  decide

def dailyReport (offset : Nat) : ArbitratedSessionReportFields Spelled where
  tradeDate := 20738 + offset
  baselineVersion := baselineVersion
  arbitrationVersion := Trading.candidateArbitration.version
  arbitrationConfigurationSha256 := Trading.candidateArbitration.sha256
  featureConfigurationSha256 := .num 1
  contextConfigurationSha256 := .num 2
  outcomeConfigurationSha256 := .num 3
  costPolicySha256 := .num 4
  costAssumptionsSha256 := some (.num 5)
  captureEvidenceSha256 := .num (100 + offset)
  shadowAuditSha256 := .num (200 + offset)
  captureGapCount := 0
  evaluations := [⟨dailyEvaluation offset, dailyEvaluation_valid offset⟩]

private theorem dailyReport_valid (offset : Nat) : AllHold (dailyReport offset).checks := by
  simp [ArbitratedSessionReportFields.checks, dailyReport, ArbitratedSessionReportFields.keys]
  decide

def dailySessions : SessionEvidence Spelled where
  entries := [5, 3, 0, 1, 4, 2].map fun offset =>
    (20738 + (offset : Nat), ⟨dailyReport offset, dailyReport_valid offset⟩)
  dates_unique := by decide

end Rehearsal

/-- The rehearsed gate passes on three holdout sessions. -/
theorem promotion_pass_sound_rehearsal : ∃ report walk,
    evaluatePromotionGate Rehearsal.dailySessions Rehearsal.smallEvaluation Rehearsal.smallGate
      Trading.candidateArbitration = .ok report ∧ report.status = .pass ∧
    WalkForward Rehearsal.dailySessions Rehearsal.smallEvaluation walk ∧
    report.holdoutDates = walk.holdoutDates ∧ report.holdoutDates = [20741, 20742, 20743] := by
  have hdecided : (evaluatePromotionGate Rehearsal.dailySessions Rehearsal.smallEvaluation
      Rehearsal.smallGate Trading.candidateArbitration).toOption.any (fun report =>
        report.status = .pass ∧ report.holdoutDates = [20741, 20742, 20743]) = true := by
    decide +kernel
  cases hgate : evaluatePromotionGate Rehearsal.dailySessions Rehearsal.smallEvaluation
      Rehearsal.smallGate Trading.candidateArbitration with
  | error raised => simp [hgate, Except.toOption] at hdecided
  | ok report =>
      simp only [hgate, Except.toOption, Option.any_some, decide_eq_true_eq] at hdecided
      obtain ⟨hpass, hdates⟩ := hdecided
      obtain ⟨walk, -, -, hsplit, -, -, -, hheld, -⟩ := promotion_pass_sound hgate hpass
      exact ⟨report, walk, rfl, hpass, hsplit, hheld, hdates⟩

end MiniLakehouse
