import MiniLakehouse.Configuration.Trading
import MiniLakehouse.Features.Windows

/-!
# Decision clocks

`decision_times` steps through the UTC window of each decision session by the cadence.
`snapshots` accepts an instant that is a whole second, aligned to the cadence, later than
the decision before it and on an effective date.  The validators align session times to
the bar interval, never to the cadence, and they ask nothing of the zone's offset
changes.  `ClocksAlign` is what they would have to ask.
-/

namespace MiniLakehouse

/-! ## The clocks of one window -/

/-- The instants that `clockTimes` walks over. -/
def cadenceSteps (start cadence : Int) (count : Nat) : List Int :=
  (List.range count).map fun n => start + ((n + 1 : Nat) : Int) * cadence

theorem clockTimes_eq (start stop cadence : Int) :
    clockTimes start stop cadence =
      (cadenceSteps start cadence ((stop - start) / cadence).toNat).takeWhile (· < stop) := by
  unfold clockTimes cadenceSteps
  congr 1
  induction List.range ((stop - start) / cadence).toNat with
  | nil => rfl
  | cons n rest ih => simpa using ih

theorem cadenceSteps_ascending (start : Int) {cadence : Int} (hcadence : 0 < cadence)
    (count : Nat) : (cadenceSteps start cadence count).Pairwise (· < ·) := by
  unfold cadenceSteps
  rw [List.pairwise_map]
  apply List.pairwise_lt_range.imp
  intro n m hlt
  have hstep : ((n + 1 : Nat) : Int) * cadence < ((m + 1 : Nat) : Int) * cadence :=
    mul_lt_mul_of_pos_right (by omega) hcadence
  omega

theorem clockTimes_ascending (start stop : Int) {cadence : Int} (hcadence : 0 < cadence) :
    (clockTimes start stop cadence).Pairwise (· < ·) := by
  rw [clockTimes_eq]
  exact (cadenceSteps_ascending start hcadence _).sublist (List.takeWhile_sublist _)

/-- A clock is a number of cadences after the start, and before the stop. -/
theorem mem_clockTimes {start stop cadence clock : Int} (hcadence : 0 < cadence) :
    clock ∈ clockTimes start stop cadence ↔
      ∃ n : Nat, start + ((n + 1 : Nat) : Int) * cadence = clock ∧ clock < stop := by
  have hordered := (cadenceSteps_ascending start hcadence
    ((stop - start) / cadence).toNat).imp fun h => le_of_lt h
  have hbound : (fun clock : Int => decide (clock < stop)) =
      fun clock => decide (clock ≤ stop - 1) := by
    funext clock
    exact decide_eq_decide.mpr (by omega)
  rw [clockTimes_eq, hbound, takeWhile_eq_filter hordered, List.mem_filter, cadenceSteps,
    List.mem_map]
  simp only [List.mem_range, decide_eq_true_eq]
  constructor
  · rintro ⟨⟨n, -, rfl⟩, hbefore⟩
    exact ⟨n, rfl, by omega⟩
  · rintro ⟨n, rfl, hbefore⟩
    refine ⟨⟨n, ?_, rfl⟩, by omega⟩
    have hle : ((n + 1 : Nat) : Int) ≤ (stop - start) / cadence :=
      (Int.le_ediv_iff_mul_le hcadence).mpr (by omega)
    omega

/-! ## Local time -/

namespace MarketConfiguration

variable (market : MarketConfiguration)

/-- A time of day inside a session's window; the closing second counts whole. -/
def InWindow (name : DecisionSessionName) (value : TimeOfDay) : Prop :=
  (market.windowOf name).1 ≤ value ∧
    if name = .closingAuction then value - value % seconds 1 ≤ (market.windowOf name).2
    else value < (market.windowOf name).2

instance (name : DecisionSessionName) (value : TimeOfDay) :
    Decidable (market.InWindow name value) := by
  unfold InWindow; infer_instance

variable {market}

/-- The order in which the validated windows follow each other. -/
theorem windows_follow (market : MarketConfiguration) :
    0 ≤ market.sessions.openingAuction.1 ∧
      market.sessions.openingAuction.1 < market.sessions.openingAuction.2 ∧
      market.sessions.openingAuction.2 = market.sessions.continuousAm.1 ∧
      market.sessions.continuousAm.1 < market.sessions.continuousAm.2 ∧
      market.sessions.continuousAm.2 < market.sessions.continuousPm.1 ∧
      market.sessions.continuousPm.1 < market.sessions.continuousPm.2 ∧
      market.sessions.continuousPm.2 = market.sessions.closingAuction.1 ∧
      market.sessions.closingAuction.1 < market.sessions.closingAuction.2 ∧
      market.sessions.closingAuction.2 < dayLength := by
  have hpositive := market.sessions.windows_positive
  have hday := market.sessions.times_in_day
  exact ⟨(hday _ (by simp)).1, hpositive _ (by simp), market.sessions.opening_meets_am,
    hpositive _ (by simp), market.sessions.am_before_pm, hpositive _ (by simp),
    market.sessions.pm_meets_closing, hpositive _ (by simp), (hday _ (by simp)).2⟩

/-- A time of day inside a window is a time of day. -/
theorem InWindow.bounds {name : DecisionSessionName} {value : TimeOfDay}
    (h : market.InWindow name value) : 0 ≤ value ∧ value < dayLength := by
  have hfollow := market.windows_follow
  unfold InWindow at h
  simp only [dayLength, seconds, TimeOfDay] at *
  cases name <;> simp [windowOf] at h <;> omega

/-- **An instant is of a decision session exactly where its local date is the trading
date and its local time is inside the session's window.** -/
theorem sessionAt_eq_iff {timestamp : Instant} {tradeDate : Day} {name : DecisionSessionName} :
    market.sessionAt timestamp tradeDate = name.session ↔
      market.timezone.date timestamp = tradeDate ∧
        market.InWindow name (market.timezone.time timestamp) := by
  have hfollow := market.windows_follow
  unfold sessionAt InWindow
  generalize market.timezone.time timestamp = value
  simp only [seconds, TimeOfDay] at *
  by_cases hdate : market.timezone.date timestamp = tradeDate
  · by_cases hsecond : value - value % (1 * 1000000) ≤ market.sessions.closingAuction.2 <;>
      cases name <;>
      simp only [hdate, hsecond, windowOf, DecisionSessionName.session, ne_eq, not_true,
        true_and, and_true, and_false, reduceCtorEq, ↓reduceIte] <;>
      split_ifs <;> first | omega | (simp only [true_iff, false_iff] <;> omega)
  · cases name <;> simp [hdate, DecisionSessionName.session]

end MarketConfiguration

/-! ## The clocks of a date -/

namespace TradingVersion

variable (configuration : TradingVersion) (tradeDate : Day)

/-- The cadence in microseconds. -/
def cadence : Int := seconds configuration.features.cadenceSeconds

/-- The instant from which a session's clocks are counted. -/
def clockStart (name : DecisionSessionName) : Instant :=
  configuration.market.instant tradeDate (configuration.market.windowOf name).1

/-- The instant before which a session's clocks end. -/
def clockStop (name : DecisionSessionName) : Instant :=
  configuration.market.instant tradeDate (configuration.market.windowOf name).2

/-- The clocks that `decision_times` yields for a session. -/
def sessionClocks (name : DecisionSessionName) : List Instant :=
  clockTimes (configuration.clockStart tradeDate name) (configuration.clockStop tradeDate name)
    configuration.cadence

/-- How far the zone's offset at a clock is from the one that the session starts with. -/
def offsetShift (name : DecisionSessionName) (clock : Instant) : Int :=
  configuration.market.timezone.utcoffset clock -
    (tradeDate * dayLength + (configuration.market.windowOf name).1 -
      configuration.clockStart tradeDate name)

/-- The last instant by the cadence before a session's stop. -/
def lastClock (name : DecisionSessionName) : Instant :=
  configuration.clockStart tradeDate name +
    (configuration.clockStop tradeDate name - 1 - configuration.clockStart tradeDate name) /
      configuration.cadence * configuration.cadence

/-- A session is long enough for a clock. -/
def HasClock (name : DecisionSessionName) : Prop :=
  configuration.clockStart tradeDate name + configuration.cadence <
    configuration.clockStop tradeDate name

/-- What makes the clocks of a date usable: sessions with clocks start on the cadence, no
offset change inside a session carries its clocks out of the window, and none makes
sessions overlap. -/
structure ClocksAlign : Prop where
  starts : ∀ name ∈ configuration.features.decisionSessions,
    configuration.HasClock tradeDate name →
      configuration.clockStart tradeDate name % seconds 1 = 0 ∧
        configuration.clockStart tradeDate name / seconds 1 %
          configuration.features.cadenceSeconds = 0
  inside : ∀ name ∈ configuration.features.decisionSessions, ∀ count : Nat,
    let elapsed := ((count + 1 : Nat) : Int) * configuration.cadence
    let clock := configuration.clockStart tradeDate name + elapsed
    clock < configuration.clockStop tradeDate name →
      configuration.market.InWindow name ((configuration.market.windowOf name).1 + elapsed +
        configuration.offsetShift tradeDate name clock)
  follow : configuration.features.decisionSessions.Pairwise fun left right =>
    configuration.HasClock tradeDate left → configuration.HasClock tradeDate right →
      configuration.lastClock tradeDate left <
        configuration.clockStart tradeDate right + configuration.cadence

/-- `snapshots` has nothing against a decision instant as a clock: its alignment, its
order after the engine's last decision and its date. -/
structure ClockAccepted (last : Option Instant) (decisionAt : Instant) : Prop where
  whole : decisionAt % seconds 1 = 0
  aligned : decisionAt / seconds 1 % configuration.features.cadenceSeconds = 0
  later : ∀ previous ∈ last, previous < decisionAt
  effective : configuration.contains (configuration.market.timezone.date decisionAt)

/-- The clocks of a date are usable: they ascend, each is of the session that it is
generated for, each is a whole second on the cadence, and at each that a replay reaches,
whatever it has applied by then, `snapshots` accepts the clock. -/
structure ClocksUsable (D : Type) [Hashing D] [Sdk] : Prop where
  ascending : ∃ times, decisionTimes configuration tradeDate = .ok times ∧
    times.Pairwise (· < ·)
  session : ∀ name ∈ configuration.features.decisionSessions,
    ∀ clock ∈ configuration.sessionClocks tradeDate name,
      configuration.market.sessionAt clock tradeDate = name.session
  aligned : ∀ name ∈ configuration.features.decisionSessions,
    ∀ clock ∈ configuration.sessionClocks tradeDate name, clock % seconds 1 = 0 ∧
      clock / seconds 1 % configuration.features.cadenceSeconds = 0
  replayed : ∀ (envelopes : List (StreamEnvelope D)) (gaps : List StreamGap)
    (before after : List Instant) (clock : Instant)
    (reached : FeatureEngine × List (StreamEnvelope D) × List (FeatureSnapshot D))
    (engine : FeatureEngine) (pending : List (StreamEnvelope D)),
    decisionTimes configuration tradeDate = .ok (before ++ clock :: after) →
    before.foldlM (replayDecision configuration gaps)
      (.initial configuration, envelopes, []) = .ok reached →
    reached.1.applyUntil configuration clock reached.2.1 = .ok (engine, pending) →
    configuration.ClockAccepted engine.lastDecisionAt clock

variable {configuration tradeDate}

theorem cadence_pos (configuration : TradingVersion) : 0 < configuration.cadence := by
  have hbounds := configuration.features.cadence_bounds.1
  simp only [cadence, seconds]
  omega

theorem mem_sessionClocks {name : DecisionSessionName} {clock : Instant} :
    clock ∈ configuration.sessionClocks tradeDate name ↔ ∃ count : Nat,
      configuration.clockStart tradeDate name + ((count + 1 : Nat) : Int) * configuration.cadence =
        clock ∧ clock < configuration.clockStop tradeDate name :=
  mem_clockTimes configuration.cadence_pos

theorem decisionTimes_eq (htradeDate : configuration.contains tradeDate) :
    decisionTimes configuration tradeDate = .ok
      (configuration.features.decisionSessions.flatMap (configuration.sessionClocks tradeDate)) := by
  unfold decisionTimes
  rw [require_of htradeDate, ok_bind]
  simp only [bind_eq_ok, mapM_eq_ok, pure_eq_ok]
  refine ⟨_, List.forall₂_map_right_iff.mpr (List.forall₂_same.mpr ?_), List.flatMap_def.symm⟩
  intro name _
  simp [MarketConfiguration.sessionWindow, sessionClocks, clockStart, clockStop, cadence]

/-- Adding cadences to a start keeps its place on the cadence. -/
theorem aligned_add (start : Int) (cadenceSeconds : Nat) (n : Int) :
    ((start + n * seconds cadenceSeconds) % seconds 1 = 0 ∧
        (start + n * seconds cadenceSeconds) / seconds 1 % cadenceSeconds = 0) ↔
      start % seconds 1 = 0 ∧ start / seconds 1 % cadenceSeconds = 0 := by
  have hsum : start + n * seconds cadenceSeconds =
      start + n * cadenceSeconds * seconds 1 := by
    simp only [seconds]
    ring
  have hsecond : seconds 1 ≠ 0 := by decide
  rw [hsum, Int.add_mul_emod_self_right, Int.add_mul_ediv_right _ _ hsecond,
    Int.add_mul_emod_self_right]

/-- A session has a clock where the first instant by the cadence is before its stop. -/
theorem hasClock_of_mem {name : DecisionSessionName} {clock : Instant}
    (h : clock ∈ configuration.sessionClocks tradeDate name) :
    configuration.HasClock tradeDate name := by
  obtain ⟨count, rfl, hbefore⟩ := mem_sessionClocks.mp h
  have hpos := configuration.cadence_pos
  have hle : configuration.cadence ≤ ((count + 1 : Nat) : Int) * configuration.cadence :=
    le_mul_of_one_le_left hpos.le (by omega)
  unfold HasClock
  linarith

theorem firstClock_mem {name : DecisionSessionName} (h : configuration.HasClock tradeDate name) :
    configuration.clockStart tradeDate name + configuration.cadence ∈
      configuration.sessionClocks tradeDate name :=
  mem_sessionClocks.mpr ⟨0, by simp, h⟩

/-- The local time of a clock is its session's start, what has elapsed since, and how far
the zone's offset has moved. -/
theorem wall_clock (name : DecisionSessionName) (elapsed : Int) :
    configuration.market.timezone.wall (configuration.clockStart tradeDate name + elapsed) =
      tradeDate * dayLength + ((configuration.market.windowOf name).1 + elapsed +
        configuration.offsetShift tradeDate name
          (configuration.clockStart tradeDate name + elapsed)) := by
  unfold ZoneInfo.wall offsetShift
  ring

/-- **A clock is of its session exactly where the offset leaves it in the window.** -/
theorem session_clock_iff {name : DecisionSessionName} {elapsed : Int} :
    configuration.market.sessionAt (configuration.clockStart tradeDate name + elapsed) tradeDate =
        name.session ↔
      configuration.market.InWindow name ((configuration.market.windowOf name).1 + elapsed +
        configuration.offsetShift tradeDate name
          (configuration.clockStart tradeDate name + elapsed)) := by
  rw [MarketConfiguration.sessionAt_eq_iff, ZoneInfo.date, ZoneInfo.time, wall_clock]
  generalize (configuration.market.windowOf name).1 + elapsed + configuration.offsetShift tradeDate
    name (configuration.clockStart tradeDate name + elapsed) = value
  have hday : 0 < dayLength := by decide
  constructor
  · rintro ⟨hdate, hwindow⟩
    have hvalue : (tradeDate * dayLength + value) % dayLength = value := by
      have hsplit := Int.mul_ediv_add_emod (tradeDate * dayLength + value) dayLength
      rw [hdate] at hsplit
      linarith
    rwa [hvalue] at hwindow
  · intro hwindow
    obtain ⟨hlow, hhigh⟩ := hwindow.bounds
    have hvalue : (tradeDate * dayLength + value) % dayLength = value := by
      rw [Int.add_comm, Int.add_mul_emod_self_right]
      exact Int.emod_eq_of_lt hlow hhigh
    refine ⟨?_, by rwa [hvalue]⟩
    rw [Int.add_comm, Int.add_mul_ediv_right _ _ hday.ne', Int.ediv_eq_zero_of_lt hlow hhigh]
    exact zero_add _

/-! ## Order -/

/-- The last clock is one of the session's. -/
theorem lastClock_mem {name : DecisionSessionName} (h : configuration.HasClock tradeDate name) :
    configuration.lastClock tradeDate name ∈ configuration.sessionClocks tradeDate name := by
  have hpos := configuration.cadence_pos
  unfold HasClock at h
  have hone : 1 ≤ (configuration.clockStop tradeDate name - 1 -
      configuration.clockStart tradeDate name) / configuration.cadence :=
    (Int.le_ediv_iff_mul_le hpos).mpr (by linarith)
  have hcount := Int.ediv_mul_le (configuration.clockStop tradeDate name - 1 -
    configuration.clockStart tradeDate name) hpos.ne'
  rw [mem_sessionClocks]
  unfold lastClock
  generalize (configuration.clockStop tradeDate name - 1 -
    configuration.clockStart tradeDate name) / configuration.cadence = count at hone hcount ⊢
  have hcast : (((count - 1).toNat + 1 : Nat) : Int) = count := by
    rw [Nat.cast_succ, Int.toNat_of_nonneg (sub_nonneg.mpr hone)]
    exact sub_add_cancel count 1
  refine ⟨(count - 1).toNat, by rw [hcast], ?_⟩
  linarith

theorem le_lastClock {name : DecisionSessionName} {clock : Instant}
    (h : clock ∈ configuration.sessionClocks tradeDate name) :
    clock ≤ configuration.lastClock tradeDate name := by
  obtain ⟨count, rfl, hbefore⟩ := mem_sessionClocks.mp h
  have hpos := configuration.cadence_pos
  have hle : ((count + 1 : Nat) : Int) ≤ (configuration.clockStop tradeDate name - 1 -
      configuration.clockStart tradeDate name) / configuration.cadence := by
    rw [Int.le_ediv_iff_mul_le hpos]
    have hstrict := Int.add_one_le_iff.mpr hbefore
    linarith
  have hmul := mul_le_mul_of_nonneg_right hle hpos.le
  unfold lastClock
  linarith

theorem firstClock_le {name : DecisionSessionName} {clock : Instant}
    (h : clock ∈ configuration.sessionClocks tradeDate name) :
    configuration.clockStart tradeDate name + configuration.cadence ≤ clock := by
  obtain ⟨count, rfl, -⟩ := mem_sessionClocks.mp h
  have hpos := configuration.cadence_pos
  have hle : configuration.cadence ≤ ((count + 1 : Nat) : Int) * configuration.cadence :=
    le_mul_of_one_le_left hpos.le (by omega)
  linarith

/-- The clocks of one session precede those of another where its last precedes the other's
first. -/
theorem clocks_precede_iff {left right : DecisionSessionName} :
    (∀ x ∈ configuration.sessionClocks tradeDate left,
        ∀ y ∈ configuration.sessionClocks tradeDate right, x < y) ↔
      (configuration.HasClock tradeDate left → configuration.HasClock tradeDate right →
        configuration.lastClock tradeDate left <
          configuration.clockStart tradeDate right + configuration.cadence) := by
  constructor
  · intro h hleft hright
    exact h _ (lastClock_mem hleft) _ (firstClock_mem hright)
  · intro h x hx y hy
    calc
      x ≤ configuration.lastClock tradeDate left := le_lastClock hx
      _ < configuration.clockStart tradeDate right + configuration.cadence :=
        h (hasClock_of_mem hx) (hasClock_of_mem hy)
      _ ≤ y := firstClock_le hy

theorem ascending_iff : (configuration.features.decisionSessions.flatMap
      (configuration.sessionClocks tradeDate)).Pairwise (· < ·) ↔
    configuration.features.decisionSessions.Pairwise fun left right =>
      configuration.HasClock tradeDate left → configuration.HasClock tradeDate right →
        configuration.lastClock tradeDate left <
          configuration.clockStart tradeDate right + configuration.cadence := by
  rw [List.pairwise_flatMap]
  have hsession : ∀ name ∈ configuration.features.decisionSessions,
      (configuration.sessionClocks tradeDate name).Pairwise (· < ·) :=
    fun name _ => clockTimes_ascending _ _ configuration.cadence_pos
  simp only [clocks_precede_iff]
  exact and_iff_right hsession

end TradingVersion

/-! ## Replays -/

/-- A session that an instant is of has the instant's local date. -/
theorem effective_of_session {configuration : TradingVersion} {tradeDate : Day}
    {clock : Instant} {name : DecisionSessionName} (htradeDate : configuration.contains tradeDate)
    (h : configuration.market.sessionAt clock tradeDate = name.session) :
    configuration.contains (configuration.market.timezone.date clock) := by
  rw [(MarketConfiguration.sessionAt_eq_iff.mp h).1]
  exact htradeDate

section

variable {D : Type} [Hashing D] [Sdk] {configuration : TradingVersion}

omit [Hashing D] [Sdk] in
theorem FeatureEngine.receive_lastDecisionAt (engine : FeatureEngine)
    (envelope : StreamEnvelope D) :
    (engine.receive envelope).lastDecisionAt = engine.lastDecisionAt := by
  unfold FeatureEngine.receive
  split <;> rfl

/-- Envelopes leave the last decision as it is. -/
theorem FeatureEngine.apply_lastDecisionAt (engine : FeatureEngine) (envelope : StreamEnvelope D) :
    (engine.apply configuration envelope).2.lastDecisionAt = engine.lastDecisionAt := by
  unfold FeatureEngine.apply
  split
  · rfl
  · dsimp only
    split
    · rfl
    · next update _ =>
        rw [FeatureEngine.receive_lastDecisionAt]
        cases update.event <;> rfl

theorem FeatureEngine.applyUntil_lastDecisionAt {decisionAt : Instant}
    {engine engine' : FeatureEngine} {envelopes pending : List (StreamEnvelope D)}
    (h : engine.applyUntil configuration decisionAt envelopes = .ok (engine', pending)) :
    engine'.lastDecisionAt = engine.lastDecisionAt := by
  induction envelopes generalizing engine with
  | nil =>
      simp only [applyUntil, Except.ok.injEq, Prod.mk.injEq] at h
      rw [← h.1]
  | cons envelope rest ih =>
      unfold applyUntil at h
      split at h
      · have hkept : (engine.apply configuration envelope).2.lastDecisionAt =
            engine.lastDecisionAt := engine.apply_lastDecisionAt envelope
        split at h
        · cases h
        · next applied happly =>
            rw [happly] at hkept
            exact (ih h).trans hkept
      · simp only [Except.ok.injEq, Prod.mk.injEq] at h
        rw [← h.1]

/-- The last decision of a replay is the last clock that it has reached. -/
theorem replay_lastDecisionAt {envelopes : List (StreamEnvelope D)} {gaps : List StreamGap}
    {before : List Instant}
    {reached : FeatureEngine × List (StreamEnvelope D) × List (FeatureSnapshot D)}
    (hreached : before.foldlM (replayDecision configuration gaps)
      (.initial configuration, envelopes, []) = .ok reached) :
    reached.1.lastDecisionAt = before.getLast? := by
  refine foldlM_prefix_invariant
    (I := fun done loop => loop.1.lastDecisionAt = done.getLast?) rfl ?_ hreached
  intro done decisionAt loop loop' _ hstep
  simp only [replayDecision, bind_eq_ok, pure_eq_ok] at hstep
  obtain ⟨⟨engine, pending⟩, -, ⟨current, engine'⟩, hsnapshots, rfl⟩ := hstep
  obtain ⟨-, -, -, hengine⟩ := FeatureEngine.snapshots_eq_ok hsnapshots
  rw [List.getLast?_concat]
  dsimp only
  rw [hengine]

/-- **The clocks of an effective date are usable exactly where its sessions start on the
cadence and no offset change carries a clock out of its window or a session into the
next.** -/
theorem clocks_usable_iff_align (configuration : TradingVersion) {tradeDate : Day}
    (htradeDate : configuration.contains tradeDate) :
    configuration.ClocksUsable tradeDate D ↔ configuration.ClocksAlign tradeDate := by
  have htimes := TradingVersion.decisionTimes_eq htradeDate
  constructor
  · rintro ⟨⟨times, hdecisions, hascending⟩, hsession, haligned, -⟩
    obtain rfl := Except.ok.inj (htimes.symm.trans hdecisions)
    constructor
    · intro name hname hclock
      have hfirst := haligned name hname _ (TradingVersion.firstClock_mem hclock)
      have hone := TradingVersion.aligned_add (configuration.clockStart tradeDate name)
        configuration.features.cadenceSeconds 1
      rw [one_mul] at hone
      exact hone.mp hfirst
    · intro name hname count elapsed clock hbefore
      apply TradingVersion.session_clock_iff.mp
      exact hsession name hname _ (TradingVersion.mem_sessionClocks.mpr ⟨count, rfl, hbefore⟩)
    · exact TradingVersion.ascending_iff.mp hascending
  · intro halign
    have hascending := TradingVersion.ascending_iff.mpr halign.follow
    have hsession : ∀ name ∈ configuration.features.decisionSessions,
        ∀ clock ∈ configuration.sessionClocks tradeDate name,
          configuration.market.sessionAt clock tradeDate = name.session := by
      intro name hname clock hclock
      obtain ⟨count, rfl, hbefore⟩ := TradingVersion.mem_sessionClocks.mp hclock
      exact TradingVersion.session_clock_iff.mpr (halign.inside name hname count hbefore)
    have haligned : ∀ name ∈ configuration.features.decisionSessions,
        ∀ clock ∈ configuration.sessionClocks tradeDate name, clock % seconds 1 = 0 ∧
          clock / seconds 1 % configuration.features.cadenceSeconds = 0 := by
      intro name hname clock hclock
      have hstart := halign.starts name hname (TradingVersion.hasClock_of_mem hclock)
      obtain ⟨count, rfl, -⟩ := TradingVersion.mem_sessionClocks.mp hclock
      exact (TradingVersion.aligned_add _ _ _).mpr hstart
    refine ⟨⟨_, htimes, hascending⟩, hsession, haligned, ?_⟩
    intro envelopes gaps before after clock reached engine pending hdecisions hreached happlied
    have hall := Except.ok.inj (htimes.symm.trans hdecisions)
    have hmem : clock ∈ configuration.features.decisionSessions.flatMap
        (configuration.sessionClocks tradeDate) := by
      rw [hall]
      simp
    obtain ⟨name, hname, hclock⟩ := List.mem_flatMap.mp hmem
    obtain ⟨hwhole, hcadence⟩ := haligned name hname clock hclock
    refine ⟨hwhole, hcadence, ?_, effective_of_session htradeDate (hsession name hname clock hclock)⟩
    intro previous hprevious
    rw [FeatureEngine.applyUntil_lastDecisionAt happlied, replay_lastDecisionAt hreached] at hprevious
    rw [hall, List.pairwise_append] at hascending
    exact hascending.2.2 previous (List.mem_of_getLast? hprevious) clock (List.mem_cons_self ..)

end

/-! ## A zone with one offset -/

namespace TradingVersion

variable {configuration : TradingVersion} {tradeDate : Day}

/-- A zone that never changes reads every local time with its one offset. -/
theorem instant_of_fixed (h : configuration.market.timezone.transitions = [])
    (localTime : TimeOfDay) : configuration.market.instant tradeDate localTime =
      tradeDate * dayLength + localTime - configuration.market.timezone.initial := by
  unfold MarketConfiguration.instant ZoneInfo.combine
  rw [h]
  rfl

theorem offsetShift_of_fixed (h : configuration.market.timezone.transitions = [])
    (name : DecisionSessionName) (clock : Instant) :
    configuration.offsetShift tradeDate name clock = 0 := by
  have hoffset : configuration.market.timezone.utcoffset clock =
      configuration.market.timezone.initial := by
    unfold ZoneInfo.utcoffset
    rw [h]
    rfl
  unfold offsetShift clockStart
  rw [instant_of_fixed h, hoffset]
  ring

/-- The windows of the sessions follow the order of the sessions. -/
theorem windowOf_follow (market : MarketConfiguration) {left right : DecisionSessionName}
    (h : left.index < right.index) : (market.windowOf left).2 ≤ (market.windowOf right).1 := by
  have hfollow := market.windows_follow
  simp only [TimeOfDay] at hfollow ⊢
  cases left <;> cases right <;> simp [DecisionSessionName.index] at h <;>
    simp only [MarketConfiguration.windowOf] <;> omega

/-- **Where the zone has one offset, usable clocks are a matter of the cadence alone.** -/
theorem clocksAlign_of_fixed (h : configuration.market.timezone.transitions = [])
    (hstarts : ∀ name ∈ configuration.features.decisionSessions,
      configuration.HasClock tradeDate name →
        configuration.clockStart tradeDate name % seconds 1 = 0 ∧
          configuration.clockStart tradeDate name / seconds 1 %
            configuration.features.cadenceSeconds = 0) : configuration.ClocksAlign tradeDate where
  starts := hstarts
  inside := by
    intro name _ count elapsed clock hbefore
    have hpos := configuration.cadence_pos
    have helapsed : 0 ≤ elapsed := mul_nonneg (by omega) hpos.le
    have hvalue : (configuration.market.windowOf name).1 + elapsed <
        (configuration.market.windowOf name).2 := by
      simp only [clock, clockStart, clockStop, instant_of_fixed h] at hbefore
      linarith
    rw [offsetShift_of_fixed h, add_zero]
    refine ⟨by linarith, ?_⟩
    split
    · have hsecond := Int.emod_nonneg ((configuration.market.windowOf name).1 + elapsed)
        (show seconds 1 ≠ 0 by decide)
      linarith
    · exact hvalue
  follow := by
    apply configuration.features.decisionSessions_ordered.imp
    intro left right hindex hleft hright
    have hwindows := windowOf_follow configuration.market hindex
    have hlast := lastClock_mem hleft
    obtain ⟨_, -, hbefore⟩ := mem_sessionClocks.mp hlast
    have hpos := configuration.cadence_pos
    have hstops : configuration.clockStop tradeDate left ≤
        configuration.clockStart tradeDate right := by
      simp only [clockStart, clockStop, instant_of_fixed h]
      linarith
    linarith

end TradingVersion

namespace Trading

/-- Sessions on whole seconds, the morning from 09:15:01 on. -/
def offbeatSessions : SessionScheduleConfiguration where
  openingAuction := (seconds 32400, seconds 33301)
  continuousAm := (seconds 33301, seconds 41400)
  continuousPm := sessions.continuousPm
  closingAuction := sessions.closingAuction
  times_in_day := by decide
  windows_positive := by decide
  opening_meets_am := by decide
  am_before_pm := by decide
  pm_meets_closing := by decide

theorem offbeat_second : 1 ≤ 1 := le_refl 1

theorem offbeat_minute : 60 % 1 = 0 ∨ 1 % 60 = 0 := by decide

theorem offbeat_aligned : ∀ window ∈ offbeatSessions.windows,
    window.1 / seconds 1 % 1 = 0 ∧ window.2 / seconds 1 % 1 = 0 := by decide

/-- Bars of one second, to which every whole second aligns. -/
def offbeatMarket : MarketConfiguration :=
  { market with
    barIntervalSeconds := 1
    sessions := offbeatSessions
    barInterval_pos := offbeat_second
    barInterval_minute := offbeat_minute
    boundaries_aligned := offbeat_aligned }

/-- The declared version with one-second bars and a morning that starts off the cadence. -/
def offbeat : TradingVersion := { marketState with market := offbeatMarket }

end Trading

/-- **A validated version without usable clocks**: its morning starts at 09:15:01, and its
cadence is five seconds. -/
theorem clocks_off_the_cadence :
    letI := Rehearsal.sdk [] []
    Trading.offbeat.contains 20700 ∧ ¬Trading.offbeat.ClocksUsable 20700 Spelled := by
  refine ⟨by decide, ?_⟩
  let _sdk : Sdk := Rehearsal.sdk [] []
  intro husable
  have hclock : Trading.offbeat.HasClock 20700 .continuousAm := by
    unfold TradingVersion.HasClock
    decide
  have haligned := husable.aligned .continuousAm (by decide) _ (TradingVersion.firstClock_mem hclock)
  revert haligned
  decide

/-- The declared version has usable clocks. -/
theorem clocks_usable_declared :
    letI := Rehearsal.sdk [] []
    Trading.marketState.ClocksUsable 20700 Spelled := by
  refine (@clocks_usable_iff_align Spelled _ (Rehearsal.sdk [] []) Trading.marketState 20700
    (by decide)).mpr ?_
  apply TradingVersion.clocksAlign_of_fixed rfl
  unfold TradingVersion.HasClock
  decide

end MiniLakehouse
