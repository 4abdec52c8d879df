import MiniLakehouse.Execution.Lifecycle

/-!
# Laws of accepted order histories

`Reduction.Sound` says where an accepted history leaves the accumulators of
`reduce_paper_order`.  Here are the laws of the history itself: the running
average is the mean price of the fills, the clocks and quantities only grow,
and a terminal event is the last one.  `HistoryLaws` collects them for one
history, `HistoryLaws.after` carries them across a reducer step, and
`reducePaperOrder_laws` states them for the reducer.
-/

namespace MiniLakehouse

variable {D : Type}

/-- What the fills cost. -/
def notionalOf (fills : List (PaperFillEvidence D)) : Rat :=
  (fills.map fun fill => fill.fillPrice * (fill.filledQuantity : Rat)).sum

/-- How much was filled. -/
def quantityOf (fills : List (PaperFillEvidence D)) : Nat :=
  (fills.map (·.filledQuantity)).sum

@[simp] theorem notionalOf_append {fills later : List (PaperFillEvidence D)} :
    notionalOf (fills ++ later) = notionalOf fills + notionalOf later := by
  simp [notionalOf]

@[simp] theorem quantityOf_append {fills later : List (PaperFillEvidence D)} :
    quantityOf (fills ++ later) = quantityOf fills + quantityOf later := by
  simp [quantityOf]

/-- A fill has a quantity. -/
theorem PaperFillEvidence.quantity_pos (fill : PaperFillEvidence D) :
    1 ≤ fill.filledQuantity := by
  have h := fill.valid
  simp only [PaperFillEvidenceFields.checks, allHold_cons] at h
  simpa using h.2.2.2.1

theorem quantityOf_eq_zero {fills : List (PaperFillEvidence D)} :
    quantityOf fills = 0 ↔ fills = [] := by
  cases fills with
  | nil => simp [quantityOf]
  | cons fill fills =>
      have := fill.quantity_pos
      simp only [quantityOf, List.map_cons, List.sum_cons, reduceCtorEq, iff_false]
      omega

/-- A sequence that stays below its next value is sorted with it. -/
private theorem pairwise_snoc {α : Type} {R : α → α → Prop} {xs : List α} {x : α}
    (hxs : xs.Pairwise R) (hx : ∀ y ∈ xs, R y x) : (xs ++ [x]).Pairwise R := by
  rw [List.pairwise_append]
  refine ⟨hxs, List.pairwise_singleton R x, ?_⟩
  intro y hy z hz
  rw [List.mem_singleton.mp hz]
  exact hx y hy

variable [Hashing D]

/-- The laws of an accepted history that the accumulators only summarize. -/
structure HistoryLaws (intent : PaperOrderIntent D) (events : List (PaperOrderEvent D))
    (r : Reduction D) : Prop where
  average : r.average.getD 0 * r.filled = notionalOf (fillsOf events)
  fills_within_limit : ∀ fill ∈ fillsOf events, ¬ViolatesLimit intent fill.fillPrice
  times_before : ∀ event ∈ events, event.occurredAt ≤ r.lastAt
  times : (events.map (·.occurredAt)).Pairwise (· ≤ ·)
  quantities_before : ∀ event ∈ events, event.cumulativeFilledQuantity ≤ r.filled
  quantities : (events.map (·.cumulativeFilledQuantity)).Pairwise (· ≤ ·)
  positions_before : ∀ fill ∈ fillsOf events, ∃ last ∈ r.lastFillPosition,
    fill.position ≤ last
  positions : ((fillsOf events).map (·.position)).Pairwise (· < ·)
  identities : ((fillsOf events).map (·.identity)).Nodup
  fills_active : ∀ event ∈ events, ∀ fill ∈ event.fillEvidence,
    fill.observedAt ≤ event.occurredAt ∧ event.occurredAt ≤ intent.expiresAt
  expired_after : ∀ event ∈ events, event.eventType = .expired →
    intent.expiresAt ≤ event.occurredAt
  open_until_last : ∀ event ∈ events.dropLast, event.eventType.status.isTerminal = false
  status_last : ∀ event ∈ events.getLast?, r.status = event.eventType.status
  complete : r.filled = intent.quantity → r.status = .filled

namespace HistoryLaws

variable {intent : PaperOrderIntent D} {events : List (PaperOrderEvent D)} {r : Reduction D}
  {event : PaperOrderEvent D}

omit [Hashing D] in
theorem start (intent : PaperOrderIntent D) : HistoryLaws intent [] (.start intent) where
  average := by simp [Reduction.start, notionalOf]
  fills_within_limit := by simp
  times_before := by simp
  times := by simp
  quantities_before := by simp
  quantities := by simp
  positions_before := by simp
  positions := by simp
  identities := by simp
  fills_active := by simp
  expired_after := by simp
  open_until_last := by simp
  status_last := by simp
  complete := by
    intro hzero
    have hpos := intent.quantity_pos
    simp only [Reduction.start] at hzero
    omega

/-- The expected average of a fill, times the quantity then filled, is what was paid
before and what the fill costs. -/
theorem expected_notional (hr : r.Sound intent events) {fill : PaperFillEvidence D}
    {expected : Rat} (hexpected : r.expectedAverage event fill = .ok expected)
    (hquantity : event.cumulativeFilledQuantity = r.filled + fill.filledQuantity) :
    expected * event.cumulativeFilledQuantity =
      r.average.getD 0 * r.filled + fill.fillPrice * fill.filledQuantity := by
  unfold Reduction.expectedAverage at hexpected
  by_cases hzero : r.filled = 0
  · rw [if_pos hzero] at hexpected
    cases hexpected
    simp [hquantity, hzero]
  · rw [if_neg hzero] at hexpected
    cases haverage : r.average with
    | none => exact absurd (hr.average_present.mpr haverage) hzero
    | some average =>
        simp only [haverage, Except.ok.injEq] at hexpected
        have hincrement : event.cumulativeFilledQuantity - r.filled = fill.filledQuantity := by
          omega
        have hpos : (event.cumulativeFilledQuantity : Rat) ≠ 0 := by
          have : event.cumulativeFilledQuantity ≠ 0 := by omega
          exact_mod_cast this
        rw [← hexpected, hincrement, div_mul_cancel₀ _ hpos]
        simp

/-- The running average after one more event. -/
theorem average_after (hr : r.Sound intent events) (h : HistoryLaws intent events r)
    (ha : Accepts intent r event) :
    event.averageFillPrice.getD 0 * event.cumulativeFilledQuantity =
      notionalOf (fillsOf (events ++ [event])) := by
  rw [fillsOf_snoc, notionalOf_append, ← h.average]
  have hfilled := ha.filled
  cases hfill : event.fillEvidence with
  | none =>
      have hsame : event.cumulativeFilledQuantity = r.filled := by simpa [hfill] using hfilled
      rw [ha.average_kept hsame, hsame]
      simp [notionalOf]
  | some fill =>
      have hquantity : event.cumulativeFilledQuantity = r.filled + fill.filledQuantity := by
        simpa [hfill] using hfilled
      obtain ⟨expected, hexpected, haverage⟩ := (ha.fill fill hfill).average
      rw [haverage]
      simpa [notionalOf] using expected_notional hr hexpected hquantity

/-- Only an event that completes the quantity reaches it. -/
theorem complete_after (h : HistoryLaws intent events r)
    (ha : Accepts intent r event)
    (hcomplete : event.cumulativeFilledQuantity = intent.quantity) :
    event.eventType.status = .filled := by
  by_cases hfill : event.eventType.isFill
  · cases htype : event.eventType with
    | filled => rfl
    | partiallyFilled =>
        have := (ha.partial_between htype).2
        omega
    | accepted | rejected | cancelled | expired => simp [htype, PaperEventType.isFill] at hfill
  · -- An event without a fill keeps a quantity that would have closed the order before.
    have hkept := ha.unfilled (by simpa using hfill)
    have hclosed := h.complete (by omega)
    have hopen := ha.is_open
    rw [hclosed] at hopen
    simp [PaperOrderStatus.isTerminal] at hopen

/-- **One reducer step** keeps the laws. -/
theorem after (hr : r.Sound intent events) (h : HistoryLaws intent events r)
    (ha : Accepts intent r event) : HistoryLaws intent (events ++ [event]) (r.after event) where
  average := average_after hr h ha
  fills_within_limit := by
    intro fill hfill
    rw [fillsOf_snoc, List.mem_append, Option.mem_toList] at hfill
    rcases hfill with hfill | hfill
    · exact h.fills_within_limit fill hfill
    · exact (ha.fill fill hfill).within_limit
  times_before := by
    intro item hitem
    rcases List.mem_append.mp hitem with hitem | hitem
    · exact (h.times_before item hitem).trans ha.time_advances
    · rw [List.mem_singleton.mp hitem]
      exact le_refl event.occurredAt
  times := by
    rw [List.map_append, List.map_singleton]
    refine pairwise_snoc h.times ?_
    intro time htime
    obtain ⟨item, hitem, rfl⟩ := List.mem_map.mp htime
    exact (h.times_before item hitem).trans ha.time_advances
  quantities_before := by
    intro item hitem
    rcases List.mem_append.mp hitem with hitem | hitem
    · exact (h.quantities_before item hitem).trans ha.quantity_grows
    · rw [List.mem_singleton.mp hitem]
      exact le_refl event.cumulativeFilledQuantity
  quantities := by
    rw [List.map_append, List.map_singleton]
    refine pairwise_snoc h.quantities ?_
    intro quantity hquantity
    obtain ⟨item, hitem, rfl⟩ := List.mem_map.mp hquantity
    exact (h.quantities_before item hitem).trans ha.quantity_grows
  positions_before := by
    intro fill hfill
    rw [fillsOf_snoc, List.mem_append, Option.mem_toList] at hfill
    rcases hfill with hfill | hfill
    · obtain ⟨last, hlast, hle⟩ := h.positions_before fill hfill
      cases hnew : event.fillEvidence with
      | none => exact ⟨last, by simpa [Reduction.after, hnew] using hlast, hle⟩
      | some newer =>
          have hlt := (ha.fill newer hnew).position_advances last hlast
          exact ⟨newer.position, by simp [Reduction.after, hnew], hle.trans hlt.le⟩
    · exact ⟨fill.position, by simp [Reduction.after, Option.mem_def.mp hfill], le_refl _⟩
  positions := by
    rw [fillsOf_snoc, List.map_append]
    cases hnew : event.fillEvidence with
    | none => simpa using h.positions
    | some newer =>
        refine pairwise_snoc h.positions ?_
        intro position hposition
        obtain ⟨fill, hfill, rfl⟩ := List.mem_map.mp hposition
        obtain ⟨last, hlast, hle⟩ := h.positions_before fill hfill
        exact hle.trans_lt ((ha.fill newer hnew).position_advances last hlast)
  identities := by
    rw [fillsOf_snoc, List.map_append]
    cases hnew : event.fillEvidence with
    | none => simpa using h.identities
    | some newer =>
        have hfresh := (ha.fill newer hnew).identity_fresh
        rw [hr.fillPositions, List.mem_reverse] at hfresh
        exact h.identities.append (List.nodup_singleton _) (by simpa using hfresh)
  fills_active := by
    intro item hitem fill hfill
    rcases List.mem_append.mp hitem with hitem | hitem
    · exact h.fills_active item hitem fill hfill
    · obtain rfl := List.mem_singleton.mp hitem
      refine ⟨(ha.fill fill hfill).received_before, ha.active_before_expiry (.inr ?_)⟩
      rw [item.fill_iff, Option.mem_def.mp hfill, Option.isSome_some]
  expired_after := by
    intro item hitem
    rcases List.mem_append.mp hitem with hitem | hitem
    · exact h.expired_after item hitem
    · rw [List.mem_singleton.mp hitem]
      exact ha.expires_after
  open_until_last := by
    intro item hitem
    rw [List.dropLast_concat] at hitem
    rcases List.eq_nil_or_concat' events with rfl | ⟨before, last, rfl⟩
    · simp at hitem
    · rcases List.mem_append.mp hitem with hitem | hitem
      · exact h.open_until_last item (by simpa using hitem)
      · rw [List.mem_singleton.mp hitem, ← h.status_last last (by simp)]
        exact ha.is_open
  status_last := by
    intro last hlast
    obtain rfl : event = last := by simpa using hlast
    rfl
  complete := complete_after h ha

end HistoryLaws

/-- Every accepted history keeps the laws. -/
theorem historyLaws {intent : PaperOrderIntent D} {events : List (PaperOrderEvent D)}
    {r : Reduction D} (h : events.foldlM (reduceEvent intent) (.start intent) = .ok r) :
    HistoryLaws intent events r := by
  have hboth : r.Sound intent events ∧ HistoryLaws intent events r := by
    refine foldlM_prefix_invariant
      (I := fun done r => Reduction.Sound intent done r ∧ HistoryLaws intent done r)
      ⟨Reduction.sound_start intent, HistoryLaws.start intent⟩ ?_ h
    intro done event t t' ht hstep
    obtain ⟨haccepts, rfl⟩ := reduceEvent_eq_ok.mp hstep
    exact ⟨ht.1.after haccepts, ht.2.after ht.1 haccepts⟩
  exact hboth.2

/-- Every prefix of an accepted history is accepted. -/
theorem reducePaperOrder_prefix {intent : PaperOrderIntent D}
    {before later : List (PaperOrderEvent D)} {state : PaperOrderState D}
    (h : reducePaperOrder intent (before ++ later) = .ok state) :
    ∃ earlier, reducePaperOrder intent before = .ok earlier := by
  obtain ⟨r, hr, -⟩ := reducePaperOrder_eq_ok.mp h
  obtain ⟨t, ht, -⟩ := foldlM_append_ok hr
  exact ⟨⟨_, (reduction_sound ht).report_checks⟩, reducePaperOrder_eq_ok.mpr ⟨t, ht, rfl⟩⟩

/-- What `reduce_paper_order` promises of a history it accepts. -/
structure AcceptedHistory (intent : PaperOrderIntent D) (events : List (PaperOrderEvent D))
    (state : PaperOrderState D) : Prop where
  quantity : state.cumulativeFilledQuantity = quantityOf (fillsOf events)
  quantity_bounded : state.cumulativeFilledQuantity ≤ intent.quantity
  average : state.averageFillPrice =
    if fillsOf events = [] then none
    else some (notionalOf (fillsOf events) / quantityOf (fillsOf events))
  fills_within_limit : ∀ fill ∈ fillsOf events, ¬ViolatesLimit intent fill.fillPrice
  average_within_limit : ∀ price ∈ state.averageFillPrice, ¬ViolatesLimit intent price
  times : (events.map (·.occurredAt)).Pairwise (· ≤ ·)
  quantities : (events.map (·.cumulativeFilledQuantity)).Pairwise (· ≤ ·)
  terminal_last : ∀ before event later, events = before ++ event :: later →
    event.eventType.status.isTerminal = true → later = []
  positions_increase : ((fillsOf events).map (·.position)).Pairwise (· < ·)
  positions_distinct : ((fillsOf events).map (·.identity)).Nodup
  fills_before_expiry : ∀ event ∈ events, ∀ fill ∈ event.fillEvidence,
    fill.observedAt ≤ event.occurredAt ∧ event.occurredAt ≤ intent.expiresAt
  expired_at_deadline : ∀ event ∈ events, event.eventType = .expired →
    intent.expiresAt ≤ event.occurredAt
  prefixes : ∀ before later, events = before ++ later →
    ∃ earlier, reducePaperOrder intent before = .ok earlier
  filled_iff : state.status = .filled ↔ state.cumulativeFilledQuantity = intent.quantity

/-- The reported average is the mean price of the fills. -/
theorem HistoryLaws.mean {intent : PaperOrderIntent D} {events : List (PaperOrderEvent D)}
    {r : Reduction D} (hr : r.Sound intent events) (h : HistoryLaws intent events r) :
    r.average = if fillsOf events = [] then none
      else some (notionalOf (fillsOf events) / quantityOf (fillsOf events)) := by
  have hquantity : r.filled = quantityOf (fillsOf events) := hr.quantity
  by_cases hfills : fillsOf events = []
  · rw [if_pos hfills]
    exact hr.average_present.mp (by rw [hquantity, quantityOf_eq_zero.mpr hfills])
  · have hne : quantityOf (fillsOf events) ≠ 0 := fun h => hfills (quantityOf_eq_zero.mp h)
    rw [if_neg hfills]
    cases haverage : r.average with
    | none => exact absurd (hr.average_present.mpr haverage) (hquantity ▸ hne)
    | some average =>
        have hmean := h.average
        rw [haverage, hquantity, Option.getD_some] at hmean
        rw [← hmean, mul_div_cancel_right₀ _ (by exact_mod_cast hne)]

/-- **Laws of `reduce_paper_order`.**  They hold of every history the reducer
accepts, and so of each of its prefixes. -/
theorem reducePaperOrder_laws {intent : PaperOrderIntent D}
    {events : List (PaperOrderEvent D)} {state : PaperOrderState D}
    (h : reducePaperOrder intent events = .ok state) : AcceptedHistory intent events state := by
  obtain ⟨r, hr, hstate⟩ := reducePaperOrder_eq_ok.mp h
  have hsound := reduction_sound hr
  have hlaws := historyLaws hr
  have hquantity : state.cumulativeFilledQuantity = r.filled := by
    rw [hstate, Reduction.report]
  have haverage : state.averageFillPrice = r.average := by rw [hstate, Reduction.report]
  have hstatus : state.status = r.status := by rw [hstate, Reduction.report]
  exact {
    quantity := hquantity.trans hsound.quantity
    quantity_bounded := reducePaperOrder_bounded h
    average := haverage.trans (hlaws.mean hsound)
    fills_within_limit := hlaws.fills_within_limit
    average_within_limit := haverage ▸ hsound.within_limit
    times := hlaws.times
    quantities := hlaws.quantities
    terminal_last := by
      intro before event later hevents hterminal
      by_contra hlater
      have hmem : event ∈ events.dropLast := by
        rw [hevents, List.dropLast_append_of_ne_nil (by simp), List.dropLast_cons_of_ne_nil hlater]
        simp
      rw [hlaws.open_until_last event hmem] at hterminal
      exact Bool.false_ne_true hterminal
    positions_increase := hlaws.positions
    positions_distinct := hlaws.identities
    fills_before_expiry := hlaws.fills_active
    expired_at_deadline := hlaws.expired_after
    prefixes := by
      intro before later hevents
      rw [hevents] at h
      exact reducePaperOrder_prefix h
    filled_iff := by
      rw [hstatus, hquantity]
      exact ⟨hsound.complete, hlaws.complete⟩ }

/-! A partial fill, and then the rest at a better price. -/

namespace TwoFills

private def sourced (n : Nat) : Spelled := .num n

def intent : PaperOrderIntent Spelled where
  executionVersion := "paper-execution-v1"
  executionConfigurationSha256 := sourced 0
  requestSha256 := sourced 1
  promotionReportSha256 := sourced 2
  arbitrationSha256 := sourced 3
  candidateSha256 := sourced 4
  strategy := "momentum_pullback"
  symbol := "VIC"
  tradeDate := 20649
  decisionAt := 0
  horizonSeconds := 60
  leg := .entry
  action := .buy
  quantity := 100
  limitPrice := 100
  priority := 1
  createdAt := 0
  expiresAt := 1000
  reservedCashVnd := 10010
  reservedExitQuantity := 100
  marketSnapshotSha256 := sourced 5
  selectionSourceSha256 := sourced 6
  resourceLedgerSha256 := sourced 7
  parentIntentSha256 := none
  valid := by decide +kernel

private def fill (observedAt : Instant) (sequence quantity available : Nat) (price : Rat) :
    PaperFillEvidenceFields Spelled :=
  ⟨"VIC", .buy, observedAt, "session-1", sequence, quantity, available, price,
    sourced sequence⟩

def accepted : PaperOrderEvent Spelled where
  intentSha256 := intent.sha256
  sequence := 1
  eventType := .accepted
  occurredAt := 10
  cumulativeFilledQuantity := 0
  averageFillPrice := none
  reason := none
  adapterEventId := .other "accepted-1"
  adapterEvidenceSha256 := sourced 10
  fillEvidence := none
  valid := by decide +kernel

def partialFill : PaperOrderEvent Spelled where
  intentSha256 := intent.sha256
  sequence := 2
  eventType := .partiallyFilled
  occurredAt := 20
  cumulativeFilledQuantity := 40
  averageFillPrice := some 100
  reason := none
  adapterEventId := .other "fill-1"
  adapterEvidenceSha256 := sourced 11
  fillEvidence := some ⟨fill 15 11 40 100 100, by decide +kernel⟩
  valid := by decide +kernel

def filled : PaperOrderEvent Spelled where
  intentSha256 := intent.sha256
  sequence := 3
  eventType := .filled
  occurredAt := 30
  cumulativeFilledQuantity := 100
  averageFillPrice := some (497 / 5)
  reason := none
  adapterEventId := .other "fill-2"
  adapterEvidenceSha256 := sourced 12
  fillEvidence := some ⟨fill 25 12 60 60 99, by decide +kernel⟩
  valid := by decide +kernel

end TwoFills

/-- The laws at an order filled in two parts: the average is what both cost. -/
theorem reducePaperOrder_laws_twoFills : ∃ state : PaperOrderState Spelled,
    reducePaperOrder TwoFills.intent
        [TwoFills.accepted, TwoFills.partialFill, TwoFills.filled] = .ok state ∧
      state.status = .filled ∧ state.averageFillPrice = some (497 / 5) ∧
      AcceptedHistory TwoFills.intent
        [TwoFills.accepted, TwoFills.partialFill, TwoFills.filled] state := by
  have hreduced : (reducePaperOrder TwoFills.intent
      [TwoFills.accepted, TwoFills.partialFill, TwoFills.filled]).toOption.any
        (fun state => state.status = .filled ∧ state.averageFillPrice = some (497 / 5)) := by
    decide +kernel
  cases hrun : reducePaperOrder TwoFills.intent
      [TwoFills.accepted, TwoFills.partialFill, TwoFills.filled] with
  | error raised => simp [hrun, Except.toOption] at hreduced
  | ok state =>
      simp only [hrun, Except.toOption, Option.any_some, decide_eq_true_eq] at hreduced
      exact ⟨state, rfl, hreduced.1, hreduced.2, reducePaperOrder_laws hrun⟩

end MiniLakehouse
