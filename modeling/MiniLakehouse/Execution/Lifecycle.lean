import MiniLakehouse.Execution.Engine

/-!
# Order lifecycles

What `reduce_paper_order` accepts: `Accepts` is one step of the reducer with
its guards named, `reduceEvent_eq_ok` its inversion, and `Reduction.Sound` the
invariant of every accepted history.
-/

namespace MiniLakehouse

variable {D : Type}

/-! ## Validated records -/

namespace PaperOrderIntent

theorem quantity_pos (intent : PaperOrderIntent D) : 1 ≤ intent.quantity := by
  have h := intent.valid
  simp only [PaperOrderIntentFields.checks, allHold_cons] at h
  simpa using h.2.2.2.2.1

theorem created_before_expiry (intent : PaperOrderIntent D) :
    intent.createdAt < intent.expiresAt := by
  have h := intent.valid
  simp only [PaperOrderIntentFields.checks, allHold_cons] at h
  have htimes := h.2.2.2.2.2.2.2.2.1
  simp only [Bool.and_eq_true, decide_eq_true_eq] at htimes
  exact htimes.2

theorem reservedExit_eq (intent : PaperOrderIntent D) :
    intent.reservedExitQuantity = intent.quantity := by
  have h := intent.valid
  simp only [PaperOrderIntentFields.checks, allHold_cons] at h
  simpa using h.2.2.2.2.2.2.2.2.2.1

theorem entry_iff (intent : PaperOrderIntent D) (hleg : intent.leg = .entry) :
    intent.action = .buy ∧ intent.parentIntentSha256 = none ∧
      0 < intent.reservedCashVnd := by
  have h := intent.valid
  simp only [PaperOrderIntentFields.checks, allHold_cons] at h
  have hentry := h.2.2.2.2.2.2.2.2.2.2.1
  simpa [hleg, and_assoc] using hentry

theorem exit_iff (intent : PaperOrderIntent D) (hleg : intent.leg = .exit) :
    intent.action = .sell ∧ intent.parentIntentSha256.isSome ∧
      intent.reservedCashVnd = 0 := by
  have h := intent.valid
  simp only [PaperOrderIntentFields.checks, allHold_cons] at h
  have hexit := h.2.2.2.2.2.2.2.2.2.2.2.1
  simpa [hleg, and_assoc] using hexit

end PaperOrderIntent

namespace PaperOrderEvent

theorem average_pos (event : PaperOrderEvent D) :
    ∀ average ∈ event.averageFillPrice, 0 < average := by
  have h := event.valid
  simp only [PaperOrderEventFields.checks, allHold_cons] at h
  intro average hmem
  have hall := h.2.1
  rw [Option.mem_def.mp hmem] at hall
  simpa using hall

theorem average_present (event : PaperOrderEvent D) :
    event.cumulativeFilledQuantity = 0 ↔ event.averageFillPrice = none := by
  have h := event.valid
  simp only [PaperOrderEventFields.checks, allHold_cons] at h
  have heq := h.2.2.2.1
  cases haverage : event.averageFillPrice <;> simp_all

theorem fill_iff (event : PaperOrderEvent D) :
    event.eventType.isFill = event.fillEvidence.isSome := by
  have h := event.valid
  simp only [PaperOrderEventFields.checks, allHold_cons] at h
  simpa using h.2.2.2.2.2.2.1

end PaperOrderEvent

theorem PaperOrderState.average_pos (state : PaperOrderState D) :
    ∀ average ∈ state.averageFillPrice, 0 < average := by
  have h := state.valid
  simp only [PaperOrderStateFields.checks, allHold_cons] at h
  intro average hmem
  have hall := h.1
  rw [Option.mem_def.mp hmem] at hall
  simpa using hall

/-- The fills of a history. -/
def fillsOf (events : List (PaperOrderEvent D)) : List (PaperFillEvidence D) :=
  events.filterMap (·.fillEvidence)

@[simp] theorem fillsOf_nil : fillsOf ([] : List (PaperOrderEvent D)) = [] := rfl

@[simp] theorem fillsOf_snoc {events : List (PaperOrderEvent D)} {event : PaperOrderEvent D} :
    fillsOf (events ++ [event]) = fillsOf events ++ event.fillEvidence.toList := by
  cases h : event.fillEvidence <;> simp [fillsOf, h]

/-! ## One step -/

variable [Hashing D]

/-- The guards on a fill: it explains exactly the event's increment. -/
structure AcceptsFill (intent : PaperOrderIntent D) (r : Reduction D)
    (event : PaperOrderEvent D) (evidence : PaperFillEvidence D) : Prop where
  average : ∃ expected, r.expectedAverage event evidence = .ok expected ∧
    event.averageFillPrice = some expected
  symbol : evidence.symbol = intent.symbol
  action : evidence.action = intent.action
  quantity : evidence.filledQuantity = event.cumulativeFilledQuantity - r.filled
  received_after : intent.createdAt ≤ evidence.observedAt
  received_before : evidence.observedAt ≤ event.occurredAt
  identity_fresh : evidence.identity ∉ r.fillPositions
  position_advances : ∀ last ∈ r.lastFillPosition, last < evidence.position
  within_limit : ¬ViolatesLimit intent evidence.fillPrice

/-- The guards of one reducer step. -/
structure Accepts (intent : PaperOrderIntent D) (r : Reduction D)
    (event : PaperOrderEvent D) : Prop where
  addressed : event.intentSha256 = intent.sha256
  hash_fresh : event.sha256 ∉ r.hashes
  adapter_fresh : event.adapterEventId ∉ r.adapterIds
  sequence_advances : r.lastSequence < event.sequence
  time_advances : r.lastAt ≤ event.occurredAt
  is_open : r.status.isTerminal = false
  type_allowed : event.eventType ∈ allowed r.status
  quantity_grows : r.filled ≤ event.cumulativeFilledQuantity
  quantity_bounded : event.cumulativeFilledQuantity ≤ intent.quantity
  accepted_empty : event.eventType = .accepted → event.cumulativeFilledQuantity = 0
  rejected_empty : event.eventType = .rejected → event.cumulativeFilledQuantity = 0
  partial_between : event.eventType = .partiallyFilled →
    r.filled < event.cumulativeFilledQuantity ∧
      event.cumulativeFilledQuantity < intent.quantity
  filled_complete : event.eventType = .filled →
    event.cumulativeFilledQuantity = intent.quantity
  average_kept : event.cumulativeFilledQuantity = r.filled →
    event.averageFillPrice = r.average
  increment_evidenced :
    0 < event.cumulativeFilledQuantity - r.filled ↔ event.fillEvidence.isSome
  fill : ∀ evidence ∈ event.fillEvidence, AcceptsFill intent r event evidence
  average_within_limit : ∀ price ∈ event.averageFillPrice, ¬ViolatesLimit intent price
  active_before_expiry : event.eventType = .accepted ∨ event.eventType.isFill →
    event.occurredAt ≤ intent.expiresAt
  expires_after : event.eventType = .expired → intent.expiresAt ≤ event.occurredAt

theorem reduceFill_eq_ok {intent : PaperOrderIntent D} {r : Reduction D}
    {event : PaperOrderEvent D} {u : Unit} :
    reduceFill intent r event = .ok u ↔
      ∀ evidence ∈ event.fillEvidence, AcceptsFill intent r event evidence := by
  cases hfill : event.fillEvidence with
  | none => simp [reduceFill, hfill]
  | some evidence =>
      simp only [reduceFill, hfill, bind_eq_ok, require_eq_ok, Option.mem_def,
        Option.some.injEq, forall_eq']
      constructor
      · rintro ⟨expected, hexpected, -, ⟨h1, h2, h3, h4, h5, h6, h7, h8⟩, h9⟩
        exact ⟨⟨expected, hexpected, h6⟩, h1, h2, h3, h4, h5, h7, h8, h9⟩
      · intro h
        obtain ⟨expected, hexpected, haverage⟩ := h.average
        exact ⟨expected, hexpected, (), ⟨h.symbol, h.action, h.quantity, h.received_after,
          h.received_before, haverage, h.identity_fresh, h.position_advances⟩,
          h.within_limit⟩

/-- **One reducer step.**  It succeeds exactly under its guards, and then moves
the accumulators to `Reduction.after`. -/
theorem reduceEvent_eq_ok {intent : PaperOrderIntent D} {r r' : Reduction D}
    {event : PaperOrderEvent D} :
    reduceEvent intent r event = .ok r' ↔ Accepts intent r event ∧ r.after event = r' := by
  simp only [reduceEvent, bind_eq_ok, require_eq_ok, reduceFill_eq_ok, pure_eq_ok,
    exists_const]
  constructor
  · rintro ⟨⟨h1, h2, h3, h4, h5, h6, h7, h8, h9⟩, h10, h11, h12, h13, h14, h15, h16,
      h17, h18, h19, h20⟩
    exact ⟨⟨h1, h2, h3, h4, h5, by simpa using h6, h7, h8, h9, h10, h11, h12, h13, h14,
      h15, h16, h17, h18, h19⟩, h20⟩
  · rintro ⟨h, rfl⟩
    exact ⟨⟨h.addressed, h.hash_fresh, h.adapter_fresh, h.sequence_advances,
      h.time_advances, by simp [h.is_open], h.type_allowed, h.quantity_grows,
      h.quantity_bounded⟩, h.accepted_empty, h.rejected_empty, h.partial_between,
      h.filled_complete, h.average_kept, h.increment_evidenced, h.fill,
      h.average_within_limit, h.active_before_expiry, h.expires_after, rfl⟩

/-! ## Accepted histories -/

/-- What every accepted history leaves in the accumulators. -/
structure Reduction.Sound (intent : PaperOrderIntent D) (events : List (PaperOrderEvent D))
    (r : Reduction D) : Prop where
  created_iff : r.status = .created ↔ events = []
  unfilled : r.status = .created ∨ r.status = .accepted → r.filled = 0
  bounded : r.filled ≤ intent.quantity
  unfinished : r.status = .partiallyFilled → r.filled < intent.quantity
  complete : r.status = .filled → r.filled = intent.quantity
  average_present : r.filled = 0 ↔ r.average = none
  average_pos : ∀ average ∈ r.average, 0 < average
  within_limit : ∀ average ∈ r.average, ¬ViolatesLimit intent average
  time : r.lastAt = (events.getLast?.map (·.occurredAt)).getD intent.createdAt
  created_before : intent.createdAt ≤ r.lastAt
  sequence : r.lastSequence = (events.getLast?.map (·.sequence)).getD 0
  hashes : r.hashes = (events.map (·.sha256)).reverse
  adapterIds : r.adapterIds = (events.map (·.adapterEventId)).reverse
  fillPositions : r.fillPositions = ((fillsOf events).map (·.identity)).reverse
  lastFillPosition : r.lastFillPosition = (fillsOf events).getLast?.map (·.position)
  quantity : r.filled = ((fillsOf events).map (·.filledQuantity)).sum

theorem Reduction.sound_start (intent : PaperOrderIntent D) :
    (Reduction.start intent).Sound intent [] where
  created_iff := by simp [start]
  unfilled := by simp [start]
  bounded := by simp [start]
  unfinished := by simp [start]
  complete := by simp [start]
  average_present := by simp [start]
  average_pos := by simp [start]
  within_limit := by simp [start]
  time := by simp [start]
  created_before := by simp [start]
  sequence := by simp [start]
  hashes := by simp [start]
  adapterIds := by simp [start]
  fillPositions := by simp [start]
  lastFillPosition := by simp [start]
  quantity := by simp [start]

/-- An accepted event grows the filled quantity by exactly its fill. -/
theorem Accepts.filled {intent : PaperOrderIntent D} {r : Reduction D}
    {event : PaperOrderEvent D} (h : Accepts intent r event) :
    event.cumulativeFilledQuantity =
      r.filled + (event.fillEvidence.toList.map (·.filledQuantity)).sum := by
  have hgrows := h.quantity_grows
  cases hfill : event.fillEvidence with
  | none =>
      have hnot : ¬0 < event.cumulativeFilledQuantity - r.filled := by
        simp [h.increment_evidenced, hfill]
      simp only [Option.toList_none, List.map_nil, List.sum_nil]
      omega
  | some evidence =>
      have hquantity := (h.fill evidence hfill).quantity
      simp only [Option.toList_some, List.map_cons, List.map_nil, List.sum_cons, List.sum_nil]
      omega

/-- Only a fill event changes the filled quantity. -/
theorem Accepts.unfilled {intent : PaperOrderIntent D} {r : Reduction D}
    {event : PaperOrderEvent D} (h : Accepts intent r event)
    (htype : event.eventType.isFill = false) :
    event.cumulativeFilledQuantity = r.filled := by
  have hfill : event.fillEvidence = none := by
    have hiff := event.fill_iff
    rw [htype] at hiff
    simpa using hiff.symm
  simpa [hfill] using h.filled

theorem Reduction.Sound.after {intent : PaperOrderIntent D}
    {events : List (PaperOrderEvent D)} {r : Reduction D} {event : PaperOrderEvent D}
    (hr : r.Sound intent events) (h : Accepts intent r event) :
    (r.after event).Sound intent (events ++ [event]) where
  created_iff := by cases htype : event.eventType <;> simp [Reduction.after, htype,
    PaperEventType.status]
  unfilled := by
    intro hstatus
    have htype : event.eventType = .accepted := by
      cases htype : event.eventType <;>
        simp [Reduction.after, htype, PaperEventType.status] at hstatus ⊢
    exact h.accepted_empty htype
  bounded := h.quantity_bounded
  unfinished := by
    intro hstatus
    have htype : event.eventType = .partiallyFilled := by
      cases htype : event.eventType <;>
        simp [Reduction.after, htype, PaperEventType.status] at hstatus ⊢
    exact (h.partial_between htype).2
  complete := by
    intro hstatus
    have htype : event.eventType = .filled := by
      cases htype : event.eventType <;>
        simp [Reduction.after, htype, PaperEventType.status] at hstatus ⊢
    exact h.filled_complete htype
  average_present := event.average_present
  average_pos := event.average_pos
  within_limit := h.average_within_limit
  time := by simp [Reduction.after]
  created_before := hr.created_before.trans h.time_advances
  sequence := by simp [Reduction.after]
  hashes := by simp [Reduction.after, hr.hashes]
  adapterIds := by simp [Reduction.after, hr.adapterIds]
  fillPositions := by
    cases hfill : event.fillEvidence <;> simp [Reduction.after, hfill, hr.fillPositions]
  lastFillPosition := by
    cases hfill : event.fillEvidence <;> simp [Reduction.after, hfill, hr.lastFillPosition]
  quantity := by
    rw [fillsOf_snoc, List.map_append, List.sum_append, ← hr.quantity]
    exact h.filled

/-- Every accepted history is sound. -/
theorem reduction_sound {intent : PaperOrderIntent D} {events : List (PaperOrderEvent D)}
    {r : Reduction D} (h : events.foldlM (reduceEvent intent) (.start intent) = .ok r) :
    r.Sound intent events := by
  refine foldlM_prefix_invariant (I := fun done r => Reduction.Sound intent done r)
    (Reduction.sound_start intent) ?_ h
  intro done event t t' ht hstep
  obtain ⟨haccepts, rfl⟩ := reduceEvent_eq_ok.mp hstep
  exact ht.after haccepts

/-- The state a reduction reports. -/
def Reduction.report (intent : PaperOrderIntent D) (events : List (PaperOrderEvent D))
    (r : Reduction D) : PaperOrderStateFields D where
  intentSha256 := intent.sha256
  status := r.status
  cumulativeFilledQuantity := r.filled
  averageFillPrice := r.average
  eventCount := events.length
  lastEventSha256 := events.getLast?.map (·.sha256)

theorem Reduction.Sound.report_checks {intent : PaperOrderIntent D}
    {events : List (PaperOrderEvent D)} {r : Reduction D} (h : r.Sound intent events) :
    AllHold (r.report intent events).checks := by
  have hpos : r.average.all (0 < ·) = true := by
    cases haverage : r.average with
    | none => rfl
    | some average => simpa using h.average_pos average haverage
  have hzero : (r.filled == 0) = r.average.isNone := by
    rw [Bool.eq_iff_iff, beq_iff_eq, Option.isNone_iff_eq_none]
    exact h.average_present
  simp only [PaperOrderStateFields.checks, Reduction.report, allHold_cons, allHold_nil,
    and_true]
  refine ⟨hpos, by simp [hzero], ?_, ?_⟩
  · by_cases hevents : events = []
    · simp [hevents, h.created_iff.mpr hevents]
    · simp [hevents]
  · by_cases hevents : events = []
    · simp [hevents]
    · have hstatus : r.status ≠ .created := fun hc => hevents (h.created_iff.mp hc)
      simp [hevents, hstatus]

/-- **The reducer succeeds exactly on accepted histories**, and reports its
accumulators. -/
theorem reducePaperOrder_eq_ok {intent : PaperOrderIntent D}
    {events : List (PaperOrderEvent D)} {state : PaperOrderState D} :
    reducePaperOrder intent events = .ok state ↔
      ∃ r, events.foldlM (reduceEvent intent) (.start intent) = .ok r ∧
        state.toPaperOrderStateFields = r.report intent events := by
  simp only [reducePaperOrder, bind_eq_ok, PaperOrderState.modelValidate, validated_eq_ok]
  constructor
  · rintro ⟨r, hr, _, rfl⟩
    exact ⟨r, hr, rfl⟩
  · rintro ⟨r, hr, hstate⟩
    refine ⟨r, hr, (reduction_sound hr).report_checks, ?_⟩
    cases state
    cases hstate
    rfl

theorem reducePaperOrder_nil (intent : PaperOrderIntent D) :
    ∃ state, reducePaperOrder intent [] = .ok state ∧
      state.toPaperOrderStateFields = (Reduction.start intent).report intent [] := by
  have hrun : [].foldlM (reduceEvent intent) (.start intent) = .ok (.start intent) := rfl
  refine ⟨⟨_, (reduction_sound hrun).report_checks⟩, ?_, rfl⟩
  exact reducePaperOrder_eq_ok.mpr ⟨_, hrun, rfl⟩

/-- One more event: the history before it is accepted, and so is the event. -/
theorem reducePaperOrder_snoc {intent : PaperOrderIntent D}
    {events : List (PaperOrderEvent D)} {event : PaperOrderEvent D}
    {state : PaperOrderState D} :
    reducePaperOrder intent (events ++ [event]) = .ok state ↔
      ∃ r, events.foldlM (reduceEvent intent) (.start intent) = .ok r ∧
        Accepts intent r event ∧
        state.toPaperOrderStateFields = (r.after event).report intent (events ++ [event]) := by
  rw [reducePaperOrder_eq_ok, foldlM_snoc]
  simp only [bind_eq_ok, reduceEvent_eq_ok]
  constructor
  · rintro ⟨_, ⟨r, hr, haccepts, rfl⟩, hstate⟩
    exact ⟨r, hr, haccepts, hstate⟩
  · rintro ⟨r, hr, haccepts, hstate⟩
    exact ⟨_, ⟨r, hr, haccepts, rfl⟩, hstate⟩

/-- Before an accepted event the order is still open. -/
theorem reducePaperOrder_before {intent : PaperOrderIntent D}
    {events : List (PaperOrderEvent D)} {event : PaperOrderEvent D}
    {state : PaperOrderState D}
    (h : reducePaperOrder intent (events ++ [event]) = .ok state) :
    ∃ before, reducePaperOrder intent events = .ok before ∧
      before.status.isTerminal = false := by
  obtain ⟨r, hr, haccepts, -⟩ := reducePaperOrder_snoc.mp h
  refine ⟨⟨_, (reduction_sound hr).report_checks⟩, ?_, haccepts.is_open⟩
  exact reducePaperOrder_eq_ok.mpr ⟨r, hr, rfl⟩

/-- A reduced state never fills more than its order. -/
theorem reducePaperOrder_bounded {intent : PaperOrderIntent D}
    {events : List (PaperOrderEvent D)} {state : PaperOrderState D}
    (h : reducePaperOrder intent events = .ok state) :
    state.cumulativeFilledQuantity ≤ intent.quantity := by
  obtain ⟨r, hr, hstate⟩ := reducePaperOrder_eq_ok.mp h
  rw [hstate]
  exact (reduction_sound hr).bounded

end MiniLakehouse
