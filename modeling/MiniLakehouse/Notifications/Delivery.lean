import MiniLakehouse.Execution.Commands
import MiniLakehouse.Library.Journal
import MiniLakehouse.Notifications.Dispatch

/-!
# At most one delivery

A transaction can do three things to the rows: let some of them age, lease one to
a claim, or release the one that a claim holds.  `Sound` is what every interleaving
keeps: the claim of a process is the last one of its row, nobody else holds it, and
a row that can be claimed again was released by a rate limit.
-/

namespace MiniLakehouse

variable {P D T : Type}

theorem RowStatus.pending_of {status : RowStatus T} (h : status.isPending = true) :
    status = .resting .pending := by
  cases status with
  | sending => cases h
  | resting status => cases status <;> first | rfl | cases h

theorem RowStatus.sending_of_leaseLost {status : RowStatus T} {now : Instant}
    (h : status.leaseLost now = true) : status.isSending = true := by
  cases status with
  | sending => rfl
  | resting => cases h

namespace DeliveryStore

variable {store : DeliveryStore D T}

/-- Rows with the same selection are the same row. -/
theorem row_unique (store : DeliveryStore D T) {row row' : Delivery D T} (h : row ∈ store.rows)
    (h' : row' ∈ store.rows) (hid : row.selectionId = row'.selectionId) : row = row' :=
  eq_of_key_eq (fun row : Delivery D T => row.selectionId) store.ids_unique h h' hid

theorem mem_update {change : Delivery D T → DeliveryState T} {row' : Delivery D T} :
    row' ∈ (store.update change).rows ↔ ∃ row ∈ store.rows, row.withState (change row) = row' :=
  List.mem_map

/-- What time can do to a row: a pending one expires, and the outcome of a lease that
is lost is unknown. -/
def Ages (before after : DeliveryState T) : Prop :=
  after.attempts = before.attempts ∧ (after.status = before.status ∨
    before.status = .resting .pending ∧ after.status = .resting .expired ∨
    before.status.isSending = true ∧ after.status = .resting .unknown)

theorem Ages.trans {first second third : DeliveryState T} (h : Ages first second)
    (h' : Ages second third) : Ages first third := by
  refine ⟨h'.1.trans h.1, ?_⟩
  rcases h.2 with hsame | ⟨hpending, hexpired⟩ | ⟨hsending, hunknown⟩
  · rw [← hsame]
    exact h'.2
  · rcases h'.2 with hsame | ⟨hpending', -⟩ | ⟨hsending', -⟩
    · exact .inr (.inl ⟨hpending, hsame.trans hexpired⟩)
    · rw [hexpired] at hpending'
      cases hpending'
    · rw [hexpired] at hsending'
      cases hsending'
  · rcases h'.2 with hsame | ⟨hpending', -⟩ | ⟨hsending', -⟩
    · exact .inr (.inr ⟨hsending, hsame.trans hunknown⟩)
    · rw [hunknown] at hpending'
      cases hpending'
    · rw [hunknown] at hsending'
      cases hsending'

/-- A change that lets rows age, adds rows that nobody has claimed, and does not take
the watermark back. -/
structure Quiet (store store' : DeliveryStore D T) : Prop where
  kept : ∀ row ∈ store.rows, ∃ row' ∈ store'.rows, row'.toDeliveryKey = row.toDeliveryKey ∧
    Ages row.toDeliveryState row'.toDeliveryState
  origin : ∀ row' ∈ store'.rows,
    (∃ row ∈ store.rows, row'.toDeliveryKey = row.toDeliveryKey ∧
      Ages row.toDeliveryState row'.toDeliveryState) ∨
    row'.attempts = 0 ∧ row'.status.isSending = false ∧
      ∀ row ∈ store.rows, row.selectionId ≠ row'.selectionId
  watermark : ∀ through ∈ store.control.invalidatedThrough,
    ∃ through' ∈ store'.control.invalidatedThrough, through ≤ through'

theorem Quiet.refl (store : DeliveryStore D T) : Quiet store store where
  kept := fun row hrow => ⟨row, hrow, rfl, rfl, .inl rfl⟩
  origin := fun row hrow => .inl ⟨row, hrow, rfl, rfl, .inl rfl⟩
  watermark := fun through h => ⟨through, h, le_rfl⟩

/-- An update that ages the rows it concerns. -/
theorem Quiet.update {change : Delivery D T → DeliveryState T}
    (h : ∀ row ∈ store.rows, Ages row.toDeliveryState (change row)) :
    Quiet store (store.update change) where
  kept := fun row hrow => ⟨row.withState (change row), mem_update.mpr ⟨row, hrow, rfl⟩, rfl,
    h row hrow⟩
  origin := by
    intro row' hrow'
    obtain ⟨row, hrow, rfl⟩ := mem_update.mp hrow'
    exact .inl ⟨row, hrow, rfl, h row hrow⟩
  watermark := fun through h => ⟨through, h, le_rfl⟩

/-- Two quiet changes, of which the second only updates. -/
theorem Quiet.trans_update {store' : DeliveryStore D T} (h : Quiet store store')
    {change : Delivery D T → DeliveryState T}
    (hchange : ∀ row ∈ store'.rows, Ages row.toDeliveryState (change row)) :
    Quiet store (store'.update change) where
  kept := by
    intro row hrow
    obtain ⟨row', hrow', hkey, hages⟩ := h.kept row hrow
    exact ⟨row'.withState (change row'), mem_update.mpr ⟨row', hrow', rfl⟩, hkey,
      hages.trans (hchange row' hrow')⟩
  origin := by
    intro row'' hrow''
    obtain ⟨row', hrow', rfl⟩ := mem_update.mp hrow''
    obtain ⟨row, hrow, hkey, hages⟩ | ⟨hattempts, hsending, hnew⟩ := h.origin row' hrow'
    · exact .inl ⟨row, hrow, hkey, hages.trans (hchange row' hrow')⟩
    · have hages := hchange row' hrow'
      refine .inr ⟨hages.1.trans hattempts, ?_, hnew⟩
      change (change row').status.isSending = false
      rcases hages.2 with hsame | ⟨-, hexpired⟩ | ⟨-, hunknown⟩
      · rw [hsame]
        exact hsending
      · rw [hexpired]
        rfl
      · rw [hunknown]
        rfl
  watermark := h.watermark

/-- The two updates of a claim before it looks for a row are quiet. -/
theorem quiet_settle [Hashing D] (store : DeliveryStore D T) (lostAt expiredAt : Instant) :
    Quiet store ((store.loseLeases lostAt).expire expiredAt) := by
  apply Quiet.trans_update
  · apply Quiet.update
    intro row _
    split
    · next hlost => exact ⟨rfl, .inr (.inr ⟨RowStatus.sending_of_leaseLost hlost, rfl⟩)⟩
    · exact ⟨rfl, .inl rfl⟩
  · intro row _
    split
    · next hexpired =>
        simp only [Bool.and_eq_true] at hexpired
        exact ⟨rfl, .inr (.inl ⟨RowStatus.pending_of hexpired.1, rfl⟩)⟩
    · exact ⟨rfl, .inl rfl⟩

/-- A row after an update is one that it leaves or one that it changes. -/
theorem mem_updateWhere {condition : Delivery D T → Bool}
    {change : Delivery D T → DeliveryState T} {row' : Delivery D T} :
    row' ∈ (store.updateWhere condition change).rows ↔
      (row' ∈ store.rows ∧ condition row' = false) ∨
        ∃ row ∈ store.rows, condition row = true ∧ row.withState (change row) = row' := by
  rw [updateWhere, mem_update]
  constructor
  · rintro ⟨row, hrow, rfl⟩
    cases hcondition : condition row with
    | true => exact .inr ⟨row, hrow, hcondition, rfl⟩
    | false => exact .inl ⟨hrow, hcondition⟩
  · rintro (⟨hrow, hcondition⟩ | ⟨row, hrow, hcondition, rfl⟩)
    · exact ⟨row', hrow, by rw [hcondition]; rfl⟩
    · exact ⟨row, hrow, by rw [if_pos hcondition]⟩

/-- An update of one row leaves the others. -/
theorem mem_updateOne {condition : Delivery D T → Bool} {change : Delivery D T → DeliveryState T}
    {row : Delivery D T} (hrow : row ∈ store.rows) (hcondition : condition row = true)
    (hothers : ∀ other ∈ store.rows, condition other = true →
      other.selectionId = row.selectionId) {row' : Delivery D T} :
    row' ∈ (store.updateWhere condition change).rows ↔
      (row' ∈ store.rows ∧ row'.selectionId ≠ row.selectionId) ∨
        row.withState (change row) = row' := by
  rw [mem_updateWhere]
  constructor
  · rintro (⟨hmem, hother⟩ | ⟨found, hmem, hfound, rfl⟩)
    · refine .inl ⟨hmem, ?_⟩
      intro hid
      obtain rfl := store.row_unique hmem hrow hid
      rw [hcondition] at hother
      cases hother
    · obtain rfl := store.row_unique hmem hrow (hothers found hmem hfound)
      exact .inr rfl
  · rintro (⟨hmem, hother⟩ | rfl)
    · refine .inl ⟨hmem, ?_⟩
      apply Bool.eq_false_iff.mpr
      intro hfound
      exact hother (hothers row' hmem hfound)
    · exact .inr ⟨row, hrow, hcondition, rfl⟩

/-- A disconnect expires pending rows, and the watermark reaches it. -/
theorem quiet_invalidate (store : DeliveryStore D T) (disconnectedAt : Instant) :
    Quiet store (store.invalidate disconnectedAt) ∧
      ∃ through ∈ (store.invalidate disconnectedAt).control.invalidatedThrough,
        disconnectedAt ≤ through := by
  have hwatermark : ∀ through, store.control.invalidatedThrough = some through →
      (store.invalidate disconnectedAt).control.invalidatedThrough =
        some (max disconnectedAt through) := by
    intro through hthrough
    simp [invalidate, updateWhere, update, withControl, hthrough]
  constructor
  · apply Quiet.trans_update
    · exact {
        kept := fun row hrow => ⟨row, hrow, rfl, rfl, .inl rfl⟩
        origin := fun row hrow => .inl ⟨row, hrow, rfl, rfl, .inl rfl⟩
        watermark := fun through hthrough =>
          ⟨_, hwatermark through hthrough, le_max_right _ _⟩ }
    · intro row _
      split
      · next hpending =>
          simp only [Bool.and_eq_true] at hpending
          exact ⟨rfl, .inr (.inl ⟨RowStatus.pending_of hpending.1, rfl⟩)⟩
      · exact ⟨rfl, .inl rfl⟩
  · cases hthrough : store.control.invalidatedThrough with
    | none =>
        refine ⟨disconnectedAt, ?_, le_rfl⟩
        simp [invalidate, updateWhere, update, withControl, hthrough]
    | some through => exact ⟨_, hwatermark through hthrough, le_max_left _ _⟩

variable [Hashing D]

/-- An enqueued row is new, and not yet claimed. -/
theorem quiet_enqueue {selection : RealtimeSelection D} {lifetime : Int} {now : Instant} {id : D}
    {store' : DeliveryStore D T} (h : store.enqueue selection lifetime now = .ok (id, store')) :
    Quiet store store' := by
  simp only [enqueue, bind_eq_ok, pure_eq_ok, Prod.mk.injEq] at h
  obtain ⟨_, -, _, -, -, rfl⟩ := h
  unfold insert
  split
  · next hnew =>
      constructor
      case kept =>
        intro row hrow
        exact ⟨row, List.mem_append_left _ hrow, rfl, rfl, .inl rfl⟩
      case origin =>
        intro row hrow
        rcases List.mem_append.mp hrow with hrow | hrow
        · exact .inl ⟨row, hrow, rfl, rfl, .inl rfl⟩
        · rw [List.mem_singleton.mp hrow]
          exact .inr ⟨rfl, rfl, hnew.1⟩
      case watermark => exact fun through hthrough => ⟨through, hthrough, le_rfl⟩
  · exact Quiet.refl store

/-- **What `claim` does**: rows age, and then nothing, or one pending row that the
watermark has not reached is leased while no other is. -/
theorem claim_cases {lease : Int} {token : T} {lostAt expiredAt claimedAt : Instant}
    {result : Option (DeliveryClaim D T)} {store' : DeliveryStore D T}
    (h : store.claim lease token lostAt expiredAt claimedAt = .ok (result, store')) :
    (result = none ∧ Quiet store store') ∨
    ∃ (settled : DeliveryStore D T) (row : Delivery D T) (claim : DeliveryClaim D T),
      result = some claim ∧ Quiet store settled ∧ row ∈ settled.rows ∧
      row.status = .resting .pending ∧ (∀ other ∈ settled.rows, other.status.isSending = false) ∧
      settled.control.invalidates row.decisionAt = false ∧
      claim.selectionId = row.selectionId ∧ claim.attempts = row.attempts + 1 ∧
      claim.token = token ∧
      store' = settled.updateWhere (·.selectionId = row.selectionId)
        fun row => claimedState row token (claimedAt + lease) := by
  simp only [claim, bind_eq_ok] at h
  obtain ⟨_, -, h⟩ := h
  have hquiet := quiet_settle store lostAt expiredAt
  split at h
  · obtain ⟨rfl, rfl⟩ := Prod.mk.inj (pure_eq_ok.mp h)
    exact .inl ⟨rfl, hquiet⟩
  · next row hnext =>
      obtain ⟨rfl, rfl⟩ := Prod.mk.inj (pure_eq_ok.mp h)
      have hmem := (sortOn_perm _ _).mem_iff.mp (List.mem_of_head? hnext)
      obtain ⟨hrow, hclaimable⟩ := List.mem_filter.mp hmem
      simp only [claimable, Bool.and_eq_true, List.all_eq_true, Bool.not_eq_true'] at hclaimable
      obtain ⟨⟨⟨⟨⟨⟨hpending, -⟩, -⟩, -⟩, hnone⟩, -⟩, hvalid⟩ := hclaimable
      exact .inr ⟨_, row, _, rfl, hquiet, hrow, RowStatus.pending_of hpending, hnone, hvalid, rfl,
        rfl, rfl, rfl⟩

variable [DecidableEq T]

/-- A leased row is the one that the claim was for, and is being sent. -/
theorem leasedTo_cases {claim : DeliveryClaim D T} {row : Delivery D T}
    (h : leasedTo claim row = true) :
    row.selectionId = claim.selectionId ∧ row.status.isSending = true := by
  simp only [leasedTo, Bool.and_eq_true, decide_eq_true_eq] at h
  refine ⟨h.1, ?_⟩
  cases hstatus : row.status with
  | sending => rfl
  | resting => simp [hstatus] at h

/-- **What `finish` does**: the row that is leased to the claim rests, in the state
that is returned, which is `PENDING` only where that was asked for. -/
theorem finish_cases {claim : DeliveryClaim D T} {request : FinishRequest}
    {cooledAt finishedAt : Instant} {status : DeliveryStatus} {store' : DeliveryStore D T}
    (h : store.finish claim request cooledAt finishedAt = .ok (status, store')) :
    ∃ row ∈ store.rows, leasedTo claim row = true ∧ (status = .pending → request.status = .pending) ∧
      store'.control.invalidatedThrough = store.control.invalidatedThrough ∧
      ∃ state : DeliveryState T, state.status = .resting status ∧ state.attempts = row.attempts ∧
        ∀ row', row' ∈ store'.rows ↔
          (row' ∈ store.rows ∧ row'.selectionId ≠ claim.selectionId) ∨ row.withState state = row' := by
  simp only [finish, bind_eq_ok] at h
  obtain ⟨_, -, h⟩ := h
  have hrows : (store.coolDown request cooledAt).rows = store.rows := by
    unfold coolDown
    split <;> rfl
  have hcontrol : (store.coolDown request cooledAt).control.invalidatedThrough =
      store.control.invalidatedThrough := by
    unfold coolDown
    split <;> rfl
  split at h
  · exact absurd h throw_ne_ok
  · next row hfind =>
      obtain ⟨rfl, rfl⟩ := Prod.mk.inj (pure_eq_ok.mp h)
      have hrow : row ∈ store.rows := hrows ▸ List.mem_of_find?_eq_some hfind
      have hfinishable := List.find?_some hfind
      have hleased : leasedTo claim row = true := by
        simp only [finishable, Bool.and_eq_true] at hfinishable
        exact hfinishable.1
      refine ⟨row, hrow, hleased, ?_, hcontrol, {
        status := .resting ((store.coolDown request cooledAt).finishedStatus request row finishedAt)
        attempts := row.attempts
        availableAt := finishedAt + request.retryAfter
        errorCode := request.errorCode
        providerMessageId := request.providerMessageId }, rfl, rfl, ?_⟩
      · unfold finishedStatus
        split
        · intro hexpired
          cases hexpired
        · exact fun hpending => hpending
      · intro row'
        rw [mem_updateOne (hrows ▸ hrow) hfinishable, hrows, (leasedTo_cases hleased).1]
        intro other _ hother
        simp only [finishable, Bool.and_eq_true] at hother
        rw [(leasedTo_cases hother.1).1, (leasedTo_cases hleased).1]

end DeliveryStore

/-! ## Journals of deliveries -/

section

variable [Hashing D]

/-- How often a selection has been claimed. -/
def claimsOf (selectionId : D) (journal : List (DeliveryEntry D T)) : Nat :=
  journal.countP fun
    | .claimed claim => claim.selectionId = selectionId
    | _ => false

theorem claimsOf_claimed (selectionId : D) (journal : List (DeliveryEntry D T))
    (claim : DeliveryClaim D T) : claimsOf selectionId (journal ++ [.claimed claim]) =
      claimsOf selectionId journal + if claim.selectionId = selectionId then 1 else 0 := by
  rw [claimsOf, List.countP_append]
  simp [claimsOf]

/-- The send of a claim ended in a rate limit, and the claim was finished as `PENDING`. -/
def RateLimited (claim : DeliveryClaim D T) (journal : List (DeliveryEntry D T)) : Prop :=
  (∃ answer : SendAnswer, answer.IsRateLimit ∧ .answered claim answer ∈ journal) ∧
    .finished claim .pending ∈ journal

/-- No disconnect so far reaches the decision of a claim's row. -/
def Unaffected (rows : List (Delivery D T)) (journal : List (DeliveryEntry D T))
    (claim : DeliveryClaim D T) : Prop :=
  ∀ disconnectedAt, .invalidated disconnectedAt ∈ journal →
    ∃ row ∈ rows, row.selectionId = claim.selectionId ∧ disconnectedAt < row.decisionAt

/-- What must have happened before an entry. -/
def Warranted (rows : List (Delivery D T)) (before : List (DeliveryEntry D T)) :
    DeliveryEntry D T → Prop
  | .claimed claim =>
      claim.attempts = claimsOf claim.selectionId before + 1 ∧ Unaffected rows before claim
  | .allowed claim => Unaffected rows before claim
  | .send claim => ∀ earlier, .send earlier ∈ before →
      earlier.selectionId = claim.selectionId → RateLimited earlier before
  | .invalidated _ | .answered _ _ | .finished _ _ => True

omit [Hashing D] in
theorem RateLimited.append {claim : DeliveryClaim D T} {journal : List (DeliveryEntry D T)}
    (h : RateLimited claim journal) (more : List (DeliveryEntry D T)) :
    RateLimited claim (journal ++ more) := by
  obtain ⟨⟨answer, hlimit, hanswered⟩, hfinished⟩ := h
  exact ⟨⟨answer, hlimit, List.mem_append_left _ hanswered⟩, List.mem_append_left _ hfinished⟩

/-- A row keeps its selection and its decision. -/
theorem Warranted.of_rows {rows rows' : List (Delivery D T)}
    (hkept : ∀ row ∈ rows, ∃ row' ∈ rows', row'.toDeliveryKey = row.toDeliveryKey)
    {before : List (DeliveryEntry D T)} {entry : DeliveryEntry D T}
    (h : Warranted rows before entry) : Warranted rows' before entry := by
  have hunaffected : ∀ {claim : DeliveryClaim D T}, Unaffected rows before claim →
      Unaffected rows' before claim := by
    intro claim hclaim disconnectedAt hmem
    obtain ⟨row, hrow, hid, hbefore⟩ := hclaim disconnectedAt hmem
    obtain ⟨row', hrow', hkey⟩ := hkept row hrow
    refine ⟨row', hrow', ?_, ?_⟩
    · rw [← hid]
      exact congrArg DeliveryKey.selectionId hkey
    · rw [congrArg DeliveryKey.decisionAt hkey]
      exact hbefore
  cases entry with
  | claimed claim => exact ⟨h.1, hunaffected h.2⟩
  | allowed claim => exact hunaffected h
  | send claim => exact h
  | invalidated => trivial
  | answered => trivial
  | finished => trivial

end

/-- Nothing has been sent on the claim of the stage yet. -/
def DispatchStage.IsEarly : DispatchStage D T → Prop
  | .claimed _ | .readable _ | .allowed _ => True
  | .idle | .sending _ | .finishing _ _ => False

/-- What every interleaving keeps. -/
structure Sound [Hashing D] (system : DeliverySystem P D T) : Prop where
  sole : ∀ row ∈ system.store.rows, ∀ row' ∈ system.store.rows,
    row.status.isSending = true → row'.status.isSending = true → row = row'
  counted : ∀ row ∈ system.store.rows, row.attempts = claimsOf row.selectionId system.journal
  known : ∀ claim, .claimed claim ∈ system.journal →
    ∃ row ∈ system.store.rows, row.selectionId = claim.selectionId
  /-- The claim of a process is the last one of its row. -/
  held : ∀ process claim, (system.stages process).claim = some claim →
    ∃ row ∈ system.store.rows, row.selectionId = claim.selectionId ∧
      row.attempts = claim.attempts ∧ row.status.isPending = false
  alone : ∀ process process' claim claim', (system.stages process).claim = some claim →
    (system.stages process').claim = some claim' → claim.selectionId = claim'.selectionId →
    process = process'
  own : ∀ process claim, (system.stages process).claim = some claim →
    ∀ sent, .send sent ∈ system.journal → sent.selectionId = claim.selectionId →
    sent.attempts < claim.attempts ∨ ¬(system.stages process).IsEarly ∧ sent = claim
  retry : ∀ process claim request, system.stages process = .finishing claim request →
    request.status = .pending →
    ∃ answer : SendAnswer, answer.IsRateLimit ∧ .answered claim answer ∈ system.journal
  /-- A row that is claimed again, or can be, was released by a rate limit. -/
  settled : ∀ sent, .send sent ∈ system.journal → ∃ row ∈ system.store.rows,
    row.selectionId = sent.selectionId ∧ sent.attempts ≤ row.attempts ∧
      (sent.attempts < row.attempts ∨ row.status.isPending = true →
        RateLimited sent system.journal)
  warranted : Justified (Warranted system.store.rows) system.journal
  watermark : ∀ disconnectedAt, .invalidated disconnectedAt ∈ system.journal →
    ∃ through ∈ system.store.control.invalidatedThrough, disconnectedAt ≤ through

namespace Sound

open DeliveryStore

variable [Hashing D] {system : DeliverySystem P D T}

theorem initial (clock : Instant) : Sound (DeliverySystem.initial clock : DeliverySystem P D T) := by
  constructor
  case warranted => exact justified_nil _
  all_goals simp [DeliverySystem.initial, bootstrap, DispatchStage.claim]

/-- **Rows age**, and selections are enqueued. -/
theorem commit (h : Sound system) {store : DeliveryStore D T} (hquiet : Quiet system.store store)
    (clock : Instant) : Sound (system.commit store clock) := by
  have hkeys : ∀ row ∈ system.store.rows, ∃ row' ∈ store.rows,
      row'.toDeliveryKey = row.toDeliveryKey := by
    intro row hrow
    obtain ⟨row', hrow', hkey, -⟩ := hquiet.kept row hrow
    exact ⟨row', hrow', hkey⟩
  have hpending : ∀ {before after : DeliveryState T}, Ages before after →
      after.status.isPending = true → before.status.isPending = true := by
    intro before after hages hafter
    rcases hages.2 with hsame | ⟨hbefore, -⟩ | ⟨-, hunknown⟩
    · rw [← hsame]
      exact hafter
    · rw [hbefore]
      rfl
    · rw [hunknown] at hafter
      cases hafter
  constructor
  case sole =>
    have horigin : ∀ row' ∈ store.rows, row'.status.isSending = true →
        ∃ row ∈ system.store.rows, row'.selectionId = row.selectionId ∧
          row.status.isSending = true := by
      intro row' hrow' hsending
      obtain ⟨row, hrow, hkey, hages⟩ | ⟨-, hresting, -⟩ := hquiet.origin row' hrow'
      · refine ⟨row, hrow, congrArg DeliveryKey.selectionId hkey, ?_⟩
        rcases hages.2 with hsame | ⟨-, hexpired⟩ | ⟨hbefore, -⟩
        · rw [← hsame]
          exact hsending
        · rw [hexpired] at hsending
          cases hsending
        · exact hbefore
      · rw [hresting] at hsending
        cases hsending
    intro row hrow row' hrow' hsending hsending'
    obtain ⟨first, hfirst, hid, hfirstSending⟩ := horigin row hrow hsending
    obtain ⟨second, hsecond, hid', hsecondSending⟩ := horigin row' hrow' hsending'
    have hsame := h.sole first hfirst second hsecond hfirstSending hsecondSending
    exact store.row_unique hrow hrow' (by rw [hid, hid', hsame])
  case counted =>
    intro row' hrow'
    obtain ⟨row, hrow, hkey, hages⟩ | ⟨hattempts, -, hnew⟩ := hquiet.origin row' hrow'
    · have hid := congrArg DeliveryKey.selectionId hkey
      rw [hages.1, h.counted row hrow, hid]
      rfl
    · rw [hattempts]
      symm
      apply List.countP_eq_zero.mpr
      intro entry hentry
      cases entry with
      | claimed claim =>
          obtain ⟨row, hrow, hid⟩ := h.known claim hentry
          simpa [← hid] using hnew row hrow
      | _ => simp
  case known =>
    intro claim hclaim
    obtain ⟨row, hrow, hid⟩ := h.known claim hclaim
    obtain ⟨row', hrow', hkey⟩ := hkeys row hrow
    exact ⟨row', hrow', (congrArg DeliveryKey.selectionId hkey).trans hid⟩
  case held =>
    intro process claim hclaim
    obtain ⟨row, hrow, hid, hattempts, hstatus⟩ := h.held process claim hclaim
    obtain ⟨row', hrow', hkey, hages⟩ := hquiet.kept row hrow
    refine ⟨row', hrow', (congrArg DeliveryKey.selectionId hkey).trans hid,
      hages.1.trans hattempts, ?_⟩
    apply Bool.eq_false_iff.mpr
    intro hafter
    rw [hpending hages hafter] at hstatus
    cases hstatus
  case alone => exact h.alone
  case own => exact h.own
  case retry => exact h.retry
  case settled =>
    intro sent hsent
    obtain ⟨row, hrow, hid, hle, hlimited⟩ := h.settled sent hsent
    obtain ⟨row', hrow', hkey, hages⟩ := hquiet.kept row hrow
    refine ⟨row', hrow', (congrArg DeliveryKey.selectionId hkey).trans hid,
      hle.trans hages.1.ge, ?_⟩
    rintro (hless | hafter)
    · exact hlimited (.inl (hless.trans_eq hages.1))
    · exact hlimited (.inr (hpending hages hafter))
  case warranted => exact h.warranted.imp fun _ _ => Warranted.of_rows hkeys
  case watermark =>
    intro disconnectedAt hmem
    obtain ⟨through, hthrough, hle⟩ := h.watermark disconnectedAt hmem
    obtain ⟨through', hthrough', hle'⟩ := hquiet.watermark through hthrough
    exact ⟨through', hthrough', hle.trans hle'⟩

/-- An entry that is no claim, no send and no disconnect. -/
theorem note (h : Sound system) {entry : DeliveryEntry D T}
    (hclaimed : ∀ claim, entry ≠ .claimed claim) (hsend : ∀ claim, entry ≠ .send claim)
    (hinvalidated : ∀ disconnectedAt, entry ≠ .invalidated disconnectedAt)
    (hwarranted : Warranted system.store.rows system.journal entry) :
    Sound (system.note entry) := by
  have hmem : ∀ {found : DeliveryEntry D T}, found ≠ entry →
      found ∈ system.journal ++ [entry] → found ∈ system.journal := by
    intro found hne hfound
    rcases List.mem_append.mp hfound with hfound | hfound
    · exact hfound
    · exact absurd (List.mem_singleton.mp hfound) hne
  constructor
  case sole => exact h.sole
  case counted =>
    intro row hrow
    have hcount : claimsOf row.selectionId (system.journal ++ [entry]) =
        claimsOf row.selectionId system.journal := by
      rw [claimsOf, List.countP_append]
      cases entry with
      | claimed claim => exact absurd rfl (hclaimed claim)
      | _ => rfl
    exact (h.counted row hrow).trans hcount.symm
  case known => exact fun claim hclaim => h.known claim (hmem (hclaimed claim).symm hclaim)
  case held => exact h.held
  case alone => exact h.alone
  case own =>
    intro process claim hclaim sent hsent
    exact h.own process claim hclaim sent (hmem (hsend sent).symm hsent)
  case retry =>
    intro process claim request hstage hpending
    obtain ⟨answer, hlimit, hanswered⟩ := h.retry process claim request hstage hpending
    exact ⟨answer, hlimit, List.mem_append_left _ hanswered⟩
  case settled =>
    intro sent hsent
    obtain ⟨row, hrow, hid, hle, hlimited⟩ := h.settled sent (hmem (hsend sent).symm hsent)
    exact ⟨row, hrow, hid, hle, fun hagain => (hlimited hagain).append [entry]⟩
  case warranted => exact justified_snoc.mpr ⟨h.warranted, hwarranted⟩
  case watermark =>
    intro disconnectedAt hdisconnected
    exact h.watermark disconnectedAt (hmem (hinvalidated disconnectedAt).symm hdisconnected)

/-- A disconnect that the watermark has reached. -/
theorem noteInvalidated (h : Sound system) {disconnectedAt : Instant}
    (hwatermark : ∃ through ∈ system.store.control.invalidatedThrough, disconnectedAt ≤ through) :
    Sound (system.note (.invalidated disconnectedAt)) := by
  constructor
  case sole => exact h.sole
  case counted =>
    intro row hrow
    rw [h.counted row hrow, claimsOf, claimsOf, DeliverySystem.note, List.countP_append]
    rfl
  case known =>
    intro claim hclaim
    exact h.known claim (by simpa [DeliverySystem.note] using hclaim)
  case held => exact h.held
  case alone => exact h.alone
  case own =>
    intro process claim hclaim sent hsent
    exact h.own process claim hclaim sent (by simpa [DeliverySystem.note] using hsent)
  case retry =>
    intro process claim request hstage hpending
    obtain ⟨answer, hlimit, hanswered⟩ := h.retry process claim request hstage hpending
    exact ⟨answer, hlimit, List.mem_append_left _ hanswered⟩
  case settled =>
    intro sent hsent
    obtain ⟨row, hrow, hid, hle, hlimited⟩ :=
      h.settled sent (by simpa [DeliverySystem.note] using hsent)
    exact ⟨row, hrow, hid, hle, fun hagain => (hlimited hagain).append _⟩
  case warranted => exact justified_snoc.mpr ⟨h.warranted, trivial⟩
  case watermark =>
    intro found hfound
    rcases List.mem_append.mp hfound with hfound | hfound
    · exact h.watermark found hfound
    · cases List.mem_singleton.mp hfound
      exact hwatermark

variable [DecidableEq P]

/-- A process that goes on with its claim, or gives it up. -/
theorem moveTo (h : Sound system) {process : P} {stage : DispatchStage D T}
    (hclaim : ∀ claim, stage.claim = some claim → (system.stages process).claim = some claim)
    (hearly : stage.IsEarly → (system.stages process).IsEarly)
    (hretry : ∀ claim request, stage = .finishing claim request → request.status = .pending →
      ∃ answer : SendAnswer, answer.IsRateLimit ∧ .answered claim answer ∈ system.journal) :
    Sound (system.moveTo process stage) := by
  have hkept : ∀ found claim, ((system.moveTo process stage).stages found).claim = some claim →
      (system.stages found).claim = some claim := by
    intro found claim hfound
    by_cases hsame : found = process
    · subst hsame
      rw [DeliverySystem.moveTo_self] at hfound
      exact hclaim claim hfound
    · rwa [DeliverySystem.moveTo_other _ _ hsame] at hfound
  constructor
  case sole => exact h.sole
  case counted => exact h.counted
  case known => exact h.known
  case held => exact fun found claim hfound => h.held found claim (hkept found claim hfound)
  case alone =>
    intro found found' claim claim' hfound hfound' hid
    exact h.alone found found' claim claim' (hkept found claim hfound)
      (hkept found' claim' hfound') hid
  case own =>
    intro found claim hfound sent hsent hid
    obtain hless | ⟨hlate, hsame⟩ := h.own found claim (hkept found claim hfound) sent hsent hid
    · exact .inl hless
    · refine .inr ⟨?_, hsame⟩
      intro hfoundEarly
      apply hlate
      by_cases hprocess : found = process
      · subst hprocess
        rw [DeliverySystem.moveTo_self] at hfoundEarly
        exact hearly hfoundEarly
      · rwa [DeliverySystem.moveTo_other _ _ hprocess] at hfoundEarly
  case retry =>
    intro found claim request hfound hpending
    by_cases hprocess : found = process
    · subst hprocess
      rw [DeliverySystem.moveTo_self] at hfound
      exact hretry claim request hfound hpending
    · rw [DeliverySystem.moveTo_other _ _ hprocess] at hfound
      exact h.retry found claim request hfound hpending
  case settled => exact h.settled
  case warranted => exact h.warranted
  case watermark => exact h.watermark

/-- A process that gives its claim up. -/
theorem release (h : Sound system) (process : P) : Sound (system.moveTo process .idle) := by
  apply h.moveTo
  · intro claim hclaim
    cases hclaim
  · intro hearly
    cases hearly
  · intro claim request hstage
    cases hstage

/-- **One row is leased**: it is pending, no other is being sent, and the watermark has
not reached its decision. -/
theorem claimed (h : Sound system) {process : P} (hidle : system.stages process = .idle)
    {row : Delivery D T} (hrow : row ∈ system.store.rows)
    (hpending : row.status = .resting .pending)
    (hnone : ∀ other ∈ system.store.rows, other.status.isSending = false)
    (hvalid : system.store.control.invalidates row.decisionAt = false)
    {claim : DeliveryClaim D T} (hid : claim.selectionId = row.selectionId)
    (hattempts : claim.attempts = row.attempts + 1) (token : T) (leaseUntil clock : Instant) :
    Sound (((system.commit (system.store.updateWhere (·.selectionId = row.selectionId)
      fun row => claimedState row token leaseUntil) clock).note (.claimed claim)).moveTo process
        (.claimed claim)) := by
  have hrows : ∀ row', row' ∈ (system.store.updateWhere (·.selectionId = row.selectionId)
      fun row => claimedState row token leaseUntil).rows ↔
      (row' ∈ system.store.rows ∧ row'.selectionId ≠ row.selectionId) ∨
        row.withState (claimedState row token leaseUntil) = row' := by
    intro row'
    apply mem_updateOne hrow
    · exact decide_eq_true rfl
    · intro other _ hother
      exact of_decide_eq_true hother
  have hkeys : ∀ found ∈ system.store.rows,
      ∃ row' ∈ (system.store.updateWhere (·.selectionId = row.selectionId)
        fun row => claimedState row token leaseUntil).rows,
      row'.toDeliveryKey = found.toDeliveryKey := by
    intro found hfound
    by_cases hsame : found.selectionId = row.selectionId
    · obtain rfl := system.store.row_unique hfound hrow hsame
      exact ⟨_, (hrows _).mpr (.inr rfl), rfl⟩
    · exact ⟨found, (hrows _).mpr (.inl ⟨hfound, hsame⟩), rfl⟩
  -- Nobody holds the selection, whose row is pending.
  have hfree : ∀ found held, (system.stages found).claim = some held →
      held.selectionId ≠ row.selectionId := by
    intro found held hheld hsame
    obtain ⟨other, hother, hotherId, -, hstatus⟩ := h.held found held hheld
    obtain rfl := system.store.row_unique hother hrow (hotherId.trans hsame)
    rw [hpending] at hstatus
    cases hstatus
  have hstages : ∀ found held, (((system.commit (system.store.updateWhere
      (·.selectionId = row.selectionId) fun row => claimedState row token leaseUntil) clock).note
      (.claimed claim)).moveTo process (.claimed claim)).stages found = held →
      found = process ∧ held = .claimed claim ∨ found ≠ process ∧ system.stages found = held := by
    intro found held hheld
    by_cases hsame : found = process
    · subst hsame
      rw [DeliverySystem.moveTo_self] at hheld
      exact .inl ⟨rfl, hheld.symm⟩
    · rw [DeliverySystem.moveTo_other _ _ hsame] at hheld
      exact .inr ⟨hsame, hheld⟩
  constructor
  case sole =>
    intro first hfirst second hsecond hfirstSending hsecondSending
    obtain ⟨hmem, -⟩ | rfl := (hrows first).mp hfirst
    · rw [hnone first hmem] at hfirstSending
      cases hfirstSending
    · obtain ⟨hmem, -⟩ | rfl := (hrows second).mp hsecond
      · rw [hnone second hmem] at hsecondSending
        cases hsecondSending
      · rfl
  case counted =>
    intro row' hrow'
    change row'.attempts = claimsOf row'.selectionId (system.journal ++ [.claimed claim])
    rw [claimsOf_claimed]
    obtain ⟨hmem, hother⟩ | rfl := (hrows row').mp hrow'
    · rw [if_neg fun hsame => hother (hsame.symm.trans hid)]
      exact h.counted row' hmem
    · change row.attempts + 1 = claimsOf row.selectionId system.journal +
        if claim.selectionId = row.selectionId then 1 else 0
      rw [if_pos hid, h.counted row hrow]
  case known =>
    intro found hfound
    rcases List.mem_append.mp hfound with hfound | hfound
    · obtain ⟨other, hother, hotherId⟩ := h.known found hfound
      obtain ⟨row', hrow', hkey⟩ := hkeys other hother
      exact ⟨row', hrow', (congrArg DeliveryKey.selectionId hkey).trans hotherId⟩
    · cases List.mem_singleton.mp hfound
      exact ⟨_, (hrows _).mpr (.inr rfl), hid.symm⟩
  case held =>
    intro found held hheld
    obtain ⟨rfl, hstage⟩ | ⟨hother, hstage⟩ := hstages found _ rfl
    · rw [hstage] at hheld
      cases hheld
      exact ⟨_, (hrows _).mpr (.inr rfl), hid.symm, hattempts.symm, rfl⟩
    · rw [← hstage] at hheld
      obtain ⟨other, hmem, hotherId, hsame⟩ := h.held found held hheld
      exact ⟨other, (hrows _).mpr (.inl ⟨hmem, hotherId ▸ hfree found held hheld⟩), hotherId, hsame⟩
  case alone =>
    intro found found' held held' hheld hheld' hsame
    obtain ⟨rfl, hstage⟩ | ⟨hother, hstage⟩ := hstages found _ rfl
    · obtain ⟨rfl, -⟩ | ⟨-, hstage'⟩ := hstages found' _ rfl
      · rfl
      · rw [hstage] at hheld
        rw [← hstage'] at hheld'
        cases hheld
        exact absurd (hsame.symm.trans hid) (hfree found' held' hheld')
    · rw [← hstage] at hheld
      obtain ⟨rfl, hstage'⟩ | ⟨-, hstage'⟩ := hstages found' _ rfl
      · rw [hstage'] at hheld'
        cases hheld'
        exact absurd (hsame.trans hid) (hfree found held hheld)
      · rw [← hstage'] at hheld'
        exact h.alone found found' held held' hheld hheld' hsame
  case own =>
    intro found held hheld sent hsent hsentId
    have hearlier : .send sent ∈ system.journal := by
      simpa [DeliverySystem.note, DeliverySystem.moveTo, DeliverySystem.commit] using hsent
    obtain ⟨rfl, hstage⟩ | ⟨hother, hstage⟩ := hstages found _ rfl
    · rw [hstage] at hheld
      cases hheld
      obtain ⟨other, hmem, hotherId, hle, -⟩ := h.settled sent hearlier
      obtain rfl := system.store.row_unique hmem hrow (hotherId.trans (hsentId.trans hid))
      exact .inl (by omega)
    · rw [← hstage] at hheld ⊢
      exact h.own found held hheld sent hearlier hsentId
  case retry =>
    intro found held request hstage hpendingRequest
    obtain ⟨rfl, hclaimed⟩ | ⟨hother, hsame⟩ := hstages found _ hstage
    · cases hclaimed
    · obtain ⟨answer, hlimit, hanswered⟩ := h.retry found held request hsame hpendingRequest
      exact ⟨answer, hlimit, List.mem_append_left _ hanswered⟩
  case settled =>
    intro sent hsent
    have hsent : .send sent ∈ system.journal := by
      simpa [DeliverySystem.note, DeliverySystem.moveTo, DeliverySystem.commit] using hsent
    obtain ⟨other, hmem, hotherId, hle, hlimited⟩ := h.settled sent hsent
    by_cases hsame : other.selectionId = row.selectionId
    · obtain rfl := system.store.row_unique hmem hrow hsame
      refine ⟨_, (hrows _).mpr (.inr rfl), hotherId, Nat.le_succ_of_le hle, ?_⟩
      intro _
      exact (hlimited (.inr (by rw [hpending]; rfl))).append _
    · exact ⟨other, (hrows _).mpr (.inl ⟨hmem, hsame⟩), hotherId, hle,
        fun hagain => (hlimited hagain).append _⟩
  case warranted =>
    refine justified_snoc.mpr ⟨h.warranted.imp fun _ _ => Warranted.of_rows hkeys, ?_, ?_⟩
    · rw [hattempts, h.counted row hrow, hid]
      rfl
    · intro disconnectedAt hdisconnected
      obtain ⟨through, hthrough, hle⟩ := h.watermark disconnectedAt hdisconnected
      refine ⟨_, (hrows _).mpr (.inr rfl), hid.symm, hle.trans_lt ?_⟩
      change through < row.decisionAt
      simpa [DeliveryControl.invalidates, Option.mem_def.mp hthrough] using hvalid
  case watermark =>
    intro disconnectedAt hdisconnected
    apply h.watermark disconnectedAt
    simpa [DeliverySystem.note, DeliverySystem.moveTo, DeliverySystem.commit] using hdisconnected

omit [DecidableEq P] in
/-- **A leased row rests** after nobody holds it any more.  Where it is pending again,
its last claim was rate limited. -/
theorem rested (h : Sound system) {row : Delivery D T} (hrow : row ∈ system.store.rows)
    (hfree : ∀ found held, (system.stages found).claim = some held →
      held.selectionId ≠ row.selectionId)
    {state : DeliveryState T} (hresting : state.status.isSending = false)
    (hattempts : state.attempts = row.attempts)
    (hlimited : state.status.isPending = true → ∀ sent, .send sent ∈ system.journal →
      sent.selectionId = row.selectionId → sent.attempts = row.attempts →
      RateLimited sent system.journal)
    {store : DeliveryStore D T}
    (hcontrol : store.control.invalidatedThrough = system.store.control.invalidatedThrough)
    (hrows : ∀ row', row' ∈ store.rows ↔
      (row' ∈ system.store.rows ∧ row'.selectionId ≠ row.selectionId) ∨ row.withState state = row')
    (clock : Instant) : Sound (system.commit store clock) := by
  have hkeys : ∀ found ∈ system.store.rows, ∃ row' ∈ store.rows,
      row'.toDeliveryKey = found.toDeliveryKey := by
    intro found hfound
    by_cases hsame : found.selectionId = row.selectionId
    · obtain rfl := system.store.row_unique hfound hrow hsame
      exact ⟨_, (hrows _).mpr (.inr rfl), rfl⟩
    · exact ⟨found, (hrows _).mpr (.inl ⟨hfound, hsame⟩), rfl⟩
  have hsending : ∀ row' ∈ store.rows, row'.status.isSending = true →
      row' ∈ system.store.rows := by
    intro row' hrow' hstatus
    obtain ⟨hmem, -⟩ | rfl := (hrows row').mp hrow'
    · exact hmem
    · exact absurd (hresting.symm.trans hstatus) (by decide)
  constructor
  case sole =>
    intro first hfirst second hsecond hfirstSending hsecondSending
    exact h.sole first (hsending first hfirst hfirstSending) second
      (hsending second hsecond hsecondSending) hfirstSending hsecondSending
  case counted =>
    intro row' hrow'
    obtain ⟨hmem, -⟩ | rfl := (hrows row').mp hrow'
    · exact h.counted row' hmem
    · exact hattempts.trans (h.counted row hrow)
  case known =>
    intro claim hclaim
    obtain ⟨found, hfound, hid⟩ := h.known claim hclaim
    obtain ⟨row', hrow', hkey⟩ := hkeys found hfound
    exact ⟨row', hrow', (congrArg DeliveryKey.selectionId hkey).trans hid⟩
  case held =>
    intro found held hheld
    obtain ⟨other, hmem, hid, hsame⟩ := h.held found held hheld
    exact ⟨other, (hrows other).mpr (.inl ⟨hmem, hid ▸ hfree found held hheld⟩), hid, hsame⟩
  case alone => exact h.alone
  case own => exact h.own
  case retry => exact h.retry
  case settled =>
    intro sent hsent
    obtain ⟨found, hfound, hid, hle, hagain⟩ := h.settled sent hsent
    by_cases hsame : found.selectionId = row.selectionId
    · obtain rfl := system.store.row_unique hfound hrow hsame
      refine ⟨_, (hrows _).mpr (.inr rfl), hid, hle.trans hattempts.ge, ?_⟩
      rintro (hless | hpending)
      · exact hagain (.inl (hless.trans_eq hattempts))
      · rcases hle.lt_or_eq with hless | hlast
        · exact hagain (.inl hless)
        · exact hlimited hpending sent hsent hid.symm hlast
    · exact ⟨found, (hrows found).mpr (.inl ⟨hfound, hsame⟩), hid, hle, hagain⟩
  case warranted => exact h.warranted.imp fun _ _ => Warranted.of_rows hkeys
  case watermark =>
    intro disconnectedAt hdisconnected
    change ∃ through ∈ store.control.invalidatedThrough, disconnectedAt ≤ through
    rw [hcontrol]
    exact h.watermark disconnectedAt hdisconnected

/-- **The message is sent**: what was sent before on the selection was rate limited. -/
theorem sent (h : Sound system) {process : P} {claim : DeliveryClaim D T}
    (hstage : system.stages process = .allowed claim) :
    Sound ((system.note (.send claim)).moveTo process (.sending claim)) := by
  have hclaim : (system.stages process).claim = some claim := by rw [hstage]; rfl
  have hearly : (system.stages process).IsEarly := by rw [hstage]; trivial
  obtain ⟨row, hrow, hid, hattempts, hstatus⟩ := h.held process claim hclaim
  have hkept : ∀ found held, (((system.note (.send claim)).moveTo process
      (.sending claim)).stages found).claim = some held →
      (system.stages found).claim = some held := by
    intro found held hheld
    by_cases hsame : found = process
    · subst hsame
      rw [DeliverySystem.moveTo_self] at hheld
      exact hclaim.trans hheld
    · rwa [DeliverySystem.moveTo_other _ _ hsame] at hheld
  constructor
  case sole => exact h.sole
  case counted =>
    intro found hfound
    rw [h.counted found hfound, claimsOf, claimsOf]
    simp [DeliverySystem.note, DeliverySystem.moveTo]
  case known =>
    intro found hfound
    apply h.known found
    simpa [DeliverySystem.note, DeliverySystem.moveTo] using hfound
  case held => exact fun found held hheld => h.held found held (hkept found held hheld)
  case alone =>
    intro found found' held held' hheld hheld' hsame
    exact h.alone found found' held held' (hkept found held hheld) (hkept found' held' hheld') hsame
  case own =>
    intro found held hheld sent hsent hsentId
    rcases List.mem_append.mp hsent with hearlier | hnew
    · obtain hless | ⟨hlate, hsame⟩ := h.own found held (hkept found held hheld) sent hearlier hsentId
      · exact .inl hless
      · refine .inr ⟨?_, hsame⟩
        by_cases hprocess : found = process
        · subst hprocess
          exact absurd hearly hlate
        · rwa [DeliverySystem.moveTo_other _ _ hprocess]
    · cases List.mem_singleton.mp hnew
      obtain rfl := h.alone process found claim held hclaim (hkept found held hheld) hsentId
      rw [DeliverySystem.moveTo_self] at hheld ⊢
      exact .inr ⟨fun hfalse => hfalse, Option.some_inj.mp hheld⟩
  case retry =>
    intro found held request hfound hpending
    by_cases hprocess : found = process
    · subst hprocess
      rw [DeliverySystem.moveTo_self] at hfound
      cases hfound
    · rw [DeliverySystem.moveTo_other _ _ hprocess] at hfound
      obtain ⟨answer, hlimit, hanswered⟩ := h.retry found held request hfound hpending
      exact ⟨answer, hlimit, List.mem_append_left _ hanswered⟩
  case settled =>
    intro sent hsent
    rcases List.mem_append.mp hsent with hearlier | hnew
    · obtain ⟨found, hfound, hfoundId, hle, hlimited⟩ := h.settled sent hearlier
      exact ⟨found, hfound, hfoundId, hle, fun hagain => (hlimited hagain).append _⟩
    · cases List.mem_singleton.mp hnew
      refine ⟨row, hrow, hid, hattempts.ge, ?_⟩
      rintro (hless | hpending)
      · omega
      · rw [hstatus] at hpending
        cases hpending
  case warranted =>
    refine justified_snoc.mpr ⟨h.warranted, ?_⟩
    intro earlier hearlier hsame
    obtain hless | ⟨hlate, -⟩ := h.own process claim hclaim earlier hearlier hsame
    · obtain ⟨found, hfound, hfoundId, -, hlimited⟩ := h.settled earlier hearlier
      obtain rfl := system.store.row_unique hfound hrow (hfoundId.trans (hsame.trans hid.symm))
      exact hlimited (.inl (hless.trans_eq hattempts.symm))
    · exact absurd hearly hlate
  case watermark =>
    intro disconnectedAt hdisconnected
    apply h.watermark disconnectedAt
    simpa [DeliverySystem.note, DeliverySystem.moveTo] using hdisconnected

/-- What `claim` does, whoever runs it. -/
theorem claim (h : Sound system) {process : P} (hidle : system.stages process = .idle)
    {lease : Int} {token : T} {lostAt expiredAt claimedAt : Instant}
    {claim : DeliveryClaim D T} {store : DeliveryStore D T}
    (hclaim : system.store.claim lease token lostAt expiredAt claimedAt = .ok (some claim, store)) :
    Sound (((system.commit store claimedAt).note (.claimed claim)).moveTo process
      (.claimed claim)) := by
  obtain ⟨hnone, -⟩ | ⟨settled, row, found, hfound, hquiet, hrow, hpending, hfree, hvalid, hid,
    hattempts, -, rfl⟩ := claim_cases hclaim
  · cases hnone
  · obtain rfl := Option.some_inj.mp hfound
    have hsettled := h.commit hquiet claimedAt
    have hstage : (system.commit settled claimedAt).stages process = .idle := hidle
    exact hsettled.claimed hstage hrow hpending hfree hvalid hid hattempts token
      (claimedAt + lease) claimedAt

variable [DecidableEq T] {settings : P → DispatchSettings}

/-- What `finish` does, for the process that holds the claim. -/
theorem finish (h : Sound system) {process : P} {claim : DeliveryClaim D T}
    {request : FinishRequest} (hstage : system.stages process = .finishing claim request)
    {cooledAt finishedAt : Instant} {status : DeliveryStatus} {store : DeliveryStore D T}
    (hfinish : system.store.finish claim request cooledAt finishedAt = .ok (status, store)) :
    Sound (((system.commit store finishedAt).note (.finished claim status)).moveTo process
      .idle) := by
  have hclaim : (system.stages process).claim = some claim := by rw [hstage]; rfl
  obtain ⟨row, hrow, hleased, hstatus, hcontrol, state, hresting, hattempts, hrows⟩ :=
    finish_cases hfinish
  obtain ⟨hid, -⟩ := leasedTo_cases hleased
  obtain ⟨held, hheld, hheldId, hheldAttempts, -⟩ := h.held process claim hclaim
  obtain rfl := system.store.row_unique hheld hrow (hheldId.trans hid.symm)
  have hnoted : Sound ((system.note (.finished claim status)).moveTo process .idle) := by
    apply release
    apply h.note
    · intro _ hclaimed
      cases hclaimed
    · intro _ hsend
      cases hsend
    · intro _ hinvalidated
      cases hinvalidated
    · trivial
  apply hnoted.rested hrow
  case hfree =>
    intro found other hother hsame
    by_cases hprocess : found = process
    · subst hprocess
      rw [DeliverySystem.moveTo_self] at hother
      cases hother
    · rw [DeliverySystem.moveTo_other _ _ hprocess] at hother
      exact hprocess (h.alone found process other claim hother hclaim (hsame.trans hid))
  case hresting => rw [hresting]; rfl
  case hattempts => exact hattempts
  case hlimited =>
    intro hpending sent hsent hsentId hlast
    rw [hresting] at hpending
    have hagain : status = .pending := by
      cases RowStatus.pending_of hpending
      rfl
    subst hagain
    have hearlier : .send sent ∈ system.journal := by
      simpa [DeliverySystem.note, DeliverySystem.moveTo] using hsent
    obtain hless | ⟨-, rfl⟩ := h.own process claim hclaim sent hearlier (hsentId.trans hid)
    · omega
    · obtain ⟨answer, hlimit, hanswered⟩ := h.retry process sent request hstage (hstatus rfl)
      exact ⟨⟨answer, hlimit, List.mem_append_left _ hanswered⟩,
        List.mem_append_right _ (List.mem_singleton_self _)⟩
  case hcontrol => exact hcontrol
  case hrows =>
    intro row'
    rw [hid]
    exact hrows row'

/-- What `may_send` decides. -/
theorem window (h : Sound system) {process : P} {claim : DeliveryClaim D T}
    (hstage : system.stages process = .readable claim) (timeout elapsed : Int) (now : Instant) :
    Sound (DeliverySystem.afterWindow (settings process) (system.commit system.store now) process
      claim (system.store.maySend claim timeout now elapsed)) := by
  have hcommitted := h.commit (Quiet.refl system.store) now
  have hclaim : (system.stages process).claim = some claim := by rw [hstage]; rfl
  have hearly : (system.stages process).IsEarly := by rw [hstage]; trivial
  unfold DeliverySystem.afterWindow
  split
  · apply hcommitted.moveTo
    · intro found hfound
      exact hclaim.trans hfound
    · intro hfalse
      cases hfalse
    · intro found request hfound hpending
      cases hfound
      cases hpending
  · next hallowed =>
      have hnoted : Sound ((system.commit system.store now).note (.allowed claim)) := by
        apply hcommitted.note
        · intro _ hclaimed
          cases hclaimed
        · intro _ hsend
          cases hsend
        · intro _ hinvalidated
          cases hinvalidated
        · intro disconnectedAt hdisconnected
          simp only [Bool.not_eq_false, maySend, List.any_eq_true, Bool.and_eq_true,
            Bool.not_eq_true'] at hallowed
          obtain ⟨row, hrow, ⟨⟨hleased, -⟩, hvalid⟩, -⟩ := hallowed
          obtain ⟨through, hthrough, hle⟩ := h.watermark disconnectedAt hdisconnected
          refine ⟨row, hrow, (leasedTo_cases hleased).1, hle.trans_lt ?_⟩
          simpa [DeliveryControl.invalidates, Option.mem_def.mp hthrough] using hvalid
      split
      · apply hnoted.moveTo
        · intro found hfound
          exact hclaim.trans hfound
        · intro hfalse
          cases hfalse
        · intro found request hfound hpending
          cases hfound
          cases hpending
      · apply hnoted.moveTo
        · intro found hfound
          exact hclaim.trans hfound
        · exact fun _ => hearly
        · intro found request hfound
          cases hfound

/-- **One action.** -/
theorem step (h : Sound system) {action : DeliveryAction P D T} {system' : DeliverySystem P D T}
    (hstep : system.step settings action = some system') : Sound system' := by
  cases action with
  | invalidate disconnectedAt =>
      obtain rfl := Option.some_inj.mp hstep
      obtain ⟨hquiet, hwatermark⟩ := quiet_invalidate system.store disconnectedAt
      exact (h.commit hquiet system.clock).noteInvalidated hwatermark
  | enqueue selection lifetime now =>
      simp only [DeliverySystem.step] at hstep
      split at hstep
      · split at hstep
        · next henqueue =>
            obtain rfl := Option.some_inj.mp hstep
            exact h.commit (quiet_enqueue henqueue) now
        · obtain rfl := Option.some_inj.mp hstep
          exact h.commit (Quiet.refl _) now
      · cases hstep
  | claim process token lostAt expiredAt claimedAt =>
      simp only [DeliverySystem.step] at hstep
      split at hstep
      · split at hstep
        · next hidle =>
            split at hstep
            · next hclaim =>
                obtain rfl := Option.some_inj.mp hstep
                exact h.claim hidle hclaim
            · next hclaim =>
                obtain rfl := Option.some_inj.mp hstep
                obtain ⟨-, hquiet⟩ | ⟨_, _, _, hsome, -⟩ := claim_cases hclaim
                · exact h.commit hquiet claimedAt
                · cases hsome
            · obtain rfl := Option.some_inj.mp hstep
              exact h.commit (Quiet.refl _) claimedAt
        · cases hstep
      · cases hstep
  | read process readable =>
      simp only [DeliverySystem.step] at hstep
      split at hstep
      · next claim hstage =>
          split at hstep
          · obtain rfl := Option.some_inj.mp hstep
            apply h.moveTo
            · intro found hfound
              rw [hstage]
              exact hfound
            · intro _
              rw [hstage]
              trivial
            · intro found request hfound
              cases hfound
          · obtain rfl := Option.some_inj.mp hstep
            apply h.moveTo
            · intro found hfound
              rw [hstage]
              exact hfound
            · intro hfalse
              cases hfalse
            · intro found request hfound hpending
              cases hfound
              cases hpending
      · cases hstep
  | maySend process now elapsed =>
      simp only [DeliverySystem.step] at hstep
      split at hstep
      · split at hstep
        · next claim hstage =>
            obtain rfl := Option.some_inj.mp hstep
            exact h.window hstage _ elapsed now
        · cases hstep
      · cases hstep
  | send process =>
      simp only [DeliverySystem.step] at hstep
      split at hstep
      · next claim hstage =>
          obtain rfl := Option.some_inj.mp hstep
          exact h.sent hstage
      · cases hstep
  | answer process answer =>
      simp only [DeliverySystem.step] at hstep
      split at hstep
      · next claim hstage =>
          obtain rfl := Option.some_inj.mp hstep
          have hnoted : Sound (system.note (.answered claim answer)) := by
            apply h.note
            · intro _ hclaimed
              cases hclaimed
            · intro _ hsend
              cases hsend
            · intro _ hinvalidated
              cases hinvalidated
            · trivial
          apply hnoted.moveTo
          · intro found hfound
            change (system.stages process).claim = _
            rw [hstage]
            exact hfound
          · intro hfalse
            cases hfalse
          · intro found request hfound hpending
            cases hfound
            refine ⟨answer, ?_, List.mem_append_right _ (List.mem_singleton_self _)⟩
            cases answer with
            | retryAfter delay => exact ⟨delay, rfl⟩
            | delivered => cases hpending
            | refused => cases hpending
            | uncertain => cases hpending
      · cases hstep
  | finish process cooledAt finishedAt =>
      simp only [DeliverySystem.step] at hstep
      split at hstep
      · split at hstep
        · next claim request hstage =>
            split at hstep
            · next hfinish =>
                obtain rfl := Option.some_inj.mp hstep
                exact h.finish hstage hfinish
            · obtain rfl := Option.some_inj.mp hstep
              exact (h.commit (Quiet.refl _) finishedAt).release process
        · cases hstep
      · cases hstep
  | crash process =>
      obtain rfl := Option.some_inj.mp hstep
      exact h.release process

/-- **Every run.** -/
theorem run (h : Sound system) {actions : List (DeliveryAction P D T)}
    {system' : DeliverySystem P D T} (hrun : system.run settings actions = some system') :
    Sound system' := by
  induction actions generalizing system with
  | nil =>
      obtain rfl := Option.some_inj.mp hrun
      exact h
  | cons action rest ih =>
      obtain ⟨next, hstep, hrest⟩ := Option.bind_eq_some_iff.mp hrun
      exact ih (h.step hstep) hrest

end Sound

/-! ## What one action does to the tables -/

section

variable [Hashing D] [DecidableEq T] [DecidableEq P]

/-- The tables before and after one action: a transaction that commits, or none. -/
inductive Transaction (store : DeliveryStore D T) : DeliveryStore D T → Prop
  | nothing : Transaction store store
  | invalidate (disconnectedAt : Instant) : Transaction store (store.invalidate disconnectedAt)
  | enqueue {selection : RealtimeSelection D} {lifetime : Int} {now : Instant} {id : D}
      {store' : DeliveryStore D T}
      (h : store.enqueue selection lifetime now = .ok (id, store')) : Transaction store store'
  | claim {lease : Int} {token : T} {lostAt expiredAt claimedAt : Instant}
      {result : Option (DeliveryClaim D T)} {store' : DeliveryStore D T}
      (h : store.claim lease token lostAt expiredAt claimedAt = .ok (result, store')) :
      Transaction store store'
  | finish {claim : DeliveryClaim D T} {request : DeliveryStore.FinishRequest}
      {cooledAt finishedAt : Instant}
      {status : DeliveryStatus} {store' : DeliveryStore D T}
      (h : store.finish claim request cooledAt finishedAt = .ok (status, store')) :
      Transaction store store'

/-- Every action is a transaction that commits, or leaves the tables alone. -/
theorem DeliverySystem.step_transaction {settings : P → DispatchSettings}
    {system system' : DeliverySystem P D T} {action : DeliveryAction P D T}
    (hstep : system.step settings action = some system') :
    Transaction system.store system'.store := by
  cases action with
  | invalidate disconnectedAt =>
      obtain rfl := Option.some_inj.mp hstep
      exact .invalidate disconnectedAt
  | enqueue selection lifetime now =>
      simp only [DeliverySystem.step] at hstep
      split at hstep
      · split at hstep
        · next henqueue =>
            obtain rfl := Option.some_inj.mp hstep
            exact .enqueue henqueue
        · obtain rfl := Option.some_inj.mp hstep
          exact .nothing
      · cases hstep
  | claim process token lostAt expiredAt claimedAt =>
      simp only [DeliverySystem.step] at hstep
      split at hstep
      · split at hstep
        · split at hstep
          · next hclaim =>
              obtain rfl := Option.some_inj.mp hstep
              exact .claim hclaim
          · next hclaim =>
              obtain rfl := Option.some_inj.mp hstep
              exact .claim hclaim
          · obtain rfl := Option.some_inj.mp hstep
            exact .nothing
        · cases hstep
      · cases hstep
  | finish process cooledAt finishedAt =>
      simp only [DeliverySystem.step] at hstep
      split at hstep
      · split at hstep
        · split at hstep
          · next hfinish =>
              obtain rfl := Option.some_inj.mp hstep
              exact .finish hfinish
          · obtain rfl := Option.some_inj.mp hstep
            exact .nothing
        · cases hstep
      · cases hstep
  | read process readable =>
      simp only [DeliverySystem.step] at hstep
      split at hstep
      · split at hstep <;>
        · obtain rfl := Option.some_inj.mp hstep
          exact .nothing
      · cases hstep
  | maySend process now elapsed =>
      simp only [DeliverySystem.step] at hstep
      split at hstep
      · split at hstep
        · obtain rfl := Option.some_inj.mp hstep
          unfold DeliverySystem.afterWindow
          split
          · exact .nothing
          · split <;> exact .nothing
        · cases hstep
      · cases hstep
  | send process =>
      simp only [DeliverySystem.step] at hstep
      split at hstep
      · obtain rfl := Option.some_inj.mp hstep
        exact .nothing
      · cases hstep
  | answer process answer =>
      simp only [DeliverySystem.step] at hstep
      split at hstep
      · obtain rfl := Option.some_inj.mp hstep
        exact .nothing
      · cases hstep
  | crash process =>
      obtain rfl := Option.some_inj.mp hstep
      exact .nothing

end

/-! ## Terminal statuses -/

/-- Rows in a terminal status stay in it. -/
def KeepsTerminal (store store' : DeliveryStore D T) : Prop :=
  ∀ row ∈ store.rows, row.status.isTerminal = true →
    ∃ row' ∈ store'.rows, row'.toDeliveryKey = row.toDeliveryKey ∧ row'.status = row.status

namespace KeepsTerminal

open DeliveryStore

theorem refl (store : DeliveryStore D T) : KeepsTerminal store store :=
  fun row hrow _ => ⟨row, hrow, rfl, rfl⟩

theorem trans {first second third : DeliveryStore D T} (h : KeepsTerminal first second)
    (h' : KeepsTerminal second third) : KeepsTerminal first third := by
  intro row hrow hterminal
  obtain ⟨row', hrow', hkey, hstatus⟩ := h row hrow hterminal
  obtain ⟨row'', hrow'', hkey', hstatus'⟩ := h' row' hrow' (hstatus ▸ hterminal)
  exact ⟨row'', hrow'', hkey'.trans hkey, hstatus'.trans hstatus⟩

/-- Only pending and sent rows age. -/
theorem of_quiet {store store' : DeliveryStore D T} (h : Quiet store store') :
    KeepsTerminal store store' := by
  intro row hrow hterminal
  obtain ⟨row', hrow', hkey, hages⟩ := h.kept row hrow
  refine ⟨row', hrow', hkey, ?_⟩
  rcases hages.2 with hsame | ⟨hpending, -⟩ | ⟨hsending, -⟩
  · exact hsame
  · rw [hpending] at hterminal
    cases hterminal
  · cases hstatus : row.status with
    | sending =>
        rw [hstatus] at hterminal
        cases hterminal
    | resting =>
        rw [hstatus] at hsending
        cases hsending

/-- The change of one row that is not in a terminal status. -/
theorem of_one {store store' : DeliveryStore D T} {row : Delivery D T}
    (hrow : row ∈ store.rows) (hstatus : row.status.isTerminal = false)
    (hrows : ∀ found ∈ store.rows, found.selectionId ≠ row.selectionId → found ∈ store'.rows) :
    KeepsTerminal store store' := by
  intro found hfound hterminal
  refine ⟨found, hrows found hfound ?_, rfl, rfl⟩
  intro hsame
  obtain rfl := store.row_unique hfound hrow hsame
  rw [hstatus] at hterminal
  cases hterminal

variable [Hashing D]

theorem claim {store store' : DeliveryStore D T} {lease : Int} {token : T}
    {lostAt expiredAt claimedAt : Instant} {result : Option (DeliveryClaim D T)}
    (h : store.claim lease token lostAt expiredAt claimedAt = .ok (result, store')) :
    KeepsTerminal store store' := by
  obtain ⟨-, hquiet⟩ | ⟨settled, row, found, -, hquiet, hrow, hpending, -, -, -, -, -, rfl⟩ :=
    claim_cases h
  · exact of_quiet hquiet
  · apply (of_quiet hquiet).trans
    apply of_one hrow (by rw [hpending]; rfl)
    intro other hother hne
    exact mem_updateWhere.mpr (.inl ⟨hother, decide_eq_false hne⟩)

variable [DecidableEq T]

theorem finish {store store' : DeliveryStore D T} {claim : DeliveryClaim D T}
    {request : FinishRequest} {cooledAt finishedAt : Instant} {status : DeliveryStatus}
    (h : store.finish claim request cooledAt finishedAt = .ok (status, store')) :
    KeepsTerminal store store' := by
  obtain ⟨row, hrow, hleased, -, -, state, -, -, hrows⟩ := finish_cases h
  obtain ⟨hid, hsending⟩ := leasedTo_cases hleased
  apply of_one hrow
  · cases hstatus : row.status with
    | sending => rfl
    | resting =>
        rw [hstatus] at hsending
        cases hsending
  · intro other hother hne
    exact (hrows other).mpr (.inl ⟨hother, hid ▸ hne⟩)

variable [DecidableEq P] {settings : P → DispatchSettings} {system system' : DeliverySystem P D T}

/-- **One action.** -/
theorem step {action : DeliveryAction P D T}
    (hstep : system.step settings action = some system') :
    KeepsTerminal system.store system'.store := by
  have htransaction := DeliverySystem.step_transaction hstep
  generalize system.store = store, system'.store = store' at htransaction ⊢
  cases htransaction with
  | nothing => exact refl _
  | invalidate disconnectedAt => exact of_quiet (quiet_invalidate store disconnectedAt).1
  | enqueue henqueue => exact of_quiet (quiet_enqueue henqueue)
  | claim hclaim => exact claim hclaim
  | finish hfinish => exact finish hfinish

/-- **Every run.** -/
theorem run {actions : List (DeliveryAction P D T)}
    (hrun : system.run settings actions = some system') :
    KeepsTerminal system.store system'.store := by
  induction actions generalizing system with
  | nil =>
      obtain rfl := Option.some_inj.mp hrun
      exact refl _
  | cons action rest ih =>
      obtain ⟨next, hstep, hrest⟩ := Option.bind_eq_some_iff.mp hrun
      exact (step hstep).trans (ih hrest)

end KeepsTerminal

/-! ## The delivery of a selection -/

variable [Hashing D] [DecidableEq P] [DecidableEq T]

/-- **A selection is delivered at most once**, however processes, writers, crashes and
expiring leases interleave: one row is being sent at a time, terminal statuses stay, a
selection is sent again only after a rate limit that was finished as `PENDING`, attempts
count claims, and nothing is claimed or allowed that a disconnect has reached. -/
theorem shadow_delivered_at_most_once {settings : P → DispatchSettings} {clock : Instant}
    {actions : List (DeliveryAction P D T)} {system : DeliverySystem P D T}
    (hrun : (DeliverySystem.initial clock).run settings actions = some system) :
    (∀ row ∈ system.store.rows, ∀ row' ∈ system.store.rows,
      row.status.isSending = true → row'.status.isSending = true → row = row') ∧
    (∀ more later, system.run settings more = some later →
      KeepsTerminal system.store later.store) ∧
    (∀ before claim after, system.journal = before ++ .send claim :: after →
      ∀ earlier, .send earlier ∈ before → earlier.selectionId = claim.selectionId →
        RateLimited earlier before) ∧
    ((∀ row ∈ system.store.rows, row.attempts = claimsOf row.selectionId system.journal) ∧
      ∀ before claim after, system.journal = before ++ .claimed claim :: after →
        claim.attempts = claimsOf claim.selectionId before + 1) ∧
    (∀ before entry after claim, system.journal = before ++ entry :: after →
      entry = .claimed claim ∨ entry = .allowed claim →
      ∀ disconnectedAt, .invalidated disconnectedAt ∈ before →
        ∃ row ∈ system.store.rows, row.selectionId = claim.selectionId ∧
          disconnectedAt < row.decisionAt) := by
  have hsound := (Sound.initial clock).run hrun
  refine ⟨hsound.sole, ?_, ?_, ⟨hsound.counted, ?_⟩, ?_⟩
  · intro more later hlater
    exact KeepsTerminal.run hlater
  · intro before claim after hsplit
    exact hsound.warranted before (.send claim) after hsplit
  · intro before claim after hsplit
    exact (hsound.warranted before (.claimed claim) after hsplit).1
  · rintro before entry after claim hsplit (rfl | rfl)
    · exact (hsound.warranted before (.claimed claim) after hsplit).2
    · exact hsound.warranted before (.allowed claim) after hsplit

namespace Rehearsal

/-- The rehearsed selection, with evidence that is not modelled here. -/
def notified : RealtimeSelection Spelled where
  candidate := candidate
  arbitration := arbitration
  evidence := .arr [.sha (mark 7)]
  selected := request.candidate_selected

/-- The settings that `dispatch_one` has by default. -/
def notifier : DispatchSettings := ⟨seconds 5, seconds 15, 3, by decide⟩

/-- A first process is rate limited, and a second one delivers the message. -/
def notifications : List (DeliveryAction Bool Spelled Nat) := [
  .invalidate (clock (-60)),
  .enqueue notified (seconds 60) (clock 1),
  .claim false 1 (clock 2) (clock 2) (clock 2),
  .read false true,
  .maySend false (clock 2) 0,
  .send false,
  .answer false (.retryAfter (seconds 3)),
  .finish false (clock 4) (clock 4),
  .claim true 2 (clock 6) (clock 6) (clock 6),
  .claim true 3 (clock 8) (clock 8) (clock 8),
  .read true true,
  .maySend true (clock 8) 0,
  .send true,
  .answer true (.delivered "41"),
  .finish true (clock 9) (clock 9)]

/-- The selection and the attempt of an entry that sends. -/
def sentAttempt : DeliveryEntry Spelled Nat → Option (Spelled × Nat)
  | .send claim => some (claim.selectionId, claim.attempts)
  | .invalidated _ | .claimed _ | .allowed _ | .answered _ _ | .finished _ _ => none

theorem sentAttempt_eq_some {entry : DeliveryEntry Spelled Nat} {sent : Spelled × Nat}
    (h : sentAttempt entry = some sent) :
    ∃ claim, entry = .send claim ∧ claim.selectionId = sent.1 := by
  cases entry with
  | send claim =>
      obtain rfl := Option.some_inj.mp h
      exact ⟨claim, rfl, rfl⟩
  | _ => cases h

/-- The run of the two processes. -/
def delivered : Option (DeliverySystem Bool Spelled Nat) :=
  (DeliverySystem.initial (clock 0)).run (fun _ => notifier) notifications

end Rehearsal

/-- The rehearsed selection is sent twice, and the first send was rate limited. -/
theorem shadow_delivered_at_most_once_rehearsal : ∃ system, Rehearsal.delivered = some system ∧
    system.store.rows.map (·.status.isTerminal) = [true] ∧
    ∃ before claim after earlier, system.journal = before ++ .send claim :: after ∧
      .send earlier ∈ before ∧ RateLimited earlier before := by
  have hsent : Rehearsal.delivered.any (fun system =>
      system.store.rows.map (·.status.isTerminal) = [true] ∧
        system.journal.map Rehearsal.sentAttempt = [none, none, none,
          some (Rehearsal.arbitration.sha256, 1), none, none, none, none,
          some (Rehearsal.arbitration.sha256, 2), none, none]) = true := by
    decide +kernel
  cases hrun : Rehearsal.delivered with
  | none => simp [hrun] at hsent
  | some system =>
      rw [hrun, Option.any_some, decide_eq_true_eq] at hsent
      obtain ⟨hterminal, hjournal⟩ := hsent
      obtain ⟨-, -, hsends, -⟩ := shadow_delivered_at_most_once hrun
      have hentry : ∀ (n : Nat) (sent : Spelled × Nat),
          (system.journal.map Rehearsal.sentAttempt)[n]? = some (some sent) →
          ∃ claim, system.journal[n]? = some (DeliveryEntry.send claim) ∧ claim.selectionId = sent.1 := by
        intro n sent hsent
        rw [List.getElem?_map] at hsent
        obtain ⟨entry, hentry, hattempt⟩ := Option.map_eq_some_iff.mp hsent
        obtain ⟨claim, rfl, hid⟩ := Rehearsal.sentAttempt_eq_some hattempt
        exact ⟨claim, hentry, hid⟩
      obtain ⟨first, hfirst, hid⟩ := hentry 3 _ (by rw [hjournal]; rfl)
      obtain ⟨second, hsecond, hid'⟩ := hentry 8 _ (by rw [hjournal]; rfl)
      obtain ⟨hlength, hnext⟩ := List.getElem?_eq_some_iff.mp hsecond
      have hsplit : system.journal =
          system.journal.take 8 ++ .send second :: system.journal.drop 9 := by
        rw [← hnext, ← List.drop_eq_getElem_cons hlength, List.take_append_drop]
      have hearlier : DeliveryEntry.send first ∈ system.journal.take 8 := by
        apply List.mem_of_getElem? (i := 3)
        rw [List.getElem?_take_of_lt (by omega), hfirst]
      exact ⟨system, rfl, hterminal, _, second, _, first, hsplit, hearlier,
        hsends _ second _ hsplit first hearlier (hid.trans hid'.symm)⟩

end MiniLakehouse
