import MiniLakehouse.Execution.Matching
import MiniLakehouse.Execution.Lifecycle

/-!
# What a matched quote writes

`lifecycleEvent_eq_ok` takes the event constructor apart.  A quote that matches
an order writes one event: a fill that is tied to the quote (`FilledFrom`), or
the expiry or cancellation of the order.
-/

namespace MiniLakehouse

variable {D : Type} [Hashing D]

/-- The event that `lifecycle_event` builds on a state. -/
def lifecycleFields (intent : PaperOrderIntent D) (state : PaperOrderState D)
    (eventType : PaperEventType) (at' : Instant) (reason : Option String)
    (fill : Option (PaperFillEvidence D)) : PaperOrderEventFields D where
  intentSha256 := intent.sha256
  sequence := state.eventCount + 1
  eventType := eventType
  occurredAt := at'
  cumulativeFilledQuantity := (filledWith state fill).1
  averageFillPrice := (filledWith state fill).2
  reason := reason
  adapterEventId :=
    .topOfBook (eventEvidence intent state.lastEventSha256 eventType at' reason fill)
  adapterEvidenceSha256 :=
    eventEvidence intent state.lastEventSha256 eventType at' reason fill
  fillEvidence := fill

/-- **One lifecycle event**: built on the reduced history, and accepted by it. -/
theorem lifecycleEvent_eq_ok {intent : PaperOrderIntent D} {events : List (PaperOrderEvent D)}
    {eventType : PaperEventType} {at' : Instant} {reason : Option String}
    {fill : Option (PaperFillEvidence D)} {event : PaperOrderEvent D} :
    lifecycleEvent intent events eventType at' reason fill = .ok event ↔
      ∃ state, reducePaperOrder intent events = .ok state ∧
        event.toPaperOrderEventFields =
          lifecycleFields intent state eventType at' reason fill ∧
        ∃ after, reducePaperOrder intent (events ++ [event]) = .ok after := by
  simp only [lifecycleEvent, bind_eq_ok, pure_eq_ok, PaperOrderEvent.modelValidate,
    validated_eq_ok]
  constructor
  · rintro ⟨state, hstate, built, ⟨hvalid, rfl⟩, after, hafter, rfl⟩
    exact ⟨state, hstate, rfl, after, hafter⟩
  · rintro ⟨state, hstate, hfields, after, hafter⟩
    refine ⟨state, hstate, event, ⟨?_, ?_⟩, after, hafter, rfl⟩
    · have hvalid := event.valid
      rw [hfields] at hvalid
      exact hvalid
    · cases event
      cases hfields
      rfl

/-- A fill of an order against a quote under a policy, out of what was available. -/
structure FilledFrom (market : PaperMarketSnapshot D) (policy : PaperExecutionVersion)
    (intent : PaperOrderIntent D) (available : Int) (event : PaperOrderEvent D)
    (fill : PaperFillEvidence D) : Prop where
  addressed : event.intentSha256 = intent.sha256
  occurred : event.occurredAt = market.observedAt
  symbol : fill.symbol = market.symbol
  action : fill.action = intent.action
  stream : fill.streamSessionId = market.streamSessionId
  sequence : fill.receiveSequence = market.receiveSequence
  received : fill.observedAt = market.quoteReceivedAt
  source : fill.sourceSha256 = market.sourceSha256
  lots : ∃ n, 0 < n ∧ fill.filledQuantity = n * policy.lotSize
  taken : (fill.filledQuantity : Int) ≤ available
  capacity : (fill.availableQuantity : Int) = available
  displayed : available ≤ market.bestQuantity intent.action
  price : fill.fillPrice = market.bestPrice intent.action
  within_limit : ¬ViolatesLimit intent fill.fillPrice
  created_before : intent.createdAt < market.quoteReceivedAt
  recent : market.observedAt - market.quoteReceivedAt ≤ seconds policy.maximumQuoteAgeSeconds
  before_expiry : market.observedAt < intent.expiresAt

omit [Hashing D] in
theorem beyondLimit_iff {intent : PaperOrderIntent D} {price : Rat} :
    beyondLimit intent price = true ↔ ViolatesLimit intent price := by
  unfold beyondLimit ViolatesLimit
  cases intent.action <;> simp

omit [Hashing D] in
/-- What is matched is whole lots of what is available. -/
theorem matchedQuantity_spec {intent : PaperOrderIntent D} {state : PaperOrderState D}
    {policy : PaperExecutionVersion} {available : Nat}
    (h : matchedQuantity intent state policy available ≠ 0) :
    matchedQuantity intent state policy available ≤ available ∧
      matchedQuantity intent state policy available ≤
        intent.quantity - state.cumulativeFilledQuantity ∧
      ∃ n, 0 < n ∧ matchedQuantity intent state policy available = n * policy.lotSize := by
  unfold matchedQuantity at *
  have hfloor := Nat.div_mul_le_self
    (min (intent.quantity - state.cumulativeFilledQuantity) available) policy.lotSize
  refine ⟨by omega, by omega, _, ?_, rfl⟩
  exact Nat.pos_of_ne_zero fun hzero => h (by rw [hzero, Nat.zero_mul])

/-- **One matched order.**  Its event fills it from the quote, or ends it. -/
theorem matchQuote_some {intent : PaperOrderIntent D} {events : List (PaperOrderEvent D)}
    {market : PaperMarketSnapshot D} {policy : PaperExecutionVersion}
    {context : ContextVersion} {available : Int} {event : PaperOrderEvent D}
    (h : matchQuote intent events market policy context available = .ok (some event)) :
    event.fillEvidence = none ∨ ∃ fill, event.fillEvidence = some fill ∧
      FilledFrom market policy intent available event fill := by
  simp only [matchQuote, bind_eq_ok] at h
  obtain ⟨state, hstate, h⟩ := h
  split at h
  · simp at h
  simp only [bind_eq_ok, require_eq_ok] at h
  obtain ⟨-, ⟨hpolicy, hsymbol⟩, -, htime, h⟩ := h
  split at h
  · simp only [bind_eq_ok, pure_eq_ok, Option.some.injEq] at h
    obtain ⟨built, hbuilt, rfl⟩ := h
    obtain ⟨_, -, hfields, -⟩ := lifecycleEvent_eq_ok.mp hbuilt
    exact .inl (by rw [hfields]; rfl)
  next hopen =>
  simp only [bind_eq_ok, require_eq_ok] at h
  obtain ⟨-, -, h⟩ := h
  split at h
  · simp only [bind_eq_ok, pure_eq_ok, Option.some.injEq] at h
    obtain ⟨built, hbuilt, rfl⟩ := h
    obtain ⟨_, -, hfields, -⟩ := lifecycleEvent_eq_ok.mp hbuilt
    exact .inl (by rw [hfields]; rfl)
  split at h
  · simp at h
  next hrecent =>
  simp only [bind_eq_ok, require_eq_ok] at h
  obtain ⟨-, ⟨hnonneg, hdisplayed⟩, h⟩ := h
  split at h
  · simp at h
  next hlimit =>
  split at h
  · simp at h
  next hquantity =>
  split at h
  · simp at h
  simp only [bind_eq_ok, pure_eq_ok, Option.some.injEq, PaperFillEvidence.modelValidate,
    validated_eq_ok] at h
  obtain ⟨fill, ⟨hvalid, rfl⟩, built, hbuilt, rfl⟩ := h
  obtain ⟨_, -, hfields, -⟩ := lifecycleEvent_eq_ok.mp hbuilt
  obtain ⟨htaken, -, hlots⟩ := matchedQuantity_spec hquantity
  simp only [not_or, not_le, isStaleQuote, decide_eq_true_eq, not_lt] at hrecent
  refine .inr ⟨_, by rw [hfields]; rfl, ?_⟩
  constructor
  case addressed => rw [hfields]; rfl
  case occurred => rw [hfields]; rfl
  case symbol => exact hsymbol.symm
  case action => rfl
  case stream => rfl
  case sequence => rfl
  case received => rfl
  case source => rfl
  case lots => exact hlots
  case taken =>
    have hcast := Int.toNat_of_nonneg hnonneg
    show ((matchedQuantity intent state policy available.toNat : Nat) : Int) ≤ available
    omega
  case capacity => exact Int.toNat_of_nonneg hnonneg
  case displayed => exact hdisplayed
  case price => rfl
  case within_limit => exact fun hviolates => hlimit (beyondLimit_iff.mpr hviolates)
  case created_before => exact hrecent.1
  case recent => exact hrecent.2
  case before_expiry => exact not_le.mp hopen

end MiniLakehouse
