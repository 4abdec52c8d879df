import MiniLakehouse.Market.Replay

/-!
# Accepted events

The events that market state accepts of a stream, the state a replay without
boundaries reaches, and what its observer sees.  Where no integrity issue was
found, every message that decodes to an event was accepted (`accepted_decoded`),
so that what is accepted up to an instant depends on nothing received after it.
-/

namespace MiniLakehouse

variable {D σ : Type} [Hashing D] [Sdk] (configuration : TradingVersion)

/-- Market state after an envelope that does not raise, with the event accepted. -/
def acceptEnvelope (run : MarketState × List MarketEvent) (envelope : StreamEnvelope D) :
    MarketState × List MarketEvent :=
  match run.1.apply configuration envelope with
  | (.error _, state) => (state, run.2)
  | (.ok update, state) => (state, run.2 ++ update.event.toList)

/-- Market state after a stream, with all events that it accepted. -/
def acceptAll (envelopes : List (StreamEnvelope D)) : MarketState × List MarketEvent :=
  envelopes.foldl (acceptEnvelope configuration) (.initial configuration, [])

/-- The event that an envelope's message decodes to, if it has one. -/
def decodedEvent (envelope : StreamEnvelope D) : Option MarketEvent :=
  if envelope.subscriptionContext = .indices then none
  else
    match decodeEvent envelope configuration.market.quoteDepth configuration.market.timezone with
    | .ok event => event
    | .error _ => none

/-- A replay without boundaries, in terms of the events that market state accepted. -/
structure Observes (observer : σ → MarketEvent → Except Raised σ) (observed : σ)
    (envelopes : List (StreamEnvelope D)) (loop : ReplayLoop σ) : Prop where
  accepted : (loop.state, loop.events) = acceptAll configuration envelopes
  observed : loop.events.foldlM observer observed = .ok loop.observed
  decoded : loop.state.integritySet = [] →
    loop.events = envelopes.filterMap (decodedEvent configuration)

variable {configuration}

omit [Hashing D] [Sdk] in
theorem MarketState.recordSequence_integrity (state : MarketState) (envelope : StreamEnvelope D) :
    (state.recordSequence envelope).integritySet =
      state.integritySet ∪ state.sequenceIssues envelope := by
  unfold MarketState.recordSequence
  dsimp only
  split <;> rfl

omit [Hashing D] [Sdk] in
theorem union_eq_nil {xs ys : List MarketIssue} (h : xs ∪ ys = []) : xs = [] ∧ ys = [] := by
  have hnone : ∀ issue, ¬(issue ∈ xs ∨ issue ∈ ys) := by
    intro issue hmem
    have hunion := List.mem_union_iff.mpr hmem
    rw [h] at hunion
    cases hunion
  constructor
  · exact List.eq_nil_iff_forall_not_mem.mpr fun issue hmem => hnone issue (.inl hmem)
  · exact List.eq_nil_iff_forall_not_mem.mpr fun issue hmem => hnone issue (.inr hmem)

/-- **Integrity issues stay**, and an envelope that adds none has its event accepted. -/
theorem MarketState.apply_integrity {state : MarketState} {envelope : StreamEnvelope D}
    {update : MarketUpdate} {after : MarketState}
    (happly : state.apply configuration envelope = (.ok update, after))
    (hintegrity : after.integritySet = []) :
    state.integritySet = [] ∧ update.event = decodedEvent configuration envelope := by
  -- What the sequence and the receipt leave behind.
  have hrecorded : ∀ {received : MarketState},
      (state.activate configuration envelope.streamSessionId).recordSequence envelope = received →
      received.integritySet = [] → state.integritySet = [] ∧
        (state.activate configuration envelope.streamSessionId).sequenceIssues envelope = [] := by
    rintro _ rfl hnone
    rw [MarketState.recordSequence_integrity] at hnone
    exact union_eq_nil hnone
  simp only [MarketState.apply] at happly
  unfold decodedEvent
  split at happly
  · next hissues =>
      obtain ⟨-, rfl⟩ := Prod.mk.inj happly
      obtain ⟨-, hnone⟩ := hrecorded rfl hintegrity
      simp [hnone] at hissues
  · split at happly
    · next hindices =>
        obtain ⟨hupdate, rfl⟩ := Prod.mk.inj happly
        obtain rfl := Except.ok.inj hupdate
        rw [if_pos hindices]
        exact ⟨(hrecorded rfl hintegrity).1, rfl⟩
    · next hsymbols =>
        rw [if_neg hsymbols]
        split at happly
        · cases happly
        · next hdecode =>
            obtain ⟨hupdate, rfl⟩ := Prod.mk.inj happly
            obtain rfl := Except.ok.inj hupdate
            exact ⟨(hrecorded rfl hintegrity).1, by rw [hdecode]⟩
        · next event hdecode =>
            simp only [MarketState.applyEvent] at happly
            split at happly
            · split at happly
              · cases happly
              · obtain ⟨hupdate, rfl⟩ := Prod.mk.inj happly
                obtain rfl := Except.ok.inj hupdate
                obtain ⟨hreceived, hobserved⟩ := union_eq_nil hintegrity
                refine ⟨(hrecorded rfl hreceived).1, ?_⟩
                rw [hdecode]
                exact if_pos (union_eq_nil hobserved).2
            · cases happly

theorem acceptAll_snoc (envelopes : List (StreamEnvelope D)) (envelope : StreamEnvelope D) :
    acceptAll configuration (envelopes ++ [envelope]) =
      acceptEnvelope configuration (acceptAll configuration envelopes) envelope := by
  simp [acceptAll]

theorem Observes.step {observer : σ → MarketEvent → Except Raised σ} {observed : σ}
    {tradeDate : Option Day} {envelopes : List (StreamEnvelope D)} {loop loop' : ReplayLoop σ}
    (h : Observes configuration observer observed envelopes loop)
    {envelope : StreamEnvelope D}
    (hstep : loop.step configuration none tradeDate observer envelope = .ok loop') :
    Observes configuration observer observed (envelopes ++ [envelope]) loop' := by
  have hleft : loop.leaveSegment configuration none envelope.streamSessionId = .ok loop := by
    unfold ReplayLoop.leaveSegment
    split
    · next hcovered => cases hcovered
    · rfl
  simp only [ReplayLoop.step, hleft, ok_bind] at hstep
  cases happly : loop.state.apply configuration envelope with
  | mk result after =>
      rw [happly] at hstep
      cases result with
      | error raised => exact absurd hstep throw_ne_ok
      | ok update =>
          obtain ⟨noted, hnoted, hloop⟩ := bind_eq_ok.mp hstep
          obtain rfl := pure_eq_ok.mp hloop
          have haccept : acceptAll configuration (envelopes ++ [envelope]) =
              (after, loop.events ++ update.event.toList) := by
            rw [acceptAll_snoc, ← h.accepted, acceptEnvelope, happly]
          have hdecoded : after.integritySet = [] → loop.events ++ update.event.toList =
              (envelopes ++ [envelope]).filterMap (decodedEvent configuration) := by
            intro hintegrity
            obtain ⟨hbefore, hevent⟩ := MarketState.apply_integrity happly hintegrity
            rw [h.decoded hbefore, hevent, List.filterMap_append]
            cases hnext : decodedEvent configuration envelope <;> simp [hnext]
          cases hevent : update.event with
          | none =>
              rw [hevent] at hnoted haccept hdecoded
              obtain rfl := Except.ok.inj hnoted
              simp only [Option.toList_none, List.append_nil] at haccept hdecoded
              exact ⟨haccept.symm, h.observed, hdecoded⟩
          | some event =>
              rw [hevent] at hnoted haccept hdecoded
              simp only [ReplayLoop.observe, bind_eq_ok, pure_eq_ok] at hnoted
              obtain ⟨_, -, observed', hobserved, rfl⟩ := hnoted
              refine ⟨haccept.symm, ?_, hdecoded⟩
              dsimp only
              rw [foldlM_snoc, h.observed]
              exact hobserved

omit [Hashing D] [Sdk] in
/-- No text is left of the issues only where there is no issue. -/
theorem MarketState.integrityIssues_eq_nil {state : MarketState} (h : state.integrityIssues = []) :
    state.integritySet = [] := by
  have hperm := sortOn_perm (fun text : String => text) (state.integritySet.map (·.text))
  rw [← MarketState.integrityIssues, h] at hperm
  exact List.map_eq_nil_iff.mp (List.nil_perm.mp hperm)

/-- **A replay without boundaries** shows its observer the events that market state
accepts; where it reports no issue, these are all that the stream decodes to. -/
theorem replay_observes {envelopes : List (StreamEnvelope D)} {tradeDate : Option Day}
    {observer : σ → MarketEvent → Except Raised σ} {observed : σ} {result : ReplayResult σ}
    (h : replay envelopes configuration none none tradeDate observer observed = .ok result) :
    (acceptAll configuration envelopes).2.foldlM observer observed = .ok result.observed ∧
      (result.issues = [] → (acceptAll configuration envelopes).2 =
        envelopes.filterMap (decodedEvent configuration)) := by
  simp only [replay, bind_eq_ok, pure_eq_ok] at h
  obtain ⟨loop, hloop, finish, hfinish, finished, hfinished, rfl⟩ := h
  have hnone : finish = none := by
    unfold effectiveFinish at hfinish
    split at hfinish
    · next hcovered => cases hcovered
    · exact (Except.ok.inj hfinish).symm
  subst hnone
  obtain rfl := Except.ok.inj hfinished
  have hobserves : Observes configuration observer observed envelopes loop := by
    refine foldlM_prefix_invariant (I := Observes configuration observer observed)
      ⟨rfl, rfl, fun _ => rfl⟩ ?_ hloop
    intro done envelope before after hbefore hstep
    exact hbefore.step hstep
  have hevents : (acceptAll configuration envelopes).2 = loop.events :=
    congrArg Prod.snd hobserves.accepted.symm
  rw [hevents]
  refine ⟨hobserves.observed, ?_⟩
  intro hissues
  exact hobserves.decoded (MarketState.integrityIssues_eq_nil hissues)

end MiniLakehouse
