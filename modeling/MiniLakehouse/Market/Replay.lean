import MiniLakehouse.Market.Bars
import MiniLakehouse.Market.Session

/-!
# Replay

Captured messages through the market state core (`market/replay.py`).  The
observer of accepted events is a function over its own state, since it may raise.
A replay finalizes its bars segment by segment: `Segmented` ties them to the
market state of the session that is active.
-/

namespace MiniLakehouse

variable {D σ : Type}

/-- What `replay` keeps between two envelopes. -/
structure ReplayLoop (σ : Type) where
  state : MarketState
  bars : List Bar
  inputCount : Nat
  events : List MarketEvent
  observed : σ
  latestReceivedAt : Option Instant
  activeStreamSessionId : Option String

structure ReplayResult (σ : Type) where
  state : MarketState
  inputCount : Nat
  businessEventCount : Nat
  eventCounts : List (String × Nat)
  sessionCounts : List (String × Nat)
  issues : List String
  finalizedBars : List Bar
  observed : σ

/-- `tuple(sorted(Counter(keys).items()))` -/
def tally (keys : List String) : List (String × Nat) :=
  (sortOn (fun text : String => text) keys.eraseDups).map fun key => (key, keys.count key)

/-- `segment_covered_until.get(active_stream_session_id)` -/
def segmentBoundary (coveredUntil : String → Option Instant) (active : String) :
    Except Raised Instant :=
  match coveredUntil active with
  | none => .error (.valueError "stream segment coverage is incomplete")
  | some boundary => .ok boundary

namespace ReplayLoop

variable (configuration : TradingVersion)

def start (observed : σ) : ReplayLoop σ :=
  ⟨.initial configuration, [], 0, [], observed, none, none⟩

/-- Finalize bars at a boundary. -/
def advanceTo (loop : ReplayLoop σ) (boundary : Instant) : Except Raised (ReplayLoop σ) := do
  let (bars, state) ← loop.state.advance configuration boundary boundary
  return { loop with state := state, bars := loop.bars ++ bars }

/-- A segment that another one follows is finalized up to its covered instant. -/
def leaveSegment (loop : ReplayLoop σ) (coveredUntil : Option (String → Option Instant))
    (next : String) : Except Raised (ReplayLoop σ) :=
  match loop.activeStreamSessionId, coveredUntil with
  | some active, some covered =>
      if active = next then .ok loop
      else do
        let boundary ← segmentBoundary covered active
        require (loop.latestReceivedAt.all (· ≤ boundary))
          (Raised.valueError "stream segment coverage precedes its last receipt")
        loop.advanceTo configuration boundary
  | _, _ => .ok loop

/-- The checks on an accepted event, and its observer. -/
def observe (loop : ReplayLoop σ) (tradeDate : Option Day)
    (observer : σ → MarketEvent → Except Raised σ) : Option MarketEvent →
    Except Raised (ReplayLoop σ)
  | none => .ok loop
  | some event => do
      require (tradeDate.all (· = configuration.market.timezone.date event.eventTime))
        (Raised.valueError "market event does not belong to the captured trade date")
      let observed ← observer loop.observed event
      return { loop with events := loop.events ++ [event], observed := observed }

variable [Hashing D] [Sdk]

/-- One envelope of the loop in `replay`. -/
def step (coveredUntil : Option (String → Option Instant)) (tradeDate : Option Day)
    (observer : σ → MarketEvent → Except Raised σ) (loop : ReplayLoop σ)
    (envelope : StreamEnvelope D) : Except Raised (ReplayLoop σ) := do
  let left ← loop.leaveSegment configuration coveredUntil envelope.streamSessionId
  match left.state.apply configuration envelope with
  | (.error raised, _) => throw raised
  | (.ok update, state) =>
      let received := { left with
        state := state
        inputCount := left.inputCount + 1
        latestReceivedAt := some envelope.receivedAt
        activeStreamSessionId := some envelope.streamSessionId }
      let noted ← received.observe configuration tradeDate observer update.event
      return { noted with bars := noted.bars ++ update.finalizedBars }

end ReplayLoop

/-- The instant that the last segment is finalized at. -/
def effectiveFinish (loop : ReplayLoop σ) (finishAt : Option Instant)
    (coveredUntil : Option (String → Option Instant)) : Except Raised (Option Instant) :=
  match loop.activeStreamSessionId, coveredUntil with
  | some active, some covered => do
      let boundary ← segmentBoundary covered active
      return some (finishAt.elim boundary (min · boundary))
  | _, _ => .ok finishAt

/-- Finalize the bars of the last segment. -/
def ReplayLoop.finish (configuration : TradingVersion) (loop : ReplayLoop σ)
    (finishAt : Option Instant) : Except Raised (ReplayLoop σ) :=
  match finishAt with
  | none => .ok loop
  | some finish => do
      require (loop.latestReceivedAt.all (· ≤ finish))
        (Raised.valueError "finish_at must not precede the last captured receipt")
      loop.advanceTo configuration finish

/-- `replay` -/
def replay [Hashing D] [Sdk] (envelopes : List (StreamEnvelope D))
    (configuration : TradingVersion) (finishAt : Option Instant)
    (segmentCoveredUntil : Option (String → Option Instant)) (tradeDate : Option Day)
    (observer : σ → MarketEvent → Except Raised σ) (observed : σ) :
    Except Raised (ReplayResult σ) := do
  let loop ← envelopes.foldlM
    (ReplayLoop.step configuration segmentCoveredUntil tradeDate observer)
    (.start configuration observed)
  let finish ← effectiveFinish loop finishAt segmentCoveredUntil
  let finished ← loop.finish configuration finish
  let market := configuration.market
  return {
    state := finished.state
    inputCount := finished.inputCount
    businessEventCount := finished.events.length
    eventCounts := tally (finished.events.map (·.typeName))
    sessionCounts := tally (finished.events.map fun event =>
      (market.sessionAt event.eventTime (market.timezone.date event.eventTime)).text)
    issues := finished.state.integrityIssues
    finalizedBars := finished.bars
    observed := finished.observed }

/-! ## Segments -/

/-- The sessions of the uninterrupted segments of a stream, in order. -/
def segmentIds (envelopes : List (StreamEnvelope D)) : List String :=
  envelopes.foldl (fun ids envelope =>
    if envelope.streamSessionId ∈ ids.getLast? then ids
    else ids ++ [envelope.streamSessionId]) []

theorem segmentIds_snoc (envelopes : List (StreamEnvelope D)) (envelope : StreamEnvelope D) :
    segmentIds (envelopes ++ [envelope]) =
      if envelope.streamSessionId ∈ (segmentIds envelopes).getLast? then segmentIds envelopes
      else segmentIds envelopes ++ [envelope.streamSessionId] := by
  simp [segmentIds]

theorem segmentIds_eq_nil {envelopes : List (StreamEnvelope D)} :
    segmentIds envelopes = [] ↔ envelopes = [] := by
  constructor
  · intro h
    induction envelopes using List.reverseRecOn with
    | nil => rfl
    | append_singleton envelopes envelope ih =>
        rw [segmentIds_snoc] at h
        split at h
        · next hlast => simp [h] at hlast
        · simp at h
  · rintro rfl
    rfl

/-- Symbol and start of a finalized bar. -/
def Bar.key (bar : Bar) : String × Instant := (bar.symbol, bar.start)

variable {configuration : TradingVersion}

/-- The bars finalized so far: those of the segments left, each without a key
twice, and those that the active segment's market state has recorded. -/
structure Segmented (configuration : TradingVersion) (envelopes : List (StreamEnvelope D))
    (loop : ReplayLoop σ) : Prop where
  active : loop.activeStreamSessionId = (segmentIds envelopes).getLast?
  marketActive : loop.state.activeStreamSessionId = (segmentIds envelopes).getLast?
  segments : ∃ (left : List (String × List Bar)) (log : MarketLog),
    loop.bars = left.flatMap Prod.snd ++ log.finalized ∧
    left.map Prod.fst = (segmentIds envelopes).dropLast ∧
    (∀ segment ∈ left, (segment.2.map Bar.key).Nodup) ∧
    MarketRecorded configuration loop.state log

/-- A replay without envelopes finalizes nothing. -/
theorem ReplayLoop.finish_start {observed : σ} {finishAt : Option Instant}
    {finished : ReplayLoop σ}
    (h : (ReplayLoop.start configuration observed).finish configuration finishAt = .ok finished) :
    finished.bars = [] := by
  have hnothing : ∀ eventTime availableAt : Instant,
      (configuration.market.symbols.filterMap fun symbol =>
        (MarketState.freshSymbols configuration symbol).bind (·.closing eventTime availableAt)) =
          [] := by
    intro eventTime availableAt
    rw [List.filterMap_eq_nil_iff]
    intro symbol hsymbol
    simp [MarketState.freshSymbols, hsymbol, SymbolState.closing, SymbolState.initial]
  simp only [ReplayLoop.finish] at h
  split at h
  · obtain rfl := Except.ok.inj h
    rfl
  · simp only [ReplayLoop.start, ReplayLoop.advanceTo, MarketState.advance, MarketState.initial,
      hnothing, bind_eq_ok, pure_eq_ok] at h
    obtain ⟨_, -, _, ⟨_, -, rfl⟩, rfl⟩ := h
    rfl

theorem Segmented.start (observed : σ) :
    Segmented configuration ([] : List (StreamEnvelope D)) (.start configuration observed) where
  active := rfl
  marketActive := rfl
  segments := ⟨[], ⟨[], []⟩, rfl, rfl, by simp, .fresh rfl⟩

/-- A boundary adds to the bars of the active segment. -/
theorem Segmented.advanceTo {envelopes : List (StreamEnvelope D)} {loop loop' : ReplayLoop σ}
    (h : Segmented configuration envelopes loop) {boundary : Instant}
    (hadvance : loop.advanceTo configuration boundary = .ok loop') :
    Segmented configuration envelopes loop' ∧
      loop'.latestReceivedAt = loop.latestReceivedAt := by
  simp only [ReplayLoop.advanceTo, bind_eq_ok, pure_eq_ok] at hadvance
  obtain ⟨⟨bars, state⟩, hbars, rfl⟩ := hadvance
  obtain ⟨left, log, hsplit, hids, hunique, hrecorded⟩ := h.segments
  refine ⟨⟨h.active, ?_, left, log.advanced bars, ?_, hids, hunique, hrecorded.advance hbars⟩, rfl⟩
  · exact (MarketState.advance_active hbars).trans h.marketActive
  · simp [hsplit, MarketLog.advanced]

theorem Segmented.leaveSegment {envelopes : List (StreamEnvelope D)} {loop loop' : ReplayLoop σ}
    (h : Segmented configuration envelopes loop)
    {coveredUntil : Option (String → Option Instant)} {next : String}
    (hleave : loop.leaveSegment configuration coveredUntil next = .ok loop') :
    Segmented configuration envelopes loop' := by
  simp only [ReplayLoop.leaveSegment] at hleave
  split at hleave
  · split at hleave
    · obtain rfl := Except.ok.inj hleave
      exact h
    · simp only [bind_eq_ok] at hleave
      obtain ⟨boundary, -, _, -, hadvance⟩ := hleave
      exact (h.advanceTo hadvance).1
  · obtain rfl := Except.ok.inj hleave
    exact h

section

variable [Hashing D] [Sdk]

/-- **One envelope** adds the bar that it finalizes to its own segment. -/
theorem Segmented.apply {envelopes : List (StreamEnvelope D)} {loop : ReplayLoop σ}
    (h : Segmented configuration envelopes loop) (envelope : StreamEnvelope D)
    {update : MarketUpdate} {state : MarketState}
    (happly : loop.state.apply configuration envelope = (.ok update, state))
    {loop' : ReplayLoop σ} (hstate : loop'.state = state)
    (hbars : loop'.bars = loop.bars ++ update.finalizedBars)
    (hactive : loop'.activeStreamSessionId = some envelope.streamSessionId) :
    Segmented configuration (envelopes ++ [envelope]) loop' := by
  have hlast : (segmentIds (envelopes ++ [envelope])).getLast? =
      some envelope.streamSessionId := by
    rw [segmentIds_snoc]
    split
    · next hsame => exact hsame
    · simp
  have hmarket : state.activeStreamSessionId = some envelope.streamSessionId := by
    have hactivated := MarketState.apply_active configuration loop.state envelope
    rwa [happly] at hactivated
  obtain ⟨left, log, hsplit, hids, hunique, hrecorded⟩ := h.segments
  -- A segment goes on unless another one was active.
  have hstays : (∀ active ∈ loop.state.activeStreamSessionId,
      active = envelope.streamSessionId) →
      MarketRecorded configuration state (log.applied (.ok update)) := by
    intro hsame
    have happlied := MarketRecorded.apply envelope
      (hrecorded.of_symbols (MarketState.activate_symbols configuration hsame))
    rwa [happly] at happlied
  refine ⟨hactive.trans hlast.symm, by rw [hstate, hmarket, hlast], ?_⟩
  rw [hstate, hbars, hsplit]
  cases hended : (segmentIds envelopes).getLast? with
  | none =>
      have hempty : segmentIds envelopes = [] := List.getLast?_eq_none_iff.mp hended
      refine ⟨left, log.applied (.ok update), by simp [MarketLog.applied], ?_, hunique,
        hstays (by simp [h.marketActive, hended])⟩
      rw [hids, segmentIds_snoc, hempty]
      simp
  | some active =>
      by_cases hsame : active = envelope.streamSessionId
      · refine ⟨left, log.applied (.ok update), by simp [MarketLog.applied], ?_, hunique,
          hstays (by simp [h.marketActive, hended, hsame])⟩
        rw [hids, segmentIds_snoc, if_pos (by rw [hended, hsame]; rfl)]
      · have hreset : (loop.state.activate configuration envelope.streamSessionId).symbols =
            MarketState.freshSymbols configuration := by
          rw [MarketState.activate]
          apply if_pos
          simp [h.marketActive, hended, hsame]
        have happlied := MarketRecorded.apply envelope (.fresh hreset)
        rw [happly] at happlied
        refine ⟨left ++ [(active, log.finalized)], _, by simp [MarketLog.applied], ?_, ?_,
          happlied⟩
        · rw [segmentIds_snoc, if_neg (by rw [hended]; simpa using hsame), List.dropLast_concat,
            List.map_append, hids]
          exact List.dropLast_append_getLast? active hended
        · intro segment hmem
          rcases List.mem_append.mp hmem with hmem | hmem
          · exact hunique segment hmem
          · rw [List.mem_singleton.mp hmem]
            exact hrecorded.bars_unique

theorem Segmented.step {envelopes : List (StreamEnvelope D)} {loop loop' : ReplayLoop σ}
    (h : Segmented configuration envelopes loop)
    {coveredUntil : Option (String → Option Instant)} {tradeDate : Option Day}
    {observer : σ → MarketEvent → Except Raised σ} {envelope : StreamEnvelope D}
    (hstep : loop.step configuration coveredUntil tradeDate observer envelope = .ok loop') :
    Segmented configuration (envelopes ++ [envelope]) loop' := by
  simp only [ReplayLoop.step, bind_eq_ok] at hstep
  obtain ⟨left, hleave, hstep⟩ := hstep
  have hleft := h.leaveSegment hleave
  split at hstep
  · simp at hstep
  · next update state happly =>
      simp only [bind_eq_ok, pure_eq_ok] at hstep
      obtain ⟨noted, hnoted, rfl⟩ := hstep
      have hkept : noted.state = state ∧ noted.bars = left.bars ∧
          noted.activeStreamSessionId = some envelope.streamSessionId := by
        cases hevent : update.event with
        | none =>
            rw [hevent] at hnoted
            obtain rfl := Except.ok.inj hnoted
            exact ⟨rfl, rfl, rfl⟩
        | some event =>
            simp only [hevent, ReplayLoop.observe, bind_eq_ok, pure_eq_ok] at hnoted
            obtain ⟨_, -, _, -, rfl⟩ := hnoted
            exact ⟨rfl, rfl, rfl⟩
      exact hleft.apply envelope happly hkept.1 (by rw [hkept.2.1]) hkept.2.2

end

namespace Rehearsal

/-- The trades around a reconnect; the third repeats a minute that was left. -/
def reconnectTrades : List TradeMessage :=
  [tradeMessage "09:00:30" 50000 10 "B" 10, tradeMessage "09:01:10" 50200 5 "B" 15,
    tradeMessage "09:00:59" 50100 7 "S" 22, tradeMessage "09:02:10" 50300 4 "B" 26]

private def received (streamSessionId : String) (receiveSequence : Nat) (message : TradeMessage)
    (localTime : String) (receivedAt : Int)
    (h : streamSessionId ≠ "" ∧ 1 ≤ receiveSequence ∧ "TradeMessage" ≠ "" ∧
      2 ≤ (tradeText message).length) : StreamEnvelope Spelled :=
  envelope streamSessionId receiveSequence "TradeMessage" (tradeText message) localTime receivedAt h

private theorem open_received : "session-1" ≠ "" ∧ 1 ≤ 1 ∧ "TradeMessage" ≠ "" ∧
    2 ≤ (tradeText (tradeMessage "09:00:30" 50000 10 "B" 10)).length := by decide +kernel

private theorem late_received : "session-1" ≠ "" ∧ 1 ≤ 2 ∧ "TradeMessage" ≠ "" ∧
    2 ≤ (tradeText (tradeMessage "09:01:10" 50200 5 "B" 15)).length := by decide +kernel

private theorem again_received : "session-2" ≠ "" ∧ 1 ≤ 1 ∧ "TradeMessage" ≠ "" ∧
    2 ≤ (tradeText (tradeMessage "09:00:59" 50100 7 "S" 22)).length := by decide +kernel

private theorem last_received : "session-2" ≠ "" ∧ 1 ≤ 2 ∧ "TradeMessage" ≠ "" ∧
    2 ≤ (tradeText (tradeMessage "09:02:10" 50300 4 "B" 26)).length := by decide +kernel

/-- Two segments, received in order. -/
def reconnected : List (StreamEnvelope Spelled) := [
  received "session-1" 1 (tradeMessage "09:00:30" 50000 10 "B" 10) "09:00:30" 7231
    open_received,
  received "session-1" 2 (tradeMessage "09:01:10" 50200 5 "B" 15) "09:01:10" 7271
    late_received,
  received "session-2" 1 (tradeMessage "09:00:59" 50100 7 "S" 22) "09:00:59" 7320
    again_received,
  received "session-2" 2 (tradeMessage "09:02:10" 50300 4 "B" 26) "09:02:10" 7331
    last_received]

/-- The instants that the segments cover. -/
def reconnectCovered (streamSessionId : String) : Option Instant :=
  if streamSessionId = "session-1" then some (20700 * dayLength + seconds 7300)
  else if streamSessionId = "session-2" then some (20700 * dayLength + seconds 7500)
  else none

/-- The replay of the two segments. -/
def reconnectReplay : Except Raised (ReplayResult Unit) :=
  @replay Spelled Unit _ (sdk reconnectTrades []) reconnected Trading.marketState none
    (some reconnectCovered) (some 20700) (fun _ _ => .ok ()) ()

end Rehearsal

end MiniLakehouse
