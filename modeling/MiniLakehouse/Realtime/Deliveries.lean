import MiniLakehouse.Notifications.Delivery
import MiniLakehouse.Realtime.Worker

/-!
# Realtime deliveries

What a run of the worker notes is justified entry by entry: `EntryWarranted` says what has to
precede a call of the sink, its success and a count.  `Sound` is the invariant of the
worker's state and its journal, kept by every step of every thread, so that the order in
which they come does not matter.
-/

namespace MiniLakehouse

variable {D : Type} [Hashing D]

namespace RealtimeEvent

/-- The worker is stopped. -/
def stops : RealtimeEvent D → Bool
  | .overflowed | .stopped => true
  | _ => false

/-- A producer, or `close`, may note it at any time. -/
def ofProducer : RealtimeEvent D → Bool
  | .disconnected _ | .overflowed | .stopped => true
  | _ => false

def isDequeue : RealtimeEvent D → Bool
  | .dequeued _ => true
  | _ => false

def isCount : RealtimeEvent D → Bool
  | .counted _ _ => true
  | _ => false

/-- The symbol whose selections are not delivered any more. -/
def disables : RealtimeEvent D → Option String
  | .faulted selection | .conflicted selection => some selection.symbol
  | _ => none

/-- The entry adds one to a counter. -/
def addsTo (counter : RealtimeCounter) : RealtimeEvent D → Bool
  | .counted _ found => found = counter
  | _ => false

end RealtimeEvent

/-- The last check of a selection, which nothing but producers follows: the worker was not
stopped, the selection was within its delay, and it was later than every disconnect. -/
def FreshlyChecked (options : RealtimeOptions) (journal : List (RealtimeEvent D))
    (selection : RealtimeSelection D) : Prop :=
  ∃ earlier now since, journal = earlier ++ .checked selection now :: since ∧
    (∀ e ∈ since, e.ofProducer = true) ∧ (∀ e ∈ earlier, e.stops = false) ∧
    (0 ≤ now - selection.decisionAt ∧ now - selection.decisionAt ≤ options.maximumDelay) ∧
    ∀ at', .disconnected at' ∈ earlier → at' < selection.decisionAt

/-- A selection is the last one dequeued, and has not been counted since. -/
def InHand (journal : List (RealtimeEvent D)) (selection : RealtimeSelection D) : Prop :=
  ∃ earlier since, journal = earlier ++ .dequeued selection :: since ∧
    ∀ e ∈ since, e.isDequeue = false ∧ e.isCount = false

/-- A selection is the last one dequeued, before any stop, and has not been counted since. -/
def TakenLive (journal : List (RealtimeEvent D)) (selection : RealtimeSelection D) : Prop :=
  ∃ earlier since, journal = earlier ++ .dequeued selection :: since ∧
    (∀ e ∈ earlier, e.stops = false) ∧ ∀ e ∈ since, e.isDequeue = false ∧ e.isCount = false

/-- No selection of the symbol at or after the decision has been delivered. -/
def Undelivered (journal : List (RealtimeEvent D)) (selection : RealtimeSelection D) : Prop :=
  ∀ other, .succeeded other ∈ journal → other.symbol = selection.symbol →
    other.decisionAt < selection.decisionAt

/-- What an entry of the journal rests on. -/
def EntryWarranted (options : RealtimeOptions) (before : List (RealtimeEvent D)) :
    RealtimeEvent D → Prop
  | .called selection =>
      FreshlyChecked options before selection ∧
        (∀ through, .invalidated through ∈ before → through < selection.decisionAt) ∧
        TakenLive before selection ∧ ∀ e ∈ before, e.disables ≠ some selection.symbol
  | .succeeded selection =>
      (∃ earlier since, before = earlier ++ .called selection :: since ∧
        ∀ e ∈ since, e.ofProducer = true) ∧ Undelivered before selection
  | .checked selection _ => TakenLive before selection
  | .counted selection _ => InHand before selection
  | _ => True

/-! ## Longer journals -/

theorem TakenLive.inHand {journal : List (RealtimeEvent D)} {selection : RealtimeSelection D}
    (h : TakenLive journal selection) : InHand journal selection := by
  obtain ⟨earlier, since, hjournal, -, hsince⟩ := h
  exact ⟨earlier, since, hjournal, hsince⟩

theorem InHand.snoc {journal : List (RealtimeEvent D)} {selection : RealtimeSelection D}
    (h : InHand journal selection) {e : RealtimeEvent D}
    (he : e.isDequeue = false ∧ e.isCount = false) : InHand (journal ++ [e]) selection := by
  obtain ⟨earlier, since, rfl, hsince⟩ := h
  refine ⟨earlier, since ++ [e], by simp, ?_⟩
  intro later hlater
  rcases List.mem_append.mp hlater with hlater | hlater
  · exact hsince later hlater
  · rw [List.mem_singleton.mp hlater]
    exact he

theorem TakenLive.snoc {journal : List (RealtimeEvent D)} {selection : RealtimeSelection D}
    (h : TakenLive journal selection) {e : RealtimeEvent D}
    (he : e.isDequeue = false ∧ e.isCount = false) : TakenLive (journal ++ [e]) selection := by
  obtain ⟨earlier, since, rfl, hearlier, hsince⟩ := h
  refine ⟨earlier, since ++ [e], by simp, hearlier, ?_⟩
  intro later hlater
  rcases List.mem_append.mp hlater with hlater | hlater
  · exact hsince later hlater
  · rw [List.mem_singleton.mp hlater]
    exact he

theorem FreshlyChecked.snoc {options : RealtimeOptions} {journal : List (RealtimeEvent D)}
    {selection : RealtimeSelection D} (h : FreshlyChecked options journal selection)
    {e : RealtimeEvent D} (he : e.ofProducer = true) :
    FreshlyChecked options (journal ++ [e]) selection := by
  obtain ⟨earlier, now, since, rfl, hsince, hrest⟩ := h
  refine ⟨earlier, now, since ++ [e], by simp, ?_, hrest⟩
  intro later hlater
  rcases List.mem_append.mp hlater with hlater | hlater
  · exact hsince later hlater
  · rw [List.mem_singleton.mp hlater]
    exact he

theorem Undelivered.snoc {journal : List (RealtimeEvent D)} {selection : RealtimeSelection D}
    (h : Undelivered journal selection) {e : RealtimeEvent D}
    (he : ∀ other, e ≠ .succeeded other) : Undelivered (journal ++ [e]) selection := by
  intro other hother hsymbol
  rcases List.mem_append.mp hother with hother | hother
  · exact h other hother hsymbol
  · exact absurd (List.mem_singleton.mp hother).symm (he other)

/-! ## The invariant -/

namespace WorkerPoint

/-- The selection that the thread has dequeued and not finished. -/
def current : WorkerPoint D → Option (RealtimeSelection D)
  | .syncing (.deliver selection _) | .invalidating (.deliver selection _) _
  | .invalidated (.deliver selection _) _ | .unavailable (.deliver selection _)
  | .broken (.deliver selection _) _ | .admitting selection | .reading _ selection _
  | .checking _ selection _ _ | .ready selection _ | .sinking selection _
  | .retrying selection _ | .exhausting selection | .delivering selection => some selection
  | _ => none

/-- The selection that the thread is delivering. -/
def delivery : WorkerPoint D → Option (RealtimeSelection D)
  | .syncing (.deliver selection _) | .invalidating (.deliver selection _) _
  | .invalidated (.deliver selection _) _ | .unavailable (.deliver selection _)
  | .broken (.deliver selection _) _ | .reading _ selection _
  | .checking _ selection _ _ | .ready selection _ | .sinking selection _
  | .retrying selection _ => some selection
  | _ => none

end WorkerPoint

namespace RealtimeWorker

/-- A selection may still be delivered: it was dequeued before any stop, its symbol is not
disabled, and its decision is the last one of its symbol and later than every delivered one. -/
structure Pending (state : RealtimeWorker D) (journal : List (RealtimeEvent D))
    (selection : RealtimeSelection D) : Prop where
  taken : TakenLive journal selection
  enabled : selection.symbol ∉ state.failedSymbols
  latest : ∃ sha256, state.lastDecision selection.symbol = some (selection.decisionAt, sha256)
  undelivered : Undelivered journal selection

/-- The state says what the journal notes, and the journal is warranted. -/
structure Sound (options : RealtimeOptions) (state : RealtimeWorker D)
    (journal : List (RealtimeEvent D)) : Prop where
  warranted : Justified (EntryWarranted options) journal
  stopped : ∀ e ∈ journal, e.stops = true → state.stopped = true
  newest : ∀ at', .disconnected at' ∈ journal → ∃ newest ∈ state.notBefore, at' ≤ newest
  covered : ∀ through, .invalidated through ∈ journal → ∃ newest ∈ state.notBefore, through ≤ newest
  calling : ∀ caller through, state.point = .invalidating caller through →
    ∃ newest ∈ state.notBefore, through ≤ newest
  disabled : ∀ e ∈ journal, ∀ symbol ∈ e.disables, symbol ∈ state.failedSymbols ∨
    ∃ selection typeName, state.point = .failing selection typeName ∧ selection.symbol = symbol
  latest : ∀ other, .succeeded other ∈ journal →
    ∃ last ∈ state.lastDecision other.symbol, other.decisionAt ≤ last.1
  counters : ∀ counter, state.counter counter = (journal.filter (·.addsTo counter)).length
  inHand : ∀ selection ∈ state.point.current, InHand journal selection
  pending : ∀ selection ∈ state.point.delivery, state.Pending journal selection
  ready : ∀ selection attempts, state.point = .ready selection attempts →
    FreshlyChecked options journal selection ∧
      ∀ through, .invalidated through ∈ journal → through < selection.decisionAt
  sinking : ∀ selection attempts, state.point = .sinking selection attempts →
    ∃ earlier since, journal = earlier ++ .called selection :: since ∧
      ∀ e ∈ since, e.ofProducer = true

variable {options : RealtimeOptions} {state state' : RealtimeWorker D}
  {journal : List (RealtimeEvent D)}

theorem sound_initial (options : RealtimeOptions) :
    Sound options (initial : RealtimeWorker D) [] where
  warranted := justified_nil _
  stopped := by simp
  newest := by simp
  covered := by simp
  calling := by simp [initial]
  disabled := by simp
  latest := by simp
  counters := by simp [initial]
  inHand := by simp [initial, WorkerPoint.current]
  pending := by simp [initial, WorkerPoint.delivery]
  ready := by simp [initial]
  sinking := by simp [initial]

namespace Sound

/-- **The thread goes on** without an entry, and touches nothing that the journal is
compared with. -/
theorem move (h : Sound options state journal) (hstopped : state'.stopped = state.stopped)
    (hnotBefore : state'.notBefore = state.notBefore)
    (hfailed : state'.failedSymbols = state.failedSymbols)
    (hlast : state'.lastDecision = state.lastDecision) (hcounter : state'.counter = state.counter)
    (hfailing : ∀ selection typeName, state.point ≠ .failing selection typeName)
    (hcurrent : ∀ selection ∈ state'.point.current, selection ∈ state.point.current)
    (hdelivery : ∀ selection ∈ state'.point.delivery, selection ∈ state.point.delivery)
    (hready : ∀ selection attempts, state'.point ≠ .ready selection attempts)
    (hsinking : ∀ selection attempts, state'.point ≠ .sinking selection attempts)
    (hcalling : ∀ caller through, state'.point = .invalidating caller through →
      ∃ newest ∈ state.notBefore, through ≤ newest) : Sound options state' journal where
  warranted := h.warranted
  stopped := by rw [hstopped]; exact h.stopped
  newest := by rw [hnotBefore]; exact h.newest
  covered := by rw [hnotBefore]; exact h.covered
  calling := by rw [hnotBefore]; exact hcalling
  disabled := by
    intro e he symbol hsymbol
    rw [hfailed]
    rcases h.disabled e he symbol hsymbol with hfound | ⟨selection, typeName, hpoint, -⟩
    · exact .inl hfound
    · exact absurd hpoint (hfailing selection typeName)
  latest := by rw [hlast]; exact h.latest
  counters := by rw [hcounter]; exact h.counters
  inHand := fun selection hselection => h.inHand selection (hcurrent selection hselection)
  pending := by
    intro selection hselection
    obtain ⟨htaken, henabled, hlatest, hundelivered⟩ :=
      h.pending selection (hdelivery selection hselection)
    exact ⟨htaken, hfailed ▸ henabled, hlast ▸ hlatest, hundelivered⟩
  ready := fun selection attempts hpoint => absurd hpoint (hready selection attempts)
  sinking := fun selection attempts hpoint => absurd hpoint (hsinking selection attempts)

/-- **An entry of the worker**, which stops nothing and records no disconnect. -/
theorem note (h : Sound options state journal) {e : RealtimeEvent D}
    (hwarranted : EntryWarranted options journal e) (hproducer : e.ofProducer = false)
    (hstops : e.stops = false) (hstopped : state'.stopped = state.stopped)
    (hnotBefore : state'.notBefore = state.notBefore)
    (hlast : state'.lastDecision = state.lastDecision)
    (hcovered : ∀ through, e = .invalidated through → ∃ newest ∈ state.notBefore, through ≤ newest)
    (hlatest : ∀ other, e = .succeeded other →
      ∃ last ∈ state.lastDecision other.symbol, other.decisionAt ≤ last.1)
    (hcounter : ∀ counter, state'.counter counter =
      state.counter counter + if e.addsTo counter then 1 else 0)
    (hcalling : ∀ caller through, state'.point ≠ .invalidating caller through)
    (hdisabled : ∀ found ∈ journal ++ [e], ∀ symbol ∈ found.disables,
      symbol ∈ state'.failedSymbols ∨ ∃ selection typeName,
        state'.point = .failing selection typeName ∧ selection.symbol = symbol)
    (hinHand : ∀ selection ∈ state'.point.current, InHand (journal ++ [e]) selection)
    (hpending : ∀ selection ∈ state'.point.delivery, state'.Pending (journal ++ [e]) selection)
    (hready : ∀ selection attempts, state'.point = .ready selection attempts →
      FreshlyChecked options (journal ++ [e]) selection ∧
        ∀ through, .invalidated through ∈ journal ++ [e] → through < selection.decisionAt)
    (hsinking : ∀ selection attempts, state'.point = .sinking selection attempts →
      e = .called selection) : Sound options state' (journal ++ [e]) where
  warranted := justified_snoc.mpr ⟨h.warranted, hwarranted⟩
  stopped := by
    intro found hfound hstop
    rw [hstopped]
    rcases List.mem_append.mp hfound with hfound | hfound
    · exact h.stopped found hfound hstop
    · rw [List.mem_singleton.mp hfound, hstops] at hstop
      cases hstop
  newest := by
    intro at' hfound
    rw [hnotBefore]
    rcases List.mem_append.mp hfound with hfound | hfound
    · exact h.newest at' hfound
    · rw [← List.mem_singleton.mp hfound] at hproducer
      cases hproducer
  covered := by
    intro through hfound
    rw [hnotBefore]
    rcases List.mem_append.mp hfound with hfound | hfound
    · exact h.covered through hfound
    · exact hcovered through (List.mem_singleton.mp hfound).symm
  calling := fun caller through hpoint => absurd hpoint (hcalling caller through)
  disabled := hdisabled
  latest := by
    intro other hfound
    rw [hlast]
    rcases List.mem_append.mp hfound with hfound | hfound
    · exact h.latest other hfound
    · exact hlatest other (List.mem_singleton.mp hfound).symm
  counters := by
    intro counter
    rw [hcounter, h.counters, List.filter_append, List.length_append]
    cases hadds : e.addsTo counter <;> simp [hadds]
  inHand := hinHand
  pending := hpending
  ready := hready
  sinking := by
    intro selection attempts hpoint
    refine ⟨journal, [], ?_, by simp⟩
    rw [hsinking selection attempts hpoint]

/-- **An entry of a producer**, wherever the thread stands. -/
theorem produce (h : Sound options state journal) {e : RealtimeEvent D}
    (hproducer : e.ofProducer = true) (hpoint : state'.point = state.point)
    (hfailed : state'.failedSymbols = state.failedSymbols)
    (hlast : state'.lastDecision = state.lastDecision) (hcounter : state'.counter = state.counter)
    (hstopped : state.stopped = true ∨ e.stops = true → state'.stopped = true)
    (hnewest : ∀ at', (∃ newest ∈ state.notBefore, at' ≤ newest) ∨ e = .disconnected at' →
      ∃ newest ∈ state'.notBefore, at' ≤ newest) : Sound options state' (journal ++ [e]) := by
  have hkind : e.isDequeue = false ∧ e.isCount = false := by
    cases e <;> simp_all [RealtimeEvent.ofProducer, RealtimeEvent.isDequeue, RealtimeEvent.isCount]
  have hdelivered : ∀ other, e ≠ .succeeded other := by
    rintro other rfl
    cases hproducer
  have hinvalidated : ∀ through, e ≠ .invalidated through := by
    rintro through rfl
    cases hproducer
  constructor
  case warranted =>
    refine justified_snoc.mpr ⟨h.warranted, ?_⟩
    cases e <;> trivial
  case stopped =>
    intro found hfound hstop
    rcases List.mem_append.mp hfound with hfound | hfound
    · exact hstopped (.inl (h.stopped found hfound hstop))
    · rw [List.mem_singleton.mp hfound] at hstop
      exact hstopped (.inr hstop)
  case newest =>
    intro at' hfound
    rcases List.mem_append.mp hfound with hfound | hfound
    · exact hnewest at' (.inl (h.newest at' hfound))
    · exact hnewest at' (.inr (List.mem_singleton.mp hfound).symm)
  case covered =>
    intro through hfound
    rcases List.mem_append.mp hfound with hfound | hfound
    · exact hnewest through (.inl (h.covered through hfound))
    · exact absurd (List.mem_singleton.mp hfound).symm (hinvalidated through)
  case calling =>
    rw [hpoint]
    intro caller through hcalling
    exact hnewest through (.inl (h.calling caller through hcalling))
  case disabled =>
    intro found hfound symbol hsymbol
    rw [hfailed, hpoint]
    rcases List.mem_append.mp hfound with hfound | hfound
    · exact h.disabled found hfound symbol hsymbol
    · rw [List.mem_singleton.mp hfound] at hsymbol
      cases e <;> first | (cases hproducer; done) | cases hsymbol
  case latest =>
    intro other hfound
    rw [hlast]
    rcases List.mem_append.mp hfound with hfound | hfound
    · exact h.latest other hfound
    · exact absurd (List.mem_singleton.mp hfound).symm (hdelivered other)
  case counters =>
    intro counter
    rw [hcounter, h.counters, List.filter_append, List.length_append]
    cases e <;> first | rfl | cases hproducer
  case inHand =>
    rw [hpoint]
    intro selection hselection
    exact (h.inHand selection hselection).snoc hkind
  case pending =>
    rw [hpoint]
    intro selection hselection
    obtain ⟨htaken, henabled, hlatest, hundelivered⟩ := h.pending selection hselection
    exact ⟨htaken.snoc hkind, hfailed ▸ henabled, hlast ▸ hlatest, hundelivered.snoc hdelivered⟩
  case ready =>
    rw [hpoint]
    intro selection attempts hready
    obtain ⟨hchecked, hthrough⟩ := h.ready selection attempts hready
    refine ⟨hchecked.snoc hproducer, ?_⟩
    intro through hfound
    rcases List.mem_append.mp hfound with hfound | hfound
    · exact hthrough through hfound
    · exact absurd (List.mem_singleton.mp hfound).symm (hinvalidated through)
  case sinking =>
    rw [hpoint]
    intro selection attempts hsinking
    obtain ⟨earlier, since, rfl, hsince⟩ := h.sinking selection attempts hsinking
    refine ⟨earlier, since ++ [e], by simp, ?_⟩
    intro later hlater
    rcases List.mem_append.mp hlater with hlater | hlater
    · exact hsince later hlater
    · rw [List.mem_singleton.mp hlater]
      exact hproducer

/-- Older entries disable what they did, wherever the thread goes. -/
theorem disabled_of_not_failing (h : Sound options state journal)
    (hfailing : ∀ selection typeName, state.point ≠ .failing selection typeName)
    {e : RealtimeEvent D} (he : e ∈ journal) {symbol : String} (hsymbol : symbol ∈ e.disables) :
    symbol ∈ state.failedSymbols := by
  rcases h.disabled e he symbol hsymbol with hfound | ⟨selection, typeName, hpoint, -⟩
  · exact hfound
  · exact absurd hpoint (hfailing selection typeName)

/-- A count ends the work on the selection in hand. -/
theorem count (h : Sound options state journal) {selection : RealtimeSelection D}
    (hcurrent : selection ∈ state.point.current) (failure : Option String)
    (counter : RealtimeCounter) :
    Sound options ({ state with failure := failure }.count selection counter).1
      (journal ++ [.counted selection counter]) := by
  have hfailing : ∀ selection typeName, state.point ≠ .failing selection typeName := by
    intro failed typeName hpoint
    rw [hpoint] at hcurrent
    cases hcurrent
  apply h.note
  case hwarranted => exact h.inHand selection hcurrent
  case hproducer | hstops | hstopped | hnotBefore | hlast => rfl
  case hcovered => exact fun through he => by cases he
  case hlatest => exact fun other he => by cases he
  case hcounter =>
    intro found
    by_cases hfound : found = counter
    · subst hfound
      simp [RealtimeWorker.count, RealtimeEvent.addsTo]
    · simp [RealtimeWorker.count, RealtimeEvent.addsTo, hfound, Ne.symm hfound]
  case hcalling => simp [RealtimeWorker.count]
  case hdisabled =>
    intro e he symbol hsymbol
    rcases List.mem_append.mp he with he | he
    · exact .inl (h.disabled_of_not_failing hfailing he hsymbol)
    · rw [List.mem_singleton.mp he] at hsymbol
      cases hsymbol
  case hinHand => simp [RealtimeWorker.count, WorkerPoint.current]
  case hpending => simp [RealtimeWorker.count, WorkerPoint.delivery]
  case hready => simp [RealtimeWorker.count]
  case hsinking => simp [RealtimeWorker.count]

/-- A selection is taken from the queue. -/
theorem dequeue (h : Sound options state journal) (hpoint : state.point = .receiving)
    (selection : RealtimeSelection D) (rest : List (RealtimeSelection D)) :
    Sound options { state with queue := rest, point := .admitting selection }
      (journal ++ [.dequeued selection]) := by
  apply h.note
  case hwarranted => trivial
  case hproducer | hstops | hstopped | hnotBefore | hlast => rfl
  case hcovered => exact fun through he => by cases he
  case hlatest => exact fun other he => by cases he
  case hcounter => exact fun _ => rfl
  case hcalling => simp
  case hdisabled =>
    intro e he symbol hsymbol
    rcases List.mem_append.mp he with he | he
    · refine .inl (h.disabled_of_not_failing ?_ he hsymbol)
      simp [hpoint]
    · rw [List.mem_singleton.mp he] at hsymbol
      cases hsymbol
  case hinHand =>
    intro found hfound
    obtain rfl := Option.some.inj hfound
    exact ⟨journal, [], rfl, by simp⟩
  case hpending => simp [WorkerPoint.delivery]
  case hready => simp
  case hsinking => simp

/-- No stop has been noted while the worker is not stopped. -/
theorem not_stops (h : Sound options state journal) (hrunning : state.stopped = false) :
    ∀ e ∈ journal, e.stops = false := by
  intro e he
  cases hstops : e.stops with
  | false => rfl
  | true =>
      have hstopped := h.stopped e he hstops
      rw [hrunning] at hstopped
      cases hstopped

/-- A selection later than the last one of its symbol is admitted for delivery. -/
theorem admitted (h : Sound options state journal) {selection : RealtimeSelection D}
    (hpoint : state.point = .admitting selection) (hrunning : state.stopped = false)
    (henabled : selection.symbol ∉ state.failedSymbols)
    (hlater : ∀ last ∈ state.lastDecision selection.symbol, last.1 < selection.decisionAt) :
    Sound options { state with
      lastDecision := Function.update state.lastDecision selection.symbol
        (some (selection.decisionAt, selection.arbitration.sha256))
      point := .reading false selection 0 } journal where
  warranted := h.warranted
  stopped := h.stopped
  newest := h.newest
  covered := h.covered
  calling := by simp
  disabled := by
    intro e he symbol hsymbol
    refine .inl (h.disabled_of_not_failing ?_ he hsymbol)
    simp [hpoint]
  latest := by
    intro other hother
    obtain ⟨last, hlast, hle⟩ := h.latest other hother
    by_cases hsymbol : other.symbol = selection.symbol
    · rw [hsymbol] at hlast
      refine ⟨(selection.decisionAt, selection.arbitration.sha256), by simp [hsymbol], ?_⟩
      exact hle.trans (hlater last hlast).le
    · exact ⟨last, by simpa [hsymbol] using hlast, hle⟩
  counters := h.counters
  inHand := by
    intro found hfound
    obtain rfl := Option.some.inj hfound
    exact h.inHand selection (by simp [hpoint, WorkerPoint.current])
  pending := by
    intro found hfound
    obtain rfl := Option.some.inj hfound
    obtain ⟨earlier, since, hjournal, hsince⟩ :=
      h.inHand selection (by simp [hpoint, WorkerPoint.current])
    refine ⟨⟨earlier, since, hjournal, ?_, hsince⟩, henabled, ⟨_, by simp; rfl⟩, ?_⟩
    · intro e he
      exact h.not_stops hrunning e (by simp [hjournal, he])
    · intro other hother hsymbol
      obtain ⟨last, hlast, hle⟩ := h.latest other hother
      rw [hsymbol] at hlast
      exact hle.trans_lt (hlater last hlast)
  ready := by simp
  sinking := by simp

/-- A conflicting selection disables its symbol. -/
theorem conflict (h : Sound options state journal) {selection : RealtimeSelection D}
    (hpoint : state.point = .admitting selection) (failure : Option String) :
    Sound options { state with
      failedSymbols := selection.symbol :: state.failedSymbols
      failure := failure
      point := .syncing .run } (journal ++ [.conflicted selection]) := by
  apply h.note
  case hwarranted => trivial
  case hproducer | hstops | hstopped | hnotBefore | hlast => rfl
  case hcovered => exact fun through he => by cases he
  case hlatest => exact fun other he => by cases he
  case hcounter => exact fun _ => rfl
  case hcalling => simp
  case hdisabled =>
    intro e he symbol hsymbol
    left
    rcases List.mem_append.mp he with he | he
    · refine List.mem_cons_of_mem _ (h.disabled_of_not_failing ?_ he hsymbol)
      simp [hpoint]
    · rw [List.mem_singleton.mp he] at hsymbol
      obtain rfl := Option.some.inj hsymbol
      exact List.mem_cons_self ..
  case hinHand => simp [WorkerPoint.current]
  case hpending => simp [WorkerPoint.delivery]
  case hready => simp
  case hsinking => simp

/-- What is pending stays so with an entry that neither takes, counts nor delivers. -/
theorem pending_snoc (h : Sound options state journal) {e : RealtimeEvent D}
    (hkind : e.isDequeue = false ∧ e.isCount = false) (hdelivered : ∀ other, e ≠ .succeeded other)
    (hfailed : state'.failedSymbols = state.failedSymbols)
    (hlast : state'.lastDecision = state.lastDecision) {selection : RealtimeSelection D}
    (hselection : selection ∈ state.point.delivery) :
    state'.Pending (journal ++ [e]) selection := by
  obtain ⟨htaken, henabled, hlatest, hundelivered⟩ := h.pending selection hselection
  exact ⟨htaken.snoc hkind, hfailed ▸ henabled, hlast ▸ hlatest, hundelivered.snoc hdelivered⟩

/-- An entry that disables nothing leaves the disabled symbols noted. -/
theorem disabled_snoc (h : Sound options state journal)
    (hfailing : ∀ selection typeName, state.point ≠ .failing selection typeName)
    {e : RealtimeEvent D} (hnone : e.disables = none) {found : RealtimeEvent D}
    (hfound : found ∈ journal ++ [e]) {symbol : String} (hsymbol : symbol ∈ found.disables) :
    symbol ∈ state.failedSymbols := by
  rcases List.mem_append.mp hfound with hfound | hfound
  · exact h.disabled_of_not_failing hfailing hfound hsymbol
  · rw [List.mem_singleton.mp hfound, hnone] at hsymbol
    cases hsymbol

/-- A check that a selection passes. -/
theorem check (h : Sound options state journal) {second : Bool}
    {selection : RealtimeSelection D} {attempts : Nat} {now : Instant}
    (hpoint : state.point = .checking second selection attempts now)
    (hrunning : state.stopped = false)
    (hconnected : ∀ newest ∈ state.notBefore, newest < selection.decisionAt)
    (hfresh : 0 ≤ now - selection.decisionAt ∧
      now - selection.decisionAt ≤ options.maximumDelay) :
    Sound options { state with
      point := if second then .ready selection attempts
        else .syncing (.deliver selection attempts) }
      (journal ++ [.checked selection now]) := by
  have hfailing : ∀ selection typeName, state.point ≠ .failing selection typeName := by
    simp [hpoint]
  have hcurrent : selection ∈ state.point.current := by simp [hpoint, WorkerPoint.current]
  have hdelivery : selection ∈ state.point.delivery := by simp [hpoint, WorkerPoint.delivery]
  have hthrough : ∀ through, .invalidated through ∈ journal ++ [.checked selection now] →
      through < selection.decisionAt := by
    intro through hfound
    rcases List.mem_append.mp hfound with hfound | hfound
    · obtain ⟨newest, hnewest, hle⟩ := h.covered through hfound
      exact hle.trans_lt (hconnected newest hnewest)
    · cases List.mem_singleton.mp hfound
  have hchecked : FreshlyChecked options (journal ++ [.checked selection now]) selection := by
    refine ⟨journal, now, [], rfl, by simp, h.not_stops hrunning, hfresh, ?_⟩
    intro at' hfound
    obtain ⟨newest, hnewest, hle⟩ := h.newest at' hfound
    exact hle.trans_lt (hconnected newest hnewest)
  apply h.note
  case hwarranted => exact (h.pending selection hdelivery).taken
  case hproducer | hstops | hstopped | hnotBefore | hlast => rfl
  case hcovered => exact fun through he => by cases he
  case hlatest => exact fun other he => by cases he
  case hcounter => exact fun _ => rfl
  case hcalling => cases second <;> simp
  case hdisabled =>
    intro found hfound symbol hsymbol
    exact .inl (h.disabled_snoc hfailing rfl hfound hsymbol)
  case hinHand =>
    intro found hfound
    obtain rfl : selection = found := by
      cases second <;> simpa [WorkerPoint.current] using hfound
    exact (h.inHand selection hcurrent).snoc ⟨rfl, rfl⟩
  case hpending =>
    intro found hfound
    obtain rfl : selection = found := by
      cases second <;> simpa [WorkerPoint.delivery] using hfound
    exact h.pending_snoc (e := .checked selection now) ⟨rfl, rfl⟩ (by simp) (by rfl) (by rfl)
      hdelivery
  case hready =>
    intro found tries hfound
    obtain rfl : selection = found := by
      cases second
      · cases hfound
      · exact (WorkerPoint.ready.inj hfound).1
    exact ⟨hchecked, hthrough⟩
  case hsinking => cases second <;> simp

/-- The sink is called with a freshly checked selection. -/
theorem call (h : Sound options state journal) {selection : RealtimeSelection D}
    {attempts : Nat} (hpoint : state.point = .ready selection attempts) :
    Sound options { state with point := .sinking selection attempts }
      (journal ++ [.called selection]) := by
  have hfailing : ∀ selection typeName, state.point ≠ .failing selection typeName := by
    simp [hpoint]
  have hcurrent : selection ∈ state.point.current := by simp [hpoint, WorkerPoint.current]
  have hdelivery : selection ∈ state.point.delivery := by simp [hpoint, WorkerPoint.delivery]
  have hpending := h.pending selection hdelivery
  obtain ⟨hchecked, hthrough⟩ := h.ready selection attempts hpoint
  apply h.note
  case hwarranted =>
    refine ⟨hchecked, hthrough, hpending.taken, ?_⟩
    intro e he hdisables
    exact hpending.enabled (h.disabled_of_not_failing hfailing he hdisables)
  case hproducer | hstops | hstopped | hnotBefore | hlast => rfl
  case hcovered => exact fun through he => by cases he
  case hlatest => exact fun other he => by cases he
  case hcounter => exact fun _ => rfl
  case hcalling => simp
  case hdisabled =>
    intro found hfound symbol hsymbol
    exact .inl (h.disabled_snoc hfailing rfl hfound hsymbol)
  case hinHand =>
    intro found hfound
    obtain rfl := Option.some.inj hfound
    exact (h.inHand selection hcurrent).snoc ⟨rfl, rfl⟩
  case hpending =>
    intro found hfound
    obtain rfl := Option.some.inj hfound
    exact h.pending_snoc (e := .called selection) ⟨rfl, rfl⟩ (by simp) (by rfl) (by rfl)
      hdelivery
  case hready => simp
  case hsinking =>
    intro found tries hfound
    rw [(WorkerPoint.sinking.inj hfound).1]

/-- The sink returns. -/
theorem succeed (h : Sound options state journal) {selection : RealtimeSelection D}
    {attempts : Nat} (hpoint : state.point = .sinking selection attempts) :
    Sound options { state with point := .delivering selection }
      (journal ++ [.succeeded selection]) := by
  have hfailing : ∀ selection typeName, state.point ≠ .failing selection typeName := by
    simp [hpoint]
  have hcurrent : selection ∈ state.point.current := by simp [hpoint, WorkerPoint.current]
  have hpending := h.pending selection (by simp [hpoint, WorkerPoint.delivery])
  apply h.note
  case hwarranted => exact ⟨h.sinking selection attempts hpoint, hpending.undelivered⟩
  case hproducer | hstops | hstopped | hnotBefore | hlast => rfl
  case hcovered => exact fun through he => by cases he
  case hlatest =>
    intro other he
    obtain rfl := RealtimeEvent.succeeded.inj he
    obtain ⟨sha256, hlatest⟩ := hpending.latest
    exact ⟨_, hlatest, le_refl _⟩
  case hcounter => exact fun _ => rfl
  case hcalling => simp
  case hdisabled =>
    intro found hfound symbol hsymbol
    exact .inl (h.disabled_snoc hfailing rfl hfound hsymbol)
  case hinHand =>
    intro found hfound
    obtain rfl := Option.some.inj hfound
    exact (h.inHand selection hcurrent).snoc ⟨rfl, rfl⟩
  case hpending => simp [WorkerPoint.delivery]
  case hready => simp
  case hsinking => simp

/-- The sink or the clock raises a permanent error. -/
theorem fault (h : Sound options state journal) {selection : RealtimeSelection D}
    (hfailing : ∀ selection typeName, state.point ≠ .failing selection typeName)
    (typeName : String) :
    Sound options { state with point := .failing selection typeName }
      (journal ++ [.faulted selection]) := by
  apply h.note
  case hwarranted => trivial
  case hproducer | hstops | hstopped | hnotBefore | hlast => rfl
  case hcovered => exact fun through he => by cases he
  case hlatest => exact fun other he => by cases he
  case hcounter => exact fun _ => rfl
  case hcalling => simp
  case hdisabled =>
    intro e he symbol hsymbol
    rcases List.mem_append.mp he with he | he
    · exact .inl (h.disabled_of_not_failing hfailing he hsymbol)
    · rw [List.mem_singleton.mp he] at hsymbol
      exact .inr ⟨selection, typeName, rfl, Option.some.inj hsymbol⟩
  case hinHand => simp [WorkerPoint.current]
  case hpending => simp [WorkerPoint.delivery]
  case hready => simp
  case hsinking => simp

/-- The failed symbol is disabled. -/
theorem fail (h : Sound options state journal) {selection : RealtimeSelection D}
    {typeName : String} (hpoint : state.point = .failing selection typeName)
    (failure : Option String) :
    Sound options { state with
      failedSymbols := selection.symbol :: state.failedSymbols
      failure := failure
      point := .syncing .run } journal where
  warranted := h.warranted
  stopped := h.stopped
  newest := h.newest
  covered := h.covered
  calling := by simp
  disabled := by
    intro e he symbol hsymbol
    left
    rcases h.disabled e he symbol hsymbol with hfound | ⟨failed, name, hfailed, rfl⟩
    · exact List.mem_cons_of_mem _ hfound
    · rw [hpoint] at hfailed
      rw [(WorkerPoint.failing.inj hfailed).1]
      exact List.mem_cons_self ..
  latest := h.latest
  counters := h.counters
  inHand := by simp [WorkerPoint.current]
  pending := by simp [WorkerPoint.delivery]
  ready := by simp
  sinking := by simp

/-- The invalidation callback returns. -/
theorem invalidate (h : Sound options state journal) {caller : SyncCaller D} {through : Instant}
    (hpoint : state.point = .invalidating caller through) :
    Sound options { state with point := .invalidated caller through }
      (journal ++ [.invalidated through]) := by
  have hfailing : ∀ selection typeName, state.point ≠ .failing selection typeName := by
    simp [hpoint]
  apply h.note
  case hwarranted => trivial
  case hproducer | hstops | hstopped | hnotBefore | hlast => rfl
  case hcovered =>
    intro found he
    obtain rfl := RealtimeEvent.invalidated.inj he
    exact h.calling caller through hpoint
  case hlatest => exact fun other he => by cases he
  case hcounter => exact fun _ => rfl
  case hcalling => simp
  case hdisabled =>
    intro found hfound symbol hsymbol
    exact .inl (h.disabled_snoc hfailing rfl hfound hsymbol)
  case hinHand =>
    intro found hfound
    refine (h.inHand found ?_).snoc ⟨rfl, rfl⟩
    rw [hpoint]
    cases caller with
    | run => cases hfound
    | deliver => exact hfound
  case hpending =>
    intro found hfound
    refine h.pending_snoc (e := .invalidated through) ⟨rfl, rfl⟩ (by simp) (by rfl)
      (by rfl) ?_
    rw [hpoint]
    cases caller with
    | run => cases hfound
    | deliver => exact hfound
  case hready => simp
  case hsinking => simp

/-- The queue and the failure are compared with nothing. -/
theorem refill (h : Sound options state journal) (queue : List (RealtimeSelection D))
    (failure : Option String) :
    Sound options { state with queue := queue, failure := failure } journal where
  warranted := h.warranted
  stopped := h.stopped
  newest := h.newest
  covered := h.covered
  calling := h.calling
  disabled := h.disabled
  latest := h.latest
  counters := h.counters
  inHand := h.inHand
  pending := by
    intro selection hselection
    obtain ⟨htaken, henabled, hlatest, hundelivered⟩ := h.pending selection hselection
    exact ⟨htaken, henabled, hlatest, hundelivered⟩
  ready := h.ready
  sinking := h.sinking

/-- A producer stops the worker. -/
theorem stop (h : Sound options state journal) {e : RealtimeEvent D} (hstops : e.stops = true)
    (failure : Option String) :
    Sound options { state with failure := failure, stopped := true } (journal ++ [e]) := by
  have hproducer : e.ofProducer = true := by
    cases e <;> first | rfl | cases hstops
  apply h.produce hproducer
  case hpoint | hfailed | hlast | hcounter => rfl
  case hstopped => exact fun _ => rfl
  case hnewest =>
    intro at' hfound
    rcases hfound with hfound | rfl
    · exact hfound
    · cases hstops

/-- The thread goes on to a point where it works on nothing, or on what it had. -/
theorem goto (h : Sound options state journal) (point : WorkerPoint D) (failure : Option String)
    (transientErrors : Nat) (invalidatedThrough : Option Instant)
    (hfailing : ∀ selection typeName, state.point ≠ .failing selection typeName)
    (hcurrent : ∀ selection ∈ point.current, selection ∈ state.point.current)
    (hdelivery : ∀ selection ∈ point.delivery, selection ∈ state.point.delivery)
    (hready : ∀ selection attempts, point ≠ .ready selection attempts)
    (hsinking : ∀ selection attempts, point ≠ .sinking selection attempts)
    (hcalling : ∀ caller through, point = .invalidating caller through →
      ∃ newest ∈ state.notBefore, through ≤ newest) :
    Sound options { state with
      point := point
      failure := failure
      transientErrors := transientErrors
      invalidatedThrough := invalidatedThrough } journal := by
  apply h.move
  case hstopped | hnotBefore | hfailed | hlast | hcounter => rfl
  case hfailing => exact hfailing
  case hcurrent => exact hcurrent
  case hdelivery => exact hdelivery
  case hready => exact hready
  case hsinking => exact hsinking
  case hcalling => exact hcalling

/-- `_sync_invalidation` returns to its caller. -/
theorem resume (h : Sound options state journal) (caller : SyncCaller D)
    (hfailing : ∀ selection typeName, state.point ≠ .failing selection typeName)
    (hcurrent : state.point.current = (WorkerPoint.syncing caller).current)
    (hdelivery : state.point.delivery = (WorkerPoint.syncing caller).delivery)
    (synchronized : Bool) (failure : Option String) (transientErrors : Nat)
    (invalidatedThrough : Option Instant) :
    Sound options { state with
      point := caller.resume synchronized
      failure := failure
      transientErrors := transientErrors
      invalidatedThrough := invalidatedThrough } journal := by
  apply h.goto _ _ _ _ hfailing
  · rw [hcurrent]
    cases caller with
    | run => exact fun _ hfound => hfound
    | deliver => exact fun _ hfound => hfound
  · rw [hdelivery]
    cases caller with
    | run => exact fun _ hfound => hfound
    | deliver => exact fun _ hfound => hfound
  all_goals cases caller <;> simp [SyncCaller.resume]

/-! ## Steps -/

theorem offer (h : Sound options state journal) (selection : RealtimeSelection D) :
    Sound options (state.offer options selection).1
      (journal ++ (state.offer options selection).2.toList) := by
  unfold RealtimeWorker.offer
  split
  · simpa using h
  · split
    · simpa using h.refill (state.queue ++ [selection]) state.failure
    · exact h.stop rfl (some "QUEUE_OVERFLOW")

theorem disconnect (h : Sound options state journal) (at' : Instant) :
    Sound options (state.disconnect at').1 (journal ++ (state.disconnect at').2.toList) := by
  refine h.produce ?_ ?_ ?_ ?_ ?_ ?_ ?_
  · rfl
  · rfl
  · rfl
  · rfl
  · rfl
  · intro hstopped
    rcases hstopped with hstopped | hstopped
    · exact hstopped
    · cases hstopped
  · intro found hfound
    refine ⟨_, rfl, ?_⟩
    rcases hfound with ⟨newest, hnewest, hle⟩ | hfound
    · rw [Option.mem_def.mp hnewest]
      exact hle.trans (le_max_right at' newest)
    · obtain rfl := RealtimeEvent.disconnected.inj hfound
      cases state.notBefore with
      | none => exact le_refl _
      | some newest => exact le_max_left at' newest

theorem receive (h : Sound options state journal) {selection : RealtimeSelection D}
    (hpoint : state.point = .admitting selection) :
    Sound options (state.receive selection).1 (journal ++ (state.receive selection).2.toList) := by
  have hfailing : ∀ selection typeName, state.point ≠ .failing selection typeName := by
    simp [hpoint]
  have hcurrent : selection ∈ state.point.current := by simp [hpoint, WorkerPoint.current]
  unfold RealtimeWorker.receive
  simp only
  split
  case isTrue =>
    simpa using h.goto (.syncing .run) state.failure state.transientErrors
      state.invalidatedThrough hfailing (by simp [WorkerPoint.current])
      (by simp [WorkerPoint.delivery]) (by simp) (by simp) (by simp)
  case isFalse hlive =>
    rw [not_or] at hlive
    have hrunning : state.stopped = false := by simpa using hlive.1
    split
    case h_1 hnone =>
      simpa using h.admitted hpoint hrunning hlive.2 (by simp [hnone])
    case h_2 previous sha256 hlast =>
      by_cases hconflict : selection.decisionAt = previous ∧ selection.arbitration.sha256 ≠ sha256
      · rw [if_pos hconflict]
        exact h.conflict hpoint _
      · rw [if_neg hconflict]
        by_cases hlate : selection.decisionAt ≤ previous
        · rw [if_pos hlate]
          exact h.count hcurrent state.failure .duplicates
        · rw [if_neg hlate]
          have hlater : ∀ last ∈ state.lastDecision selection.symbol,
              last.1 < selection.decisionAt := by
            intro last hfound
            rw [hlast] at hfound
            obtain rfl := Option.some.inj hfound
            exact not_le.mp hlate
          simpa using h.admitted hpoint hrunning hlive.2 hlater

theorem canDeliver (h : Sound options state journal) {second : Bool}
    {selection : RealtimeSelection D} {attempts : Nat} {now : Instant}
    (hpoint : state.point = .checking second selection attempts now) :
    Sound options (state.canDeliver options second selection attempts now).1
      (journal ++ (state.canDeliver options second selection attempts now).2.toList) := by
  have hfailing : ∀ selection typeName, state.point ≠ .failing selection typeName := by
    simp [hpoint]
  have hcurrent : selection ∈ state.point.current := by simp [hpoint, WorkerPoint.current]
  unfold RealtimeWorker.canDeliver
  by_cases hstopped : state.stopped = true
  · rw [if_pos hstopped]
    simpa using h.goto (.syncing .run) state.failure state.transientErrors
      state.invalidatedThrough hfailing (by simp [WorkerPoint.current])
      (by simp [WorkerPoint.delivery]) (by simp) (by simp) (by simp)
  · rw [if_neg hstopped]
    by_cases hdisconnected : state.notBefore.any (selection.decisionAt ≤ ·)
    · rw [if_pos hdisconnected]
      exact h.count hcurrent state.failure .disconnected
    · rw [if_neg hdisconnected]
      by_cases hfresh : 0 ≤ now - selection.decisionAt ∧
          now - selection.decisionAt ≤ options.maximumDelay
      · rw [if_pos hfresh]
        refine h.check hpoint (by simpa using hstopped) ?_ hfresh
        intro newest hnewest
        rw [Option.mem_def.mp hnewest] at hdisconnected
        simpa using hdisconnected
      · rw [if_neg hfresh]
        exact h.count hcurrent state.failure .stale

/-- The thread goes on with the selection it had, or with none. -/
theorem advance (h : Sound options state journal) (point : WorkerPoint D)
    (hfailing : ∀ selection typeName, state.point ≠ .failing selection typeName)
    (hcurrent : ∀ selection ∈ point.current, selection ∈ state.point.current)
    (hdelivery : ∀ selection ∈ point.delivery, selection ∈ state.point.delivery)
    (hready : ∀ selection attempts, point ≠ .ready selection attempts)
    (hsinking : ∀ selection attempts, point ≠ .sinking selection attempts)
    (hcalling : ∀ caller through, point = .invalidating caller through →
      ∃ newest ∈ state.notBefore, through ≤ newest) {next : RealtimeWorker D}
    {entry : Option (RealtimeEvent D)} (hnext : state.goto point = some (next, entry)) :
    Sound options next (journal ++ entry.toList) := by
  obtain ⟨rfl, rfl⟩ := Prod.mk.inj (Option.some.inj hnext)
  simpa using h.goto point state.failure state.transientErrors state.invalidatedThrough hfailing
    hcurrent hdelivery hready hsinking hcalling

theorem sync (h : Sound options state journal) {caller : SyncCaller D}
    (hpoint : state.point = .syncing caller) {next : RealtimeWorker D}
    {entry : Option (RealtimeEvent D)} (hnext : state.work options = some (next, entry)) :
    Sound options next (journal ++ entry.toList) := by
  have hfailing : ∀ selection typeName, state.point ≠ .failing selection typeName := by
    simp [hpoint]
  have hreturn : state.goto (caller.resume true) = some (next, entry) →
      Sound options next (journal ++ entry.toList) := by
    intro hgoto
    obtain ⟨rfl, rfl⟩ := Prod.mk.inj (Option.some.inj hgoto)
    simpa using h.resume caller hfailing (by rw [hpoint]) (by rw [hpoint]) true state.failure
      state.transientErrors state.invalidatedThrough
  simp only [RealtimeWorker.work, hpoint] at hnext
  split at hnext
  case h_1 => exact hreturn hnext
  case h_2 through hthrough =>
    by_cases hsame : state.invalidatedThrough = some through
    · rw [if_pos hsame] at hnext
      exact hreturn hnext
    · rw [if_neg hsame] at hnext
      apply h.advance (.invalidating caller through) hfailing _ _ (by simp) (by simp) _ hnext
      · rw [hpoint]
        cases caller <;> exact fun _ hfound => hfound
      · rw [hpoint]
        cases caller <;> exact fun _ hfound => hfound
      · intro found at' hfound
        obtain ⟨-, rfl⟩ := WorkerPoint.invalidating.inj hfound
        cases hinvalidates : options.invalidates with
        | false => simp [hinvalidates] at hthrough
        | true => exact ⟨through, by simpa [hinvalidates] using hthrough, le_refl _⟩

/-- The retry or the end of the attempts after a transient error of the sink. -/
theorem retry (h : Sound options state journal) {selection : RealtimeSelection D}
    {attempts : Nat} (hpoint : state.point = .retrying selection attempts)
    {next : RealtimeWorker D} {entry : Option (RealtimeEvent D)}
    (hnext : state.work options = some (next, entry)) :
    Sound options next (journal ++ entry.toList) := by
  have hfailing : ∀ selection typeName, state.point ≠ .failing selection typeName := by
    simp [hpoint]
  simp only [RealtimeWorker.work, hpoint] at hnext
  split at hnext
  all_goals
    obtain ⟨rfl, rfl⟩ := Prod.mk.inj (Option.some.inj hnext)
    rw [Option.toList_none, List.append_nil]
  · exact h.goto (.exhausting selection) _ _ state.invalidatedThrough hfailing
      (by simp [hpoint, WorkerPoint.current]) (by simp [WorkerPoint.delivery]) (by simp) (by simp)
      (by simp)
  · exact h.goto (.reading false selection (attempts + 1)) _ _ state.invalidatedThrough hfailing
      (by simp [hpoint, WorkerPoint.current]) (by simp [hpoint, WorkerPoint.delivery]) (by simp)
      (by simp) (by simp)

/-- **The worker's own step** keeps the invariant, wherever its thread stands. -/
theorem work (h : Sound options state journal) {next : RealtimeWorker D}
    {entry : Option (RealtimeEvent D)} (hnext : state.work options = some (next, entry)) :
    Sound options next (journal ++ entry.toList) := by
  cases hpoint : state.point with
  | syncing caller => exact h.sync hpoint hnext
  | invalidating | reading | sinking | returned =>
      simp [RealtimeWorker.work, hpoint] at hnext
  | invalidated caller through =>
      simp only [RealtimeWorker.work, hpoint] at hnext
      obtain ⟨rfl, rfl⟩ := Prod.mk.inj (Option.some.inj hnext)
      rw [Option.toList_none, List.append_nil]
      refine h.resume caller (by simp [hpoint]) ?_ ?_ _ _ state.transientErrors _
      · rw [hpoint]
        cases caller <;> rfl
      · rw [hpoint]
        cases caller <;> rfl
  | unavailable caller =>
      simp only [RealtimeWorker.work, hpoint] at hnext
      obtain ⟨rfl, rfl⟩ := Prod.mk.inj (Option.some.inj hnext)
      rw [Option.toList_none, List.append_nil]
      refine h.resume caller (by simp [hpoint]) ?_ ?_ _ _ _ state.invalidatedThrough
      · rw [hpoint]
        cases caller <;> rfl
      · rw [hpoint]
        cases caller <;> rfl
  | broken caller typeName =>
      simp only [RealtimeWorker.work, hpoint] at hnext
      obtain ⟨rfl, rfl⟩ := Prod.mk.inj (Option.some.inj hnext)
      have hstopped := h.stop (e := .stopped) rfl (some ("INVALIDATION_ERROR:" ++ typeName))
      refine hstopped.resume caller (by simp [hpoint]) ?_ ?_ _ _ state.transientErrors
        state.invalidatedThrough
      · simp only [hpoint]
        cases caller <;> rfl
      · simp only [hpoint]
        cases caller <;> rfl
  | stopCheck synchronized =>
      simp only [RealtimeWorker.work, hpoint] at hnext
      split at hnext
      · exact h.advance _ (by simp [hpoint]) (by simp [WorkerPoint.current])
          (by simp [WorkerPoint.delivery]) (by simp) (by simp) (by simp) hnext
      · split at hnext
        · exact h.advance _ (by simp [hpoint]) (by simp [WorkerPoint.current])
            (by simp [WorkerPoint.delivery]) (by simp) (by simp) (by simp) hnext
        · exact h.advance _ (by simp [hpoint]) (by simp [WorkerPoint.current])
            (by simp [WorkerPoint.delivery]) (by simp) (by simp) (by simp) hnext
  | receiving =>
      simp only [RealtimeWorker.work, hpoint] at hnext
      split at hnext
      · exact h.advance _ (by simp [hpoint]) (by simp [WorkerPoint.current])
          (by simp [WorkerPoint.delivery]) (by simp) (by simp) (by simp) hnext
      · obtain ⟨rfl, rfl⟩ := Prod.mk.inj (Option.some.inj hnext)
        exact h.dequeue hpoint _ _
  | admitting selection =>
      simp only [RealtimeWorker.work, hpoint] at hnext
      obtain hnext := Option.some.inj hnext
      have hreceive := h.receive hpoint
      rwa [hnext] at hreceive
  | checking second selection attempts now =>
      simp only [RealtimeWorker.work, hpoint] at hnext
      obtain hnext := Option.some.inj hnext
      have hcheck := h.canDeliver hpoint
      rwa [hnext] at hcheck
  | ready selection attempts =>
      simp only [RealtimeWorker.work, hpoint] at hnext
      obtain ⟨rfl, rfl⟩ := Prod.mk.inj (Option.some.inj hnext)
      exact h.call hpoint
  | retrying selection attempts => exact h.retry hpoint hnext
  | exhausting selection =>
      simp only [RealtimeWorker.work, hpoint] at hnext
      obtain ⟨rfl, rfl⟩ := Prod.mk.inj (Option.some.inj hnext)
      exact h.count (by simp [hpoint, WorkerPoint.current]) state.failure _
  | delivering selection =>
      simp only [RealtimeWorker.work, hpoint] at hnext
      obtain ⟨rfl, rfl⟩ := Prod.mk.inj (Option.some.inj hnext)
      exact h.count (by simp [hpoint, WorkerPoint.current]) _ _
  | failing selection typeName =>
      simp only [RealtimeWorker.work, hpoint] at hnext
      obtain ⟨rfl, rfl⟩ := Prod.mk.inj (Option.some.inj hnext)
      rw [Option.toList_none, List.append_nil]
      exact h.fail hpoint _

/-- The running call ends. -/
theorem answered (h : Sound options state journal) {outcome : CallOutcome}
    {next : RealtimeWorker D} {entry : Option (RealtimeEvent D)}
    (hnext : state.answered outcome = some (next, entry)) :
    Sound options next (journal ++ entry.toList) := by
  unfold RealtimeWorker.answered at hnext
  split at hnext
  case h_1 caller through hpoint =>
    obtain ⟨rfl, rfl⟩ := Prod.mk.inj (Option.some.inj hnext)
    exact h.invalidate hpoint
  case h_2 caller through hpoint =>
    refine h.advance _ (by simp [hpoint]) ?_ ?_ (by simp) (by simp) (by simp) hnext
    · rw [hpoint]
      cases caller <;> exact fun _ hfound => hfound
    · rw [hpoint]
      cases caller <;> exact fun _ hfound => hfound
  case h_3 caller through typeName hpoint =>
    refine h.advance _ (by simp [hpoint]) ?_ ?_ (by simp) (by simp) (by simp) hnext
    · rw [hpoint]
      cases caller <;> exact fun _ hfound => hfound
    · rw [hpoint]
      cases caller <;> exact fun _ hfound => hfound
  case h_4 selection attempts hpoint =>
    obtain ⟨rfl, rfl⟩ := Prod.mk.inj (Option.some.inj hnext)
    exact h.succeed hpoint
  case h_5 selection attempts hpoint =>
    exact h.advance _ (by simp [hpoint]) (by simp [hpoint, WorkerPoint.current])
      (by simp [hpoint, WorkerPoint.delivery]) (by simp) (by simp) (by simp) hnext
  case h_6 selection attempts typeName hpoint =>
    obtain ⟨rfl, rfl⟩ := Prod.mk.inj (Option.some.inj hnext)
    exact h.fault (by simp [hpoint]) typeName
  case h_7 => cases hnext

/-- The clock is read. -/
theorem readClock (h : Sound options state journal) {reading : Except String Instant}
    {next : RealtimeWorker D} {entry : Option (RealtimeEvent D)}
    (hnext : state.readClock reading = some (next, entry)) :
    Sound options next (journal ++ entry.toList) := by
  unfold RealtimeWorker.readClock at hnext
  split at hnext
  case h_1 second selection attempts now hpoint =>
    exact h.advance _ (by simp [hpoint]) (by simp [hpoint, WorkerPoint.current])
      (by simp [hpoint, WorkerPoint.delivery]) (by simp) (by simp) (by simp) hnext
  case h_2 second selection attempts typeName hpoint =>
    obtain ⟨rfl, rfl⟩ := Prod.mk.inj (Option.some.inj hnext)
    exact h.fault (by simp [hpoint]) typeName
  case h_3 => cases hnext

/-- **Step lemma.**  Every step of every thread keeps the invariant. -/
theorem step (h : Sound options state journal) {action : RealtimeAction D}
    {next : RealtimeWorker D} {entry : Option (RealtimeEvent D)}
    (hnext : RealtimeWorker.step options state action = some (next, entry)) :
    Sound options next (journal ++ entry.toList) := by
  cases action with
  | offer selection =>
      have hoffer := h.offer selection
      rwa [Option.some.inj hnext] at hoffer
  | disconnected at' =>
      have hdisconnect := h.disconnect at'
      rwa [Option.some.inj hnext] at hdisconnect
  | close =>
      obtain ⟨rfl, rfl⟩ := Prod.mk.inj (Option.some.inj hnext)
      exact h.stop rfl state.failure
  | discard alive =>
      obtain ⟨rfl, rfl⟩ := Prod.mk.inj (Option.some.inj hnext)
      simpa using h.refill [] (if alive then some "SHUTDOWN_TIMEOUT" else state.failure)
  | work => exact h.work hnext
  | answer outcome => exact h.answered hnext
  | clock reading => exact h.readClock hnext

end Sound

/-- **Run lemma.**  The invariant holds after every run, in whatever order the steps come. -/
theorem sound_run {options : RealtimeOptions} {actions : List (RealtimeAction D)}
    {state : RealtimeWorker D} {journal : List (RealtimeEvent D)}
    (hrun : run options actions = some (state, journal)) : Sound options state journal :=
  journaled_invariant (sound_initial options)
    (fun _ _ _ _ _ hsound hnext => hsound.step hnext) hrun

/-! ## What a run delivers -/

/-- The decision clocks of the deliveries of a symbol, in their order. -/
def deliveriesOf (symbol : String) (journal : List (RealtimeEvent D)) : List Instant :=
  journal.filterMap fun
    | .succeeded selection => if selection.symbol = symbol then some selection.decisionAt else none
    | _ => none

/-- What a run of the worker owes to the callers and to the sink. -/
structure DeliversSoundly (options : RealtimeOptions) (state : RealtimeWorker D)
    (journal : List (RealtimeEvent D)) : Prop where
  /-- A symbol's deliveries are later and later decisions, so each at most once. -/
  once : ∀ symbol, (deliveriesOf symbol journal).Pairwise (· < ·)
  /-- A delivery is a call of the sink that returned. -/
  returned : ∀ before selection after, journal = before ++ .succeeded selection :: after →
    ∃ earlier since, before = earlier ++ .called selection :: since ∧
      ∀ e ∈ since, e.ofProducer = true
  /-- Every call of the sink follows a check of its own. -/
  checked : ∀ before selection after, journal = before ++ .called selection :: after →
    FreshlyChecked options before selection
  /-- No call is for a decision that a completed invalidation covers. -/
  invalidated : ∀ before selection after, journal = before ++ .called selection :: after →
    ∀ through, .invalidated through ∈ before → through < selection.decisionAt
  /-- After a permanent error or a conflict the symbol is never delivered again. -/
  isolated : ∀ before e after, journal = before ++ e :: after → ∀ symbol ∈ e.disables,
    ∀ selection, .called selection ∈ after → selection.symbol ≠ symbol
  /-- After an overflow a dequeued selection is neither checked for delivery nor delivered. -/
  overflowed : ∀ before middle selection after,
    journal = before ++ .overflowed :: middle ++ .dequeued selection :: after →
    ∀ other, (∀ now, .checked other now ∉ after) ∧ .called other ∉ after
  /-- Until the next one is dequeued a selection is counted at most once. -/
  counted : ∀ before selection handled after,
    journal = before ++ .dequeued selection :: handled ++ after →
    (∀ e ∈ handled, e.isDequeue = false) → (handled.filter (·.isCount)).length ≤ 1 ∧
      ∀ other counter, .counted other counter ∈ handled → other = selection
  /-- The counters of `health` are these counts. -/
  counters : ∀ counter, state.counter counter = (journal.filter (·.addsTo counter)).length

/-- The deliveries of a symbol, each after those before it, are increasing. -/
theorem deliveriesOf_pairwise {journal : List (RealtimeEvent D)}
    (h : ∀ before selection after, journal = before ++ .succeeded selection :: after →
      Undelivered before selection) (symbol : String) :
    (deliveriesOf symbol journal).Pairwise (· < ·) := by
  refine List.pairwise_filterMap.mpr (Justified.pairwise ?_)
  intro before e after hjournal earlier hearlier first hfirst last hlast
  cases e with
  | succeeded selection =>
      cases earlier with
      | succeeded other =>
          simp only [Option.ite_none_right_eq_some, Option.some.injEq] at hfirst hlast
          obtain ⟨hother, rfl⟩ := hfirst
          obtain ⟨hselection, rfl⟩ := hlast
          exact h before selection after hjournal other hearlier (hother.trans hselection.symm)
      | _ => cases hfirst
  | _ => cases hlast

/-- The dequeued selection that a later entry rests on is the last one. -/
theorem last_dequeued {before handled earlier since : List (RealtimeEvent D)}
    {selection other : RealtimeSelection D}
    (h : before ++ .dequeued selection :: handled = earlier ++ .dequeued other :: since)
    (hhandled : ∀ e ∈ handled, e.isDequeue = false) (hsince : ∀ e ∈ since, e.isDequeue = false) :
    before = earlier ∧ selection = other ∧ handled = since := by
  obtain ⟨hbefore, hsame, hrest⟩ :=
    split_last_unique (p := fun e => e.isDequeue = true) h rfl rfl
      (fun e he => by simp [hhandled e he]) (fun e he => by simp [hsince e he])
  exact ⟨hbefore, RealtimeEvent.dequeued.inj hsame, hrest⟩

/-- Until the next one is dequeued a selection is counted at most once. -/
theorem counted_once {journal before : List (RealtimeEvent D)}
    {selection : RealtimeSelection D}
    (h : ∀ earlier other counter later, journal = earlier ++ .counted other counter :: later →
      InHand earlier other)
    {handled after : List (RealtimeEvent D)}
    (hjournal : journal = before ++ .dequeued selection :: handled ++ after)
    (hhandled : ∀ e ∈ handled, e.isDequeue = false) :
    (handled.filter (·.isCount)).length ≤ 1 ∧
      ∀ other counter, .counted other counter ∈ handled → other = selection := by
  induction handled using List.reverseRecOn generalizing after with
  | nil => simp
  | append_singleton handled e ih =>
      have hearlier : ∀ e ∈ handled, e.isDequeue = false :=
        fun found hfound => hhandled found (List.mem_append_left _ hfound)
      obtain ⟨hlength, hsame⟩ := @ih (e :: after) (by simp [hjournal]) hearlier
      by_cases hcount : e.isCount = true
      · obtain ⟨other, counter, rfl⟩ : ∃ other counter, e = .counted other counter := by
          cases e <;> first | exact ⟨_, _, rfl⟩ | cases hcount
        obtain ⟨earlier, since, hsplit, hsince⟩ :=
          h (before ++ .dequeued selection :: handled) other counter after (by simp [hjournal])
        obtain ⟨-, rfl, rfl⟩ := last_dequeued hsplit hearlier fun e he => (hsince e he).1
        have hnone : handled.filter (·.isCount) = [] := by
          rw [List.filter_eq_nil_iff]
          intro e he
          simp [(hsince e he).2]
        constructor
        · rw [List.filter_append, hnone, List.nil_append]
          exact List.length_filter_le _ _
        · intro found foundCounter hfound
          rcases List.mem_append.mp hfound with hfound | hfound
          · exact hsame found foundCounter hfound
          · exact (RealtimeEvent.counted.inj (List.mem_singleton.mp hfound)).1
      · rw [Bool.not_eq_true] at hcount
        constructor
        · simpa [List.filter_append, hcount] using hlength
        · intro found foundCounter hfound
          rcases List.mem_append.mp hfound with hfound | hfound
          · exact hsame found foundCounter hfound
          · rw [← List.mem_singleton.mp hfound] at hcount
            cases hcount

/-- A selection taken before any stop was not taken after an overflow. -/
theorem TakenLive.not_after_overflow {before middle after : List (RealtimeEvent D)}
    {selection other : RealtimeSelection D} :
    ¬TakenLive (before ++ .overflowed :: middle ++ .dequeued selection :: after) other := by
  rintro ⟨earlier, since, hsplit, hearlier, hsince⟩
  -- the stop is not before the last dequeue, so it is after it, with the dequeue
  have hstop : RealtimeEvent.overflowed ∉ earlier := by
    intro hfound
    cases hearlier _ hfound
  rw [List.append_assoc, List.cons_append] at hsplit
  rcases List.append_eq_append_iff.mp hsplit with ⟨between, hbetween, hrest⟩ |
    ⟨between, hbetween, hrest⟩
  · cases between with
    | nil => cases (List.cons.inj hrest).1
    | cons first between =>
        obtain ⟨rfl, -⟩ := List.cons.inj hrest
        exact hstop (by simp [hbetween])
  · cases between with
    | nil => cases (List.cons.inj hrest).1
    | cons first between =>
        obtain ⟨-, hsince'⟩ := List.cons.inj hrest
        have hdequeue : RealtimeEvent.dequeued selection ∈ since := by simp [hsince']
        cases (hsince _ hdequeue).1

/-- For every order of the steps of the producers and of the worker, and every outcome of its
calls, the worker delivers soundly. -/
theorem delivers_soundly {options : RealtimeOptions} {actions : List (RealtimeAction D)}
    {state : RealtimeWorker D} {journal : List (RealtimeEvent D)}
    (hrun : run options actions = some (state, journal)) :
    DeliversSoundly options state journal := by
  have hsound := sound_run hrun
  constructor
  case once =>
    refine deliveriesOf_pairwise ?_
    intro before selection after hjournal
    exact (hsound.warranted before _ after hjournal).2
  case returned =>
    intro before selection after hjournal
    exact (hsound.warranted before _ after hjournal).1
  case checked =>
    intro before selection after hjournal
    exact (hsound.warranted before _ after hjournal).1
  case invalidated =>
    intro before selection after hjournal
    exact (hsound.warranted before _ after hjournal).2.1
  case isolated =>
    intro before e after hjournal symbol hsymbol selection hcalled
    obtain ⟨middle, later, rfl⟩ := List.append_of_mem hcalled
    rintro rfl
    have hcall := hsound.warranted (before ++ e :: middle) (.called selection) later
      (by simp [hjournal])
    exact hcall.2.2.2 e (by simp) hsymbol
  case overflowed =>
    intro before middle selection after hjournal other
    constructor
    · intro now hchecked
      obtain ⟨since, later, rfl⟩ := List.append_of_mem hchecked
      have htaken := hsound.warranted
        (before ++ .overflowed :: middle ++ .dequeued selection :: since) (.checked other now)
        later (by simp [hjournal])
      exact TakenLive.not_after_overflow htaken
    · intro hcalled
      obtain ⟨since, later, rfl⟩ := List.append_of_mem hcalled
      have hcall := hsound.warranted
        (before ++ .overflowed :: middle ++ .dequeued selection :: since) (.called other)
        later (by simp [hjournal])
      exact TakenLive.not_after_overflow hcall.2.2.1
  case counted =>
    intro before selection handled after hjournal hhandled
    refine counted_once ?_ hjournal hhandled
    intro earlier other counter later hsplit
    exact hsound.warranted earlier _ later hsplit
  case counters => exact hsound.counters

end RealtimeWorker

namespace Rehearsal

/-- A worker that delivers within a minute, retries once and invalidates. -/
def realtimeOptions : RealtimeOptions := ⟨seconds 60, 2, 2, true, by decide⟩

/-- The sink is unavailable once, then takes the selection; a disconnect is invalidated. -/
def realtimeActions : List (RealtimeAction Spelled) :=
  let delivery := [.clock (.ok (clock 2)), .work, .work, .clock (.ok (clock 3)), .work, .work]
  [.offer notified, .work, .work, .work, .work] ++ delivery ++ [.answer .transient, .work] ++
    delivery ++ [.answer .returned, .work, .disconnected (clock 5), .work, .answer .returned]

end Rehearsal

/-- The rehearsed selection is delivered at its second call. -/
theorem delivers_soundly_rehearsed : ∃ state journal,
    RealtimeWorker.run Rehearsal.realtimeOptions Rehearsal.realtimeActions =
      some (state, journal) ∧
    state.counter .delivered = 1 ∧ state.transientErrors = 1 ∧
    RealtimeWorker.DeliversSoundly Rehearsal.realtimeOptions state journal := by
  have hdelivered : (RealtimeWorker.run Rehearsal.realtimeOptions Rehearsal.realtimeActions).any
      (fun run => run.1.counter .delivered = 1 ∧ run.1.transientErrors = 1) = true := by
    decide +kernel
  cases hrun : RealtimeWorker.run Rehearsal.realtimeOptions Rehearsal.realtimeActions with
  | none => simp [hrun] at hdelivered
  | some run =>
      obtain ⟨state, journal⟩ := run
      rw [hrun, Option.any_some, decide_eq_true_eq] at hdelivered
      exact ⟨state, journal, rfl, hdelivered.1, hdelivered.2,
        RealtimeWorker.delivers_soundly hrun⟩

end MiniLakehouse
