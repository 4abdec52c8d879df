import MiniLakehouse.Library.Journal
import MiniLakehouse.Notifications.Store

/-!
# Realtime worker

The bounded handoff of selections (`realtime.py`).  Producers offer selections and report
disconnects, and one thread runs `_run`.  Every section under the lock is one step, and so
is every call out of the worker and every reading of its clock, so that the producers come
between any two of them.  `WorkerPoint` is where the thread stands.
-/

namespace MiniLakehouse

variable {D : Type} [Hashing D]

namespace RealtimeSelection

def symbol (selection : RealtimeSelection D) : String := selection.candidate.symbol

def decisionAt (selection : RealtimeSelection D) : Instant := selection.candidate.decisionAt

end RealtimeSelection

/-- What `RealtimeWorker.__init__` is given; how long it waits is left out. -/
structure RealtimeOptions where
  maximumDelay : Int
  capacity : Nat
  maximumAttempts : Nat
  /-- Whether there is an `invalidate` callback. -/
  invalidates : Bool
  budgets_pos : 0 < maximumDelay ∧ 1 ≤ capacity ∧ 1 ≤ maximumAttempts

/-- How a call to the sink or to `invalidate` ends: `TransientDatabaseError` is apart from
every other exception. -/
inductive CallOutcome where
  | returned
  | transient
  | raised (typeName : String)

/-- Who called `_sync_invalidation`. -/
inductive SyncCaller (D : Type) [Hashing D] where
  | run
  | deliver (selection : RealtimeSelection D) (attempts : Nat)

/-- What the worker's thread does next. -/
inductive WorkerPoint (D : Type) [Hashing D] where
  /-- The first section of `_sync_invalidation`. -/
  | syncing (caller : SyncCaller D)
  /-- `self._invalidate(at)` is running. -/
  | invalidating (caller : SyncCaller D) (through : Instant)
  /-- The callback has returned. -/
  | invalidated (caller : SyncCaller D) (through : Instant)
  /-- The callback raised `TransientDatabaseError`. -/
  | unavailable (caller : SyncCaller D)
  /-- The callback raised another exception. -/
  | broken (caller : SyncCaller D) (typeName : String)
  /-- `if self._stop.is_set()` of `_run`. -/
  | stopCheck (synchronized : Bool)
  /-- `self._queue.get` -/
  | receiving
  /-- The section of `_run` on a dequeued selection. -/
  | admitting (selection : RealtimeSelection D)
  /-- `self._clock()` of the loop's or of the second `_can_deliver`. -/
  | reading (second : Bool) (selection : RealtimeSelection D) (attempts : Nat)
  /-- The section of `_can_deliver`. -/
  | checking (second : Bool) (selection : RealtimeSelection D) (attempts : Nat) (now : Instant)
  /-- `self._sink(selection)` is about to be called. -/
  | ready (selection : RealtimeSelection D) (attempts : Nat)
  /-- `self._sink(selection)` is running. -/
  | sinking (selection : RealtimeSelection D) (attempts : Nat)
  /-- The sink raised `TransientDatabaseError`. -/
  | retrying (selection : RealtimeSelection D) (attempts : Nat)
  /-- The attempts are used up. -/
  | exhausting (selection : RealtimeSelection D)
  /-- `_deliver` has returned true. -/
  | delivering (selection : RealtimeSelection D)
  /-- The sink or the clock raised another exception. -/
  | failing (selection : RealtimeSelection D) (typeName : String)
  /-- `_run` has returned. -/
  | returned

/-- The counters of `health` that count selections. -/
inductive RealtimeCounter where
  | delivered
  | stale
  | duplicates
  | disconnected
  | retryExhausted
  deriving DecidableEq, Repr

/-- What the journal notes of a run. -/
inductive RealtimeEvent (D : Type) [Hashing D] where
  /-- `disconnected(at)` was called. -/
  | disconnected (at' : Instant)
  /-- An offer found the queue full. -/
  | overflowed
  /-- The worker was stopped otherwise. -/
  | stopped
  /-- `invalidate(at)` returned. -/
  | invalidated (through : Instant)
  /-- A selection was taken from the queue. -/
  | dequeued (selection : RealtimeSelection D)
  /-- `_can_deliver` returned true. -/
  | checked (selection : RealtimeSelection D) (now : Instant)
  /-- The sink was called. -/
  | called (selection : RealtimeSelection D)
  /-- The sink returned. -/
  | succeeded (selection : RealtimeSelection D)
  /-- The sink or the clock raised a permanent error. -/
  | faulted (selection : RealtimeSelection D)
  /-- The selection conflicts with the last one of its symbol. -/
  | conflicted (selection : RealtimeSelection D)
  /-- The selection was counted. -/
  | counted (selection : RealtimeSelection D) (counter : RealtimeCounter)

/-- `RealtimeWorker` -/
structure RealtimeWorker (D : Type) [Hashing D] where
  queue : List (RealtimeSelection D)
  stopped : Bool
  failure : Option String
  failedSymbols : List String
  lastDecision : String → Option (Instant × D)
  notBefore : Option Instant
  invalidatedThrough : Option Instant
  counter : RealtimeCounter → Nat
  transientErrors : Nat
  point : WorkerPoint D

/-- What the callers do. -/
inductive RealtimeAction (D : Type) [Hashing D] where
  | offer (selection : RealtimeSelection D)
  | disconnected (at' : Instant)
  /-- The first statement of `close`. -/
  | close
  /-- The last section of `close`, with whether the thread is still alive. -/
  | discard (alive : Bool)
  /-- The worker's next step, where it does not wait for an answer. -/
  | work
  /-- The running call ends. -/
  | answer (outcome : CallOutcome)
  /-- The clock is read, or raises. -/
  | clock (reading : Except String Instant)

/-- `_sync_invalidation` returns to its caller, which waits where it is not synchronized. -/
def SyncCaller.resume (synchronized : Bool) : SyncCaller D → WorkerPoint D
  | .run => .stopCheck synchronized
  | .deliver selection attempts => .reading synchronized selection attempts

namespace RealtimeWorker

/-- `RealtimeWorker.__init__` -/
def initial : RealtimeWorker D where
  queue := []
  stopped := false
  failure := none
  failedSymbols := []
  lastDecision := fun _ => none
  notBefore := none
  invalidatedThrough := none
  counter := fun _ => 0
  transientErrors := 0
  point := .syncing .run

variable (options : RealtimeOptions) (state : RealtimeWorker D)

/-- The thread goes on, and nothing is noted. -/
def goto (point : WorkerPoint D) : Option (RealtimeWorker D × Option (RealtimeEvent D)) :=
  some ({ state with point := point }, none)

/-- The work on a selection ends with a counter. -/
def count (selection : RealtimeSelection D) (counter : RealtimeCounter) :
    RealtimeWorker D × Option (RealtimeEvent D) :=
  ({ state with
    counter := Function.update state.counter counter (state.counter counter + 1)
    point := .syncing .run }, some (.counted selection counter))

/-- `offer` -/
def offer (selection : RealtimeSelection D) : RealtimeWorker D × Option (RealtimeEvent D) :=
  if state.stopped ∨ selection.symbol ∈ state.failedSymbols then (state, none)
  else if state.queue.length < options.capacity then
    ({ state with queue := state.queue ++ [selection] }, none)
  else ({ state with failure := some "QUEUE_OVERFLOW", stopped := true }, some .overflowed)

/-- `disconnected` -/
def disconnect (at' : Instant) : RealtimeWorker D × Option (RealtimeEvent D) :=
  ({ state with notBefore := some (state.notBefore.elim at' (max at')) },
    some (.disconnected at'))

/-- `_transient_failure` -/
def transientFailure : RealtimeWorker D :=
  { state with
    transientErrors := state.transientErrors + 1
    failure := some "TRANSIENT_DB_UNAVAILABLE" }

/-- The section of `_run` on a dequeued selection. -/
def receive (selection : RealtimeSelection D) : RealtimeWorker D × Option (RealtimeEvent D) :=
  let admitted : RealtimeWorker D × Option (RealtimeEvent D) :=
    ({ state with
      lastDecision := Function.update state.lastDecision selection.symbol
        (some (selection.decisionAt, selection.arbitration.sha256))
      point := .reading false selection 0 }, none)
  if state.stopped ∨ selection.symbol ∈ state.failedSymbols then
    ({ state with point := .syncing .run }, none)
  else
    match state.lastDecision selection.symbol with
    | none => admitted
    | some (previous, sha256) =>
        if selection.decisionAt = previous ∧ selection.arbitration.sha256 ≠ sha256 then
          ({ state with
            failedSymbols := selection.symbol :: state.failedSymbols
            failure := some "CONFLICTING_SELECTION"
            point := .syncing .run }, some (.conflicted selection))
        else if selection.decisionAt ≤ previous then state.count selection .duplicates
        else admitted

/-- The section of `_can_deliver`, once the clock has been read. -/
def canDeliver (second : Bool) (selection : RealtimeSelection D) (attempts : Nat)
    (now : Instant) : RealtimeWorker D × Option (RealtimeEvent D) :=
  if state.stopped then ({ state with point := .syncing .run }, none)
  else if state.notBefore.any (selection.decisionAt ≤ ·) then
    state.count selection .disconnected
  else if 0 ≤ now - selection.decisionAt ∧ now - selection.decisionAt ≤ options.maximumDelay then
    ({ state with
      point := if second then .ready selection attempts
        else .syncing (.deliver selection attempts) }, some (.checked selection now))
  else state.count selection .stale

/-- The worker's own steps: sections under the lock, the check of `_stop` and the queue. -/
def work : Option (RealtimeWorker D × Option (RealtimeEvent D)) :=
  match state.point with
  | .syncing caller =>
      match (if options.invalidates then state.notBefore else none) with
      | none => state.goto (caller.resume true)
      | some through =>
          if state.invalidatedThrough = some through then state.goto (caller.resume true)
          else state.goto (.invalidating caller through)
  | .invalidated caller through =>
      some ({ state with
        invalidatedThrough := some through
        failure := if state.failure = some "TRANSIENT_DB_UNAVAILABLE" then none else state.failure
        point := caller.resume (state.notBefore = some through) }, none)
  | .unavailable caller => state.transientFailure.goto (caller.resume false)
  | .broken caller typeName =>
      some ({ state with
        failure := some ("INVALIDATION_ERROR:" ++ typeName)
        stopped := true
        point := caller.resume false }, some .stopped)
  | .stopCheck synchronized =>
      if state.stopped then state.goto .returned
      else if synchronized then state.goto .receiving
      else state.goto (.syncing .run)
  | .receiving =>
      match state.queue with
      | [] => state.goto (.syncing .run)
      | selection :: rest =>
          some ({ state with queue := rest, point := .admitting selection },
            some (.dequeued selection))
  | .admitting selection => some (state.receive selection)
  | .checking second selection attempts now =>
      some (state.canDeliver options second selection attempts now)
  | .ready selection attempts =>
      some ({ state with point := .sinking selection attempts }, some (.called selection))
  | .retrying selection attempts =>
      if attempts + 1 ≥ options.maximumAttempts then
        state.transientFailure.goto (.exhausting selection)
      else state.transientFailure.goto (.reading false selection (attempts + 1))
  | .exhausting selection => some (state.count selection .retryExhausted)
  | .delivering selection =>
      let cleared := if state.failure.any (·.startsWith "TRANSIENT_DB") then none else state.failure
      some ({ state with failure := cleared }.count selection .delivered)
  | .failing selection typeName =>
      some ({ state with
        failedSymbols := selection.symbol :: state.failedSymbols
        failure := some ("SINK_OR_CLOCK_ERROR:" ++ typeName)
        point := .syncing .run }, none)
  | .invalidating _ _ | .reading _ _ _ | .sinking _ _ | .returned => none

/-- The end of the call that is running. -/
def answered (outcome : CallOutcome) : Option (RealtimeWorker D × Option (RealtimeEvent D)) :=
  match state.point, outcome with
  | .invalidating caller through, .returned =>
      some ({ state with point := .invalidated caller through }, some (.invalidated through))
  | .invalidating caller _, .transient => state.goto (.unavailable caller)
  | .invalidating caller _, .raised typeName => state.goto (.broken caller typeName)
  | .sinking selection _, .returned =>
      some ({ state with point := .delivering selection }, some (.succeeded selection))
  | .sinking selection attempts, .transient => state.goto (.retrying selection attempts)
  | .sinking selection _, .raised typeName =>
      some ({ state with point := .failing selection typeName }, some (.faulted selection))
  | _, _ => none

/-- The clock of `_can_deliver`: a naive reading raises. -/
def readClock (reading : Except String Instant) :
    Option (RealtimeWorker D × Option (RealtimeEvent D)) :=
  match state.point, reading with
  | .reading second selection attempts, .ok now =>
      state.goto (.checking second selection attempts now)
  | .reading _ selection _, .error typeName =>
      some ({ state with point := .failing selection typeName }, some (.faulted selection))
  | _, _ => none

/-- One step of a producer or of the worker, with what it notes. -/
def step : RealtimeAction D → Option (RealtimeWorker D × Option (RealtimeEvent D))
  | .offer selection => some (state.offer options selection)
  | .disconnected at' => some (state.disconnect at')
  | .close => some ({ state with stopped := true }, some .stopped)
  | .discard alive =>
      some ({ state with
        queue := []
        failure := if alive then some "SHUTDOWN_TIMEOUT" else state.failure }, none)
  | .work => state.work options
  | .answer outcome => state.answered outcome
  | .clock reading => state.readClock reading

/-- A run in any order of steps, from the start of the thread. -/
def run (actions : List (RealtimeAction D)) :
    Option (RealtimeWorker D × List (RealtimeEvent D)) :=
  actions.foldlM (journaled (step options)) (initial, [])

end RealtimeWorker

end MiniLakehouse
