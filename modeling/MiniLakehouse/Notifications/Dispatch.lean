import MiniLakehouse.Notifications.Store

/-!
# Notifier processes

Any number of notifier processes run `dispatch_one` (`notifications/telegram.py`)
against one store, while writers enqueue selections and announce disconnects.
Transactions are atomic; between two of them anything may happen, a crash of the
process included.  The journal records what happened, in order.
-/

namespace MiniLakehouse

/-- How an external send ended for its process: a provider message, a rate limit,
a refusal, or an error that may follow a successful send. -/
inductive SendAnswer where
  | delivered (providerMessageId : String)
  | retryAfter (delay : Int)
  | refused (errorName : String)
  | uncertain (errorName : String)

/-- The settings that `dispatch_one` accepts. -/
structure DispatchSettings where
  timeout : Int
  lease : Int
  maximumAttempts : Nat
  settings_valid : 0 < timeout ∧ timeout < lease ∧ 1 ≤ maximumAttempts

open DeliveryStore (FinishRequest)

/-- How far a process is in `dispatch_one`. -/
inductive DispatchStage (D T : Type) where
  | idle
  /-- The claim's payload is about to be read. -/
  | claimed (claim : DeliveryClaim D T)
  /-- The send window is about to be asked for. -/
  | readable (claim : DeliveryClaim D T)
  /-- The message is about to be sent. -/
  | allowed (claim : DeliveryClaim D T)
  /-- The message is on its way. -/
  | sending (claim : DeliveryClaim D T)
  /-- The claim is about to be finished. -/
  | finishing (claim : DeliveryClaim D T) (request : FinishRequest)

/-- The claim that a process holds. -/
def DispatchStage.claim {D T : Type} : DispatchStage D T → Option (DeliveryClaim D T)
  | .idle => none
  | .claimed claim | .readable claim | .allowed claim | .sending claim
  | .finishing claim _ => some claim

/-- What happened. -/
inductive DeliveryEntry (D T : Type) where
  | invalidated (disconnectedAt : Instant)
  | claimed (claim : DeliveryClaim D T)
  /-- `may_send` has returned true. -/
  | allowed (claim : DeliveryClaim D T)
  | send (claim : DeliveryClaim D T)
  | answered (claim : DeliveryClaim D T) (answer : SendAnswer)
  | finished (claim : DeliveryClaim D T) (status : DeliveryStatus)

/-- The store, the last reading of its clock, every process, and the journal. -/
structure DeliverySystem (P D T : Type) where
  store : DeliveryStore D T
  clock : Instant
  stages : P → DispatchStage D T
  journal : List (DeliveryEntry D T)

/-- What happens next, with all that the code does not decide: readings of the
clock, tokens, the outside's answers, and whether a payload still validates. -/
inductive DeliveryAction (P D T : Type) [Hashing D] where
  | invalidate (disconnectedAt : Instant)
  | enqueue (selection : RealtimeSelection D) (lifetime : Int) (now : Instant)
  | claim (process : P) (token : T) (lostAt expiredAt claimedAt : Instant)
  | read (process : P) (readable : Bool)
  | maySend (process : P) (now : Instant) (elapsed : Int)
  | send (process : P)
  | answer (process : P) (answer : SendAnswer)
  | finish (process : P) (cooledAt finishedAt : Instant)
  | crash (process : P)

namespace SendAnswer

/-- The request that `dispatch_one` finishes an answered send with. -/
def request (maximumAttempts attempts : Nat) : SendAnswer → FinishRequest
  | .delivered providerMessageId => ⟨.sent, none, some providerMessageId, 0⟩
  | .retryAfter delay =>
      ⟨if maximumAttempts ≤ attempts then .failed else .pending, some "RATE_LIMIT", none,
        max delay (seconds 1)⟩
  | .refused errorName => ⟨.failed, some errorName, none, 0⟩
  | .uncertain errorName => ⟨.unknown, some errorName, none, 0⟩

/-- A retryable answer. -/
def IsRateLimit (answer : SendAnswer) : Prop := ∃ delay, answer = .retryAfter delay

end SendAnswer

namespace DeliverySystem

variable {P D T : Type}

/-- A store as the bootstrap leaves it, with idle processes. -/
def initial (clock : Instant) : DeliverySystem P D T :=
  ⟨.bootstrap, clock, fun _ => .idle, []⟩

/-- Readings of the clock, in order, do not precede the last one. -/
def ticks (system : DeliverySystem P D T) (readings : List Instant) : Prop :=
  (system.clock :: readings).IsChain (· ≤ ·)

instance (system : DeliverySystem P D T) (readings : List Instant) :
    Decidable (system.ticks readings) := by
  unfold ticks; infer_instance

variable [DecidableEq P]

/-- A process in another stage. -/
def moveTo (system : DeliverySystem P D T) (process : P) (stage : DispatchStage D T) :
    DeliverySystem P D T :=
  { system with stages := Function.update system.stages process stage }

@[simp] theorem moveTo_self (system : DeliverySystem P D T) (process : P)
    (stage : DispatchStage D T) : (system.moveTo process stage).stages process = stage :=
  Function.update_self _ _ _

theorem moveTo_other (system : DeliverySystem P D T) {process other : P}
    (stage : DispatchStage D T) (h : other ≠ process) :
    (system.moveTo process stage).stages other = system.stages other :=
  Function.update_of_ne h _ _

/-- One more entry in the journal. -/
def note (system : DeliverySystem P D T) (entry : DeliveryEntry D T) : DeliverySystem P D T :=
  { system with journal := system.journal ++ [entry] }

/-- A committed transaction, at its last reading of the clock. -/
def commit (system : DeliverySystem P D T) (store : DeliveryStore D T) (clock : Instant) :
    DeliverySystem P D T :=
  { system with store := store, clock := clock }

variable [Hashing D] [DecidableEq T]

/-- After the send window has been asked for. -/
def afterWindow (settings : DispatchSettings) (system : DeliverySystem P D T) (process : P)
    (claim : DeliveryClaim D T) (allowed : Bool) : DeliverySystem P D T :=
  if allowed = false then
    system.moveTo process (.finishing claim ⟨.expired, some "INELIGIBLE_SEND_WINDOW", none, 0⟩)
  else if settings.maximumAttempts < claim.attempts then
    (system.note (.allowed claim)).moveTo process
      (.finishing claim ⟨.failed, some "ATTEMPT_LIMIT", none, 0⟩)
  else (system.note (.allowed claim)).moveTo process (.allowed claim)

/-- One action, where it can happen.  A transaction that raises changes nothing and
ends `dispatch_one`. -/
def step (settings : P → DispatchSettings) (system : DeliverySystem P D T) :
    DeliveryAction P D T → Option (DeliverySystem P D T)
  | .invalidate disconnectedAt =>
      some ((system.commit (system.store.invalidate disconnectedAt) system.clock).note
        (.invalidated disconnectedAt))
  | .enqueue selection lifetime now =>
      if system.ticks [now] then
        match system.store.enqueue selection lifetime now with
        | .ok (_, store) => some (system.commit store now)
        | .error _ => some (system.commit system.store now)
      else none
  | .claim process token lostAt expiredAt claimedAt =>
      if system.ticks [lostAt, expiredAt, claimedAt] then
        match system.stages process with
        | .idle =>
            match system.store.claim (settings process).lease token lostAt expiredAt claimedAt with
            | .ok (some claim, store) => some (((system.commit store claimedAt).note
                (.claimed claim)).moveTo process (.claimed claim))
            | .ok (none, store) => some (system.commit store claimedAt)
            | .error _ => some (system.commit system.store claimedAt)
        | _ => none
      else none
  | .read process readable =>
      match system.stages process with
      | .claimed claim =>
          if readable then some (system.moveTo process (.readable claim))
          else some (system.moveTo process
            (.finishing claim ⟨.failed, some "INVALID_PAYLOAD", none, 0⟩))
      | _ => none
  | .maySend process now elapsed =>
      if system.ticks [now] then
        match system.stages process with
        | .readable claim =>
            let allowed := system.store.maySend claim (settings process).timeout now elapsed
            some (afterWindow (settings process) (system.commit system.store now) process claim
              allowed)
        | _ => none
      else none
  | .send process =>
      match system.stages process with
      | .allowed claim => some ((system.note (.send claim)).moveTo process (.sending claim))
      | _ => none
  | .answer process answer =>
      match system.stages process with
      | .sending claim => some ((system.note (.answered claim answer)).moveTo process
          (.finishing claim (answer.request (settings process).maximumAttempts claim.attempts)))
      | _ => none
  | .finish process cooledAt finishedAt =>
      if system.ticks [cooledAt, finishedAt] then
        match system.stages process with
        | .finishing claim request =>
            match system.store.finish claim request cooledAt finishedAt with
            | .ok (status, store) => some (((system.commit store finishedAt).note
                (.finished claim status)).moveTo process .idle)
            | .error _ => some ((system.commit system.store finishedAt).moveTo process .idle)
        | _ => none
      else none
  | .crash process => some (system.moveTo process .idle)

/-- A run, where every action can happen. -/
def run (settings : P → DispatchSettings) (system : DeliverySystem P D T)
    (actions : List (DeliveryAction P D T)) : Option (DeliverySystem P D T) :=
  actions.foldlM (step settings) system

end DeliverySystem

end MiniLakehouse
