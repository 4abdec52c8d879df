import MiniLakehouse.Arbitration.Model
import MiniLakehouse.Library.Keyed

/-!
# Shadow delivery store

Durable shadow delivery state (`notifications/postgres.py`, tables
`shadow_deliveries` and `shadow_delivery_control`).  PostgreSQL owns claims,
deadlines and retry clocks: every statement is given the reading of
`clock_timestamp()` that it sees.  A transaction that raises leaves no state.
-/

namespace MiniLakehouse

/-- One selected candidate with its evidence (`arbitration/selection.py`).  The
context and the features are stored and delivered, but not read here. -/
structure RealtimeSelection (D : Type) [Hashing D] where
  candidate : BaselineCandidate D
  arbitration : CandidateArbitration D
  evidence : Json D
  selected : SelectsCandidate candidate arbitration

/-- `canonical_bytes` -/
def RealtimeSelection.canonicalBytes {D : Type} [Hashing D] (selection : RealtimeSelection D) :
    Json D :=
  .arr [selection.candidate.modelDump, selection.arbitration.modelDump, selection.evidence]

/-- `DeliveryStatus`: what a claim may be finished as. -/
inductive DeliveryStatus where
  | sent
  | expired
  | failed
  | unknown
  | pending
  deriving DecidableEq, Repr

/-- The `status` of a row.  The lease columns are present exactly while it is
`SENDING`, as the table's constraints say. -/
inductive RowStatus (T : Type) where
  | sending (leaseToken : T) (leaseUntil : Instant)
  | resting (status : DeliveryStatus)
  deriving DecidableEq

namespace RowStatus

variable {T : Type}

def isSending : RowStatus T → Bool
  | .sending _ _ => true
  | .resting _ => false

def isPending : RowStatus T → Bool
  | .resting .pending => true
  | .sending _ _ | .resting _ => false

/-- Whether the lease of a `SENDING` row is over. -/
def leaseLost (now : Instant) : RowStatus T → Bool
  | .sending _ leaseUntil => leaseUntil ≤ now
  | .resting _ => false

/-- A status that no statement leaves: neither `PENDING` nor `SENDING`. -/
def isTerminal : RowStatus T → Bool
  | .sending _ _ | .resting .pending => false
  | .resting .sent | .resting .expired | .resting .failed | .resting .unknown => true

end RowStatus

/-- What a row never changes. -/
structure DeliveryKey (D : Type) where
  selectionId : D
  symbol : String
  decisionAt : Instant
  expiresAt : Instant
  payloadJson : Json D
  payloadSha256 : D

/-- What the statements of a row change. -/
structure DeliveryState (T : Type) where
  status : RowStatus T
  attempts : Nat
  availableAt : Instant
  errorCode : Option String
  providerMessageId : Option String

/-- A row of `shadow_deliveries`. -/
structure Delivery (D T : Type) extends DeliveryKey D, DeliveryState T

/-- The row with another state. -/
def Delivery.withState {D T : Type} (row : Delivery D T) (state : DeliveryState T) :
    Delivery D T :=
  { row with toDeliveryState := state }

/-- The row of `shadow_delivery_control`; a cooldown that is absent is `-infinity`. -/
structure DeliveryControl where
  invalidatedThrough : Option Instant
  cooldownUntil : Option Instant

/-- Whether the disconnect watermark has reached a decision. -/
def DeliveryControl.invalidates (control : DeliveryControl) (decisionAt : Instant) : Bool :=
  control.invalidatedThrough.any (decisionAt ≤ ·)

/-- Whether the cooldown is over. -/
def DeliveryControl.cooled (control : DeliveryControl) (now : Instant) : Bool :=
  control.cooldownUntil.all (· ≤ now)

/-- Both tables.  Selections are unique, and so are symbols at a decision. -/
structure DeliveryStore (D T : Type) where
  control : DeliveryControl
  rows : List (Delivery D T)
  ids_unique : (rows.map (·.selectionId)).Nodup
  slots_unique : (rows.map fun row => (row.symbol, row.decisionAt)).Nodup

/-- `DeliveryClaim` -/
structure DeliveryClaim (D T : Type) where
  selectionId : D
  token : T
  expiresAt : Instant
  payloadJson : Json D
  payloadSha256 : D
  attempts : Nat

namespace DeliveryStore

variable {D T : Type}

/-- The tables as the bootstrap leaves them. -/
def bootstrap : DeliveryStore D T where
  control := ⟨none, none⟩
  rows := []
  ids_unique := List.nodup_nil
  slots_unique := List.nodup_nil

/-- An `UPDATE` of every row's state. -/
def update (store : DeliveryStore D T) (change : Delivery D T → DeliveryState T) :
    DeliveryStore D T where
  control := store.control
  rows := store.rows.map fun row => row.withState (change row)
  ids_unique := by
    rw [List.map_map]
    exact store.ids_unique
  slots_unique := by
    rw [List.map_map]
    exact store.slots_unique

/-- An `UPDATE` of the rows that a condition holds of. -/
def updateWhere (store : DeliveryStore D T) (condition : Delivery D T → Bool)
    (change : Delivery D T → DeliveryState T) : DeliveryStore D T :=
  store.update fun row => if condition row then change row else row.toDeliveryState

/-- Another control row. -/
def withControl (store : DeliveryStore D T) (control : DeliveryControl) : DeliveryStore D T :=
  { store with control := control }

section

variable [DecidableEq D]

/-- `INSERT … ON CONFLICT DO NOTHING` -/
def insert (store : DeliveryStore D T) (row : Delivery D T) : DeliveryStore D T :=
  if h : (∀ other ∈ store.rows, other.selectionId ≠ row.selectionId) ∧
      ∀ other ∈ store.rows, (other.symbol, other.decisionAt) ≠ (row.symbol, row.decisionAt) then
    { control := store.control
      rows := store.rows ++ [row]
      ids_unique := by
        rw [List.map_append]
        refine List.Nodup.append store.ids_unique (List.nodup_singleton _) ?_
        simpa [List.disjoint_right] using h.1
      slots_unique := by
        rw [List.map_append]
        refine List.Nodup.append store.slots_unique (List.nodup_singleton _) ?_
        simpa [List.disjoint_right] using h.2 }
  else store

end

/-! ## Transactions -/

/-- `invalidate`: advance the disconnect watermark. -/
def invalidate (store : DeliveryStore D T) (disconnectedAt : Instant) : DeliveryStore D T :=
  let control : DeliveryControl := { store.control with
    invalidatedThrough :=
      some (store.control.invalidatedThrough.elim disconnectedAt (max disconnectedAt)) }
  (store.withControl control).updateWhere
    (fun row => row.status.isPending && control.invalidates row.decisionAt)
    fun row => { row.toDeliveryState with
      status := .resting .expired
      errorCode := some "CAPTURE_DISCONNECTED" }

variable [Hashing D]

/-- The status of a new row. -/
def admission (store : DeliveryStore D T) (decisionAt expiresAt now : Instant) : DeliveryStatus :=
  if expiresAt ≤ now ∨ store.control.invalidates decisionAt then .expired
  else if now < decisionAt then .failed
  else .pending

/-- The row that `enqueue` inserts. -/
def admitted (store : DeliveryStore D T) (selection : RealtimeSelection D) (lifetime : Int)
    (now : Instant) : Delivery D T where
  selectionId := selection.arbitration.sha256
  symbol := selection.candidate.symbol
  decisionAt := selection.candidate.decisionAt
  expiresAt := selection.candidate.decisionAt + lifetime
  payloadJson := selection.canonicalBytes
  payloadSha256 := sha256 selection.canonicalBytes
  status := .resting (store.admission selection.candidate.decisionAt
    (selection.candidate.decisionAt + lifetime) now)
  attempts := 0
  availableAt := now
  errorCode := none
  providerMessageId := none

/-- `enqueue` -/
def enqueue (store : DeliveryStore D T) (selection : RealtimeSelection D) (lifetime : Int)
    (now : Instant) : Except Raised (D × DeliveryStore D T) := do
  require (0 < lifetime) (Raised.valueError "delivery lifetime must be positive")
  let row := store.admitted selection lifetime now
  let inserted := store.insert row
  let found := inserted.rows.find? fun other =>
    other.symbol = row.symbol && other.decisionAt = row.decisionAt
  require (found.any fun found => found.selectionId = row.selectionId &&
      found.payloadSha256 = row.payloadSha256 && found.expiresAt = row.expiresAt)
    (Raised.valueError "conflicting durable shadow selection or deadline")
  return (row.selectionId, inserted)

/-- A prior process may have sent before losing its acknowledgement. -/
def loseLeases (store : DeliveryStore D T) (now : Instant) : DeliveryStore D T :=
  store.updateWhere (·.status.leaseLost now) fun row => { row.toDeliveryState with
    status := .resting .unknown
    errorCode := some "LEASE_LOST" }

/-- Pending rows past their deadline expire. -/
def expire (store : DeliveryStore D T) (now : Instant) : DeliveryStore D T :=
  store.updateWhere (fun row => row.status.isPending && row.expiresAt ≤ now) fun row =>
    { row.toDeliveryState with status := .resting .expired }

/-- Whether a row can be claimed, nothing else being sent. -/
def claimable (store : DeliveryStore D T) (now : Instant) (row : Delivery D T) : Bool :=
  row.status.isPending && row.availableAt ≤ now && row.decisionAt ≤ now && now < row.expiresAt &&
    store.rows.all (!·.status.isSending) && store.control.cooled now &&
    !store.control.invalidates row.decisionAt

/-- The next row: the first claimable one by decision and selection. -/
def next (store : DeliveryStore D T) (now : Instant) : Option (Delivery D T) :=
  (sortOn (fun row : Delivery D T => (toLex (row.decisionAt, row.selectionId) : Instant ×ₗ D))
    (store.rows.filter (store.claimable now))).head?

/-- The claimed state of a row. -/
def claimedState (row : Delivery D T) (token : T) (leaseUntil : Instant) : DeliveryState T :=
  { row.toDeliveryState with
    status := .sending token leaseUntil
    attempts := row.attempts + 1 }

/-- `claim`, once the control row is locked; its three statements read the clock. -/
def claim (store : DeliveryStore D T) (lease : Int) (token : T)
    (lostAt expiredAt claimedAt : Instant) :
    Except Raised (Option (DeliveryClaim D T) × DeliveryStore D T) := do
  require (0 < lease) (Raised.valueError "delivery lease must be positive")
  let settled := (store.loseLeases lostAt).expire expiredAt
  match settled.next claimedAt with
  | none => return (none, settled)
  | some row => return (some {
        selectionId := row.selectionId
        token := token
        expiresAt := row.expiresAt
        payloadJson := row.payloadJson
        payloadSha256 := row.payloadSha256
        attempts := row.attempts + 1 },
      settled.updateWhere (·.selectionId = row.selectionId) fun row =>
        claimedState row token (claimedAt + lease))

variable [DecidableEq T]

/-- Whether a row is leased to a claim. -/
def leasedTo (claim : DeliveryClaim D T) (row : Delivery D T) : Bool :=
  row.selectionId = claim.selectionId &&
    match row.status with
    | .sending leaseToken _ => leaseToken = claim.token
    | .resting _ => false

/-- `may_send`: the send window that is left of the lease and the deadline, less
the duration of the round trip. -/
def maySend (store : DeliveryStore D T) (claim : DeliveryClaim D T) (timeout : Int)
    (now : Instant) (elapsed : Int) : Bool :=
  store.rows.any fun row => leasedTo claim row && store.control.cooled now &&
    !store.control.invalidates row.decisionAt &&
    match row.status with
    | .sending _ leaseUntil => timeout < min row.expiresAt leaseUntil - now - elapsed
    | .resting _ => false

/-- What a claim is finished with. -/
structure FinishRequest where
  status : DeliveryStatus
  errorCode : Option String
  providerMessageId : Option String
  retryAfter : Int

/-- The status that `_finish` writes: a retry that would come too late expires. -/
def finishedStatus (store : DeliveryStore D T) (request : FinishRequest) (row : Delivery D T)
    (now : Instant) : DeliveryStatus :=
  if request.status = .pending ∧ (row.expiresAt ≤ now + request.retryAfter ∨
      store.control.invalidates row.decisionAt) then .expired
  else request.status

/-- Whether a row is leased to a claim whose lease is not over. -/
def finishable (claim : DeliveryClaim D T) (now : Instant) (row : Delivery D T) : Bool :=
  leasedTo claim row && !row.status.leaseLost now

/-- The cooldown that a rate limit imposes. -/
def coolDown (store : DeliveryStore D T) (request : FinishRequest) (now : Instant) :
    DeliveryStore D T :=
  if request.errorCode = some "RATE_LIMIT" then
    store.withControl { store.control with
      cooldownUntil := some (store.control.cooldownUntil.elim (now + request.retryAfter)
        (max (now + request.retryAfter))) }
  else store

/-- `finish`; its two statements read the clock. -/
def finish (store : DeliveryStore D T) (claim : DeliveryClaim D T) (request : FinishRequest)
    (cooledAt finishedAt : Instant) : Except Raised (DeliveryStatus × DeliveryStore D T) := do
  require (0 ≤ request.retryAfter) (Raised.valueError "retry delay cannot be negative")
  let cooled := store.coolDown request cooledAt
  match cooled.rows.find? (finishable claim finishedAt) with
  | none => throw (.runtimeError "shadow delivery lease lost; do not repeat external send")
  | some row => return (cooled.finishedStatus request row finishedAt,
      cooled.updateWhere (finishable claim finishedAt) fun row => {
        status := .resting (cooled.finishedStatus request row finishedAt)
        attempts := row.attempts
        availableAt := finishedAt + request.retryAfter
        errorCode := request.errorCode
        providerMessageId := request.providerMessageId })

end DeliveryStore

end MiniLakehouse
