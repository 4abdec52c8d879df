import MiniLakehouse.Execution.Runtime

/-!
# Paper repository

`execution/postgres.py` over the tables `paper_sessions` and `paper_operations`:
a checkpoint that is compared and swapped, and append-only operations in the same
transaction.  The text of a column is kept as the value that it spells.
-/

namespace MiniLakehouse

/-- `_key`: the trade date and the account of a repository. -/
structure PaperKey (D : Type) where
  tradeDate : Day
  accountSha256 : D
  deriving DecidableEq

/-- What an `UPDATE` of `paper_sessions` sets. -/
structure PaperCheckpoint (D : Type) [Hashing D] where
  revision : Nat
  stateSha256 : D
  stateJson : PaperSession D

/-- A row of `paper_sessions`. -/
structure PaperSessionRow (D : Type) [Hashing D] where
  key : PaperKey D
  checkpoint : PaperCheckpoint D

/-- A row of `paper_operations`. -/
structure PaperOperationRow (D : Type) where
  key : PaperKey D
  sequence : Nat
  operationSha256 : D
  operationJson : Operation D

/-- Both tables with their constraints; `paper_sessions_one_account_per_day` implies
the primary key of the sessions. -/
structure PaperTables (D : Type) [Hashing D] where
  sessions : List (PaperSessionRow D)
  operations : List (PaperOperationRow D)
  one_account_per_day : (sessions.map (·.key.tradeDate)).Nodup
  sequences_unique : (operations.map fun row => (row.key, row.sequence)).Nodup
  operations_unique : (operations.map fun row => (row.key, row.operationSha256)).Nodup
  sessions_known : ∀ row ∈ operations, row.key ∈ sessions.map (·.key)

section

variable {D : Type} [Hashing D]

namespace PaperSession

/-- The key that a session belongs to. -/
def key (session : PaperSession D) : PaperKey D :=
  ⟨session.ledger.tradeDate, session.account.sha256⟩

/-- The columns of a checkpoint. -/
def checkpoint (session : PaperSession D) : PaperCheckpoint D :=
  ⟨session.revision, session.sha256, session⟩

end PaperSession

namespace PaperTables

/-- The tables as the bootstrap leaves them. -/
def bootstrap : PaperTables D where
  sessions := []
  operations := []
  one_account_per_day := List.nodup_nil
  sequences_unique := List.nodup_nil
  operations_unique := List.nodup_nil
  sessions_known := by simp

/-- The checkpoint of a key. -/
def checkpoint (tables : PaperTables D) (key : PaperKey D) : Option (PaperCheckpoint D) :=
  (tables.sessions.find? (·.key = key)).map (·.checkpoint)

/-- The operation rows of a key. -/
def log (tables : PaperTables D) (key : PaperKey D) : List (PaperOperationRow D) :=
  tables.operations.filter (·.key = key)

/-- `INSERT … ON CONFLICT (trade_date, account_sha256) DO NOTHING`; another account of
the date violates the unique index. -/
def insertSession (tables : PaperTables D) (key : PaperKey D) (session : PaperSession D) :
    Except Raised (PaperTables D) :=
  if (tables.checkpoint key).isSome then .ok tables
  else if h : key.tradeDate ∈ tables.sessions.map (·.key.tradeDate) then
    .error (.integrityError "paper_sessions_one_account_per_day")
  else .ok { tables with
    sessions := tables.sessions ++ [⟨key, session.checkpoint⟩]
    one_account_per_day := by
      rw [List.map_append]
      exact List.Nodup.append tables.one_account_per_day (List.nodup_singleton _)
        (by simpa [List.disjoint_right] using h)
    sessions_known := by
      intro row hrow
      rw [List.map_append]
      exact List.mem_append_left _ (tables.sessions_known row hrow) }

/-- The `UPDATE` of a checkpoint. -/
def updateSession (tables : PaperTables D) (key : PaperKey D) (session : PaperSession D) :
    PaperTables D :=
  { tables with
    sessions := tables.sessions.map fun row =>
      { row with checkpoint := if row.key = key then session.checkpoint else row.checkpoint }
    one_account_per_day := by
      rw [List.map_map]
      exact tables.one_account_per_day
    sessions_known := by
      intro row hrow
      rw [List.map_map]
      exact tables.sessions_known row hrow }

/-- The `INSERT` of an operation, checked against the constraints of the table. -/
def insertOperation (tables : PaperTables D) (row : PaperOperationRow D) :
    Except Raised (PaperTables D) :=
  if hsequence : (row.key, row.sequence) ∈
      tables.operations.map fun row => (row.key, row.sequence) then
    .error (.integrityError "paper_operations_pkey")
  else if hdigest : (row.key, row.operationSha256) ∈
      tables.operations.map fun row => (row.key, row.operationSha256) then
    .error (.integrityError "paper_operations_operation_sha256_key")
  else if hknown : row.key ∉ tables.sessions.map (·.key) then
    .error (.integrityError "paper_operations_fkey")
  else .ok { tables with
    operations := tables.operations ++ [row]
    sequences_unique := by
      rw [List.map_append]
      exact List.Nodup.append tables.sequences_unique (List.nodup_singleton _)
        (by simpa [List.disjoint_right] using hsequence)
    operations_unique := by
      rw [List.map_append]
      exact List.Nodup.append tables.operations_unique (List.nodup_singleton _)
        (by simpa [List.disjoint_right] using hdigest)
    sessions_known := by
      intro found hfound
      rcases List.mem_append.mp hfound with hfound | hfound
      · exact tables.sessions_known found hfound
      · rw [List.mem_singleton.mp hfound]
        exact not_not.mp hknown }

/-- The rows of operations that are numbered from a sequence on. -/
def operationRows (key : PaperKey D) (first : Nat) (operations : List (Operation D)) :
    List (PaperOperationRow D) :=
  (operations.zipIdx first).map fun entry => ⟨key, entry.2, entry.1.sha256, entry.1⟩

/-- `_validate_key` -/
def validateKey (key : PaperKey D) (session : PaperSession D) : Except Raised Unit :=
  require (session.key = key) (.valueError "paper repository session key mismatch")

/-- The first read of `load`. -/
def readCheckpoint (tables : PaperTables D) (key : PaperKey D) :
    Except Raised (PaperSession D) := do
  match tables.checkpoint key with
  | none => throw (.lookupError "paper session has not been initialized")
  | some row =>
      let session ← row.stateJson.modelValidate
      validateKey key session
      require (session.sha256 = row.stateSha256)
        (.valueError "paper checkpoint checksum mismatch")
      return session

/-- The second read of `load`. -/
def readOperations (tables : PaperTables D) (key : PaperKey D) (session : PaperSession D) :
    Except Raised (PaperSession D) := do
  let rows := sortOn (·.sequence)
    ((tables.log key).filter (·.sequence ≤ session.operations.length))
  require (rows.length = session.operations.length)
    (.valueError "paper operation log is incomplete")
  require (rows.map (fun row => (row.sequence, row.operationSha256, row.operationJson)) =
      (operationRows key 1 session.operations).map
        fun row => (row.sequence, row.operationSha256, row.operationJson))
    (.valueError "paper checkpoint and operation log disagree")
  return session

/-- `load`, where both reads see the same tables. -/
def load (tables : PaperTables D) (key : PaperKey D) : Except Raised (PaperSession D) := do
  let session ← tables.readCheckpoint key
  tables.readOperations key session

/-- `initialize`, a transaction. -/
def initializeSession (tables : PaperTables D) (key : PaperKey D) (session : PaperSession D) :
    Except Raised (PaperTables D) := do
  validateKey key session
  let _ ← session.modelValidate
  require (session.revision = 0 ∧ session.operations = [] ∧ session.markets = [])
    (.valueError "paper repository initialization requires an empty revision zero")
  let inserted ← tables.insertSession key session
  let existing ← inserted.load key
  require (existing.account = session.account ∧ existing.costs = session.costs)
    (.paperConflict "paper session initialization conflicts with existing policy")
  return inserted

/-- Whether the condition of the `UPDATE` holds of a checkpoint. -/
def swaps (previous : PaperSession D) (row : PaperCheckpoint D) : Bool :=
  row.revision = previous.revision && row.stateSha256 = previous.sha256

/-- `commit`, a transaction. -/
def commit (tables : PaperTables D) (key : PaperKey D) (previous current : PaperSession D) :
    Except Raised (PaperTables D) := do
  validateKey key previous
  validateKey key current
  let _ ← current.modelValidate
  require (current.revision = previous.revision + 1 ∧ current.account = previous.account ∧
      current.costs = previous.costs ∧
      current.operations.take previous.operations.length = previous.operations)
    (.valueError "paper commit must preserve its immutable operation prefix")
  if (tables.checkpoint key).any (swaps previous) then
    (operationRows key (previous.operations.length + 1)
      (current.operations.drop previous.operations.length)).foldlM insertOperation
      (tables.updateSession key current)
  else
    -- A lost commit response is safe to retry with exactly the same transition.
    let existing ← tables.load key
    require (existing = current) (.paperConflict "paper checkpoint compare-and-swap conflict")
    return tables

end PaperTables

/-! ## Clients -/

/-- Whether a client is between the two reads of `load`. -/
inductive PaperStage (D : Type) [Hashing D] where
  | idle
  | loading (session : PaperSession D)

/-- The tables, every client, and what is recorded of the run: the checkpoints that
each key has had, what `load` reported, and the commits that returned. -/
structure PaperSystem (P D : Type) [Hashing D] where
  tables : PaperTables D
  stages : P → PaperStage D
  history : PaperKey D → List (PaperSession D)
  loads : List (PaperKey D × Except Raised (PaperSession D))
  commits : List (PaperKey D × PaperSession D × PaperSession D)

/-- What a client does next; an acknowledgement that is lost leaves the client free to
repeat its commit. -/
inductive PaperAction (P D : Type) [Hashing D] where
  | initializeSession (client : P) (session : PaperSession D)
  | beginLoad (client : P)
  | endLoad (client : P)
  | commit (client : P) (previous current : PaperSession D)

namespace PaperSystem

variable {P : Type} [DecidableEq P]

def initial : PaperSystem P D := ⟨.bootstrap, fun _ => .idle, fun _ => [], [], []⟩

/-- After a transaction: a checkpoint that has changed is one more of its key. -/
def install (system : PaperSystem P D) (tables : PaperTables D) : PaperSystem P D :=
  { system with
    tables := tables
    history := fun key =>
      let before := (system.tables.checkpoint key).map (·.stateJson)
      let after := (tables.checkpoint key).map (·.stateJson)
      if before = after then system.history key else system.history key ++ after.toList }

/-- One client's step, with the keys of the clients' repositories. -/
def step (keys : P → PaperKey D) (system : PaperSystem P D) : PaperAction P D → PaperSystem P D
  | .initializeSession client session =>
      match system.tables.initializeSession (keys client) session with
      | .ok tables => system.install tables
      | .error _ => system
  | .beginLoad client =>
      match system.tables.readCheckpoint (keys client) with
      | .ok session =>
          { system with stages := Function.update system.stages client (.loading session) }
      | .error raised =>
          { system with
            stages := Function.update system.stages client .idle
            loads := system.loads ++ [(keys client, .error raised)] }
  | .endLoad client =>
      match system.stages client with
      | .idle => system
      | .loading session =>
          { system with
            stages := Function.update system.stages client .idle
            loads := system.loads ++
              [(keys client, system.tables.readOperations (keys client) session)] }
  | .commit client previous current =>
      match system.tables.commit (keys client) previous current with
      | .ok tables =>
          { system.install tables with
            commits := system.commits ++ [(keys client, previous, current)] }
      | .error _ => system

/-- A run of any number of clients. -/
def run (keys : P → PaperKey D) (actions : List (PaperAction P D)) : PaperSystem P D :=
  actions.foldl (step keys) initial

end PaperSystem

end

end MiniLakehouse
