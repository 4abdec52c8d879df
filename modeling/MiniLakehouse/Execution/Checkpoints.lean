import MiniLakehouse.Execution.Commands
import MiniLakehouse.Execution.Repository

/-!
# One chain of checkpoints

`Consistent` is what every interleaving of transactions keeps: the checkpoints of a
key form a chain, the current one is its last, and the operation rows are those of
the current checkpoint.  The `UPDATE` of a commit compares digests, so that it
replaces exactly the predecessor; a commit that finds its result already installed
returns without asking which predecessor that result had.
-/

namespace MiniLakehouse

variable {P D : Type} [Hashing D]

/-- Distinct sessions have distinct digests. -/
theorem PaperSession.sha256_inj (hfree : CollisionFree D) {a b : PaperSession D}
    (h : a.sha256 = b.sha256) : a = b :=
  PaperSession.modelDump_injective (hfree h)

namespace PaperTables

variable {tables tables' : PaperTables D} {key : PaperKey D}

/-! ## Statements -/

theorem checkpoint_updateSession (tables : PaperTables D) (key : PaperKey D)
    (session : PaperSession D) (found : PaperKey D) :
    (tables.updateSession key session).checkpoint found =
      if found = key then (tables.checkpoint key).map fun _ => session.checkpoint
      else tables.checkpoint found := by
  have hfind : (tables.updateSession key session).checkpoint found =
      (tables.sessions.find? (·.key = found)).map fun row =>
        if row.key = key then session.checkpoint else row.checkpoint := by
    simp only [checkpoint, updateSession, List.find?_map, Option.map_map]
    rfl
  rw [hfind]
  split
  · next hsame =>
      subst hsame
      rw [checkpoint, Option.map_map]
      cases hrow : tables.sessions.find? (·.key = found) with
      | none => rfl
      | some row =>
          have hkey : row.key = found := by simpa using List.find?_some hrow
          simp [hkey]
  · next hother =>
      rw [checkpoint]
      cases hrow : tables.sessions.find? (·.key = found) with
      | none => rfl
      | some row =>
          have hkey : row.key = found := by simpa using List.find?_some hrow
          simp [hkey, hother]

/-- A session is inserted where its key and its date are new, and ignored where its
key has a row. -/
theorem insertSession_ok {session : PaperSession D}
    (h : tables.insertSession key session = .ok tables') :
    ((tables.checkpoint key).isSome = true ∧ tables' = tables) ∨
    (tables.checkpoint key = none ∧ tables'.operations = tables.operations ∧
      ∀ found, tables'.checkpoint found =
        if found = key then some session.checkpoint else tables.checkpoint found) := by
  unfold insertSession at h
  split at h
  · next hsome => exact .inl ⟨hsome, (Except.ok.inj h).symm⟩
  · next hnone =>
      split at h
      · cases h
      · obtain rfl := Except.ok.inj h
        have hnone : tables.checkpoint key = none := by simpa using hnone
        refine .inr ⟨hnone, rfl, ?_⟩
        intro found
        simp only [checkpoint, List.find?_append, Option.map_or] at hnone ⊢
        split
        · next hsame =>
            subst hsame
            rw [hnone]
            simp
        · next hother =>
            have hne : ¬key = found := fun hsame => hother hsame.symm
            simp [hne]

theorem insertOperation_ok {row : PaperOperationRow D}
    (h : tables.insertOperation row = .ok tables') :
    tables'.sessions = tables.sessions ∧ tables'.operations = tables.operations ++ [row] := by
  unfold insertOperation at h
  split at h
  · cases h
  · split at h
    · cases h
    · split at h
      · cases h
      · obtain rfl := Except.ok.inj h
        exact ⟨rfl, rfl⟩

/-- All rows of a commit are inserted, or the transaction raises. -/
theorem insertOperations_ok {rows : List (PaperOperationRow D)}
    (h : rows.foldlM insertOperation tables = .ok tables') :
    tables'.sessions = tables.sessions ∧ tables'.operations = tables.operations ++ rows := by
  induction rows generalizing tables with
  | nil =>
      obtain rfl := Except.ok.inj h
      exact ⟨rfl, (List.append_nil _).symm⟩
  | cons row rest ih =>
      obtain ⟨next, hrow, hrest⟩ := bind_eq_ok.mp h
      obtain ⟨hsessions, hoperations⟩ := insertOperation_ok hrow
      obtain ⟨hsessions', hoperations'⟩ := ih hrest
      refine ⟨hsessions'.trans hsessions, ?_⟩
      rw [hoperations', hoperations, List.append_assoc]
      rfl

/-! ## Numbered operations -/

theorem operationRows_append (key : PaperKey D) (first : Nat) (xs ys : List (Operation D)) :
    operationRows key first (xs ++ ys) =
      operationRows key first xs ++ operationRows key (first + xs.length) ys := by
  simp [operationRows, List.zipIdx_append]

/-- The sequences of numbered operations. -/
theorem operationRows_sequence {key : PaperKey D} {first : Nat} {operations : List (Operation D)}
    {row : PaperOperationRow D} (h : row ∈ operationRows key first operations) :
    row.key = key ∧ first ≤ row.sequence ∧ row.sequence < first + operations.length := by
  obtain ⟨⟨operation, sequence⟩, hmem, rfl⟩ := List.mem_map.mp h
  have hbounds := List.mem_zipIdx hmem
  exact ⟨rfl, hbounds.1, hbounds.2.1⟩

theorem operationRows_ascending (key : PaperKey D) (first : Nat)
    (operations : List (Operation D)) :
    (operationRows key first operations).Pairwise fun a b => a.sequence ≤ b.sequence := by
  induction operations generalizing first with
  | nil => exact .nil
  | cons operation rest ih =>
      refine List.pairwise_cons.mpr ⟨?_, ih (first + 1)⟩
      intro row hrow
      have hbounds := (operationRows_sequence hrow).2.1
      change first ≤ row.sequence
      omega

/-- The rows of one key among those of another. -/
theorem filter_operationRows (key found : PaperKey D) (first : Nat)
    (operations : List (Operation D)) :
    (operationRows key first operations).filter (·.key = found) =
      if found = key then operationRows key first operations else [] := by
  split
  · next hsame =>
      apply List.filter_eq_self.mpr
      intro row hrow
      exact decide_eq_true ((operationRows_sequence hrow).1.trans hsame.symm)
  · next hother =>
      apply List.filter_eq_nil_iff.mpr
      intro row hrow hfound
      exact hother ((of_decide_eq_true hfound).symm.trans (operationRows_sequence hrow).1)

/-! ## Reads -/

/-- The first read finds the current checkpoint. -/
theorem readCheckpoint_latest {session : PaperSession D}
    (hrow : tables.checkpoint key = some session.checkpoint)
    (hvalid : session.reconcile = .ok ()) (hkey : session.key = key) :
    tables.readCheckpoint key = .ok session := by
  have hvalidated : session.checkpoint.stateJson.modelValidate = .ok session :=
    PaperSession.modelValidate_eq_ok.mpr ⟨hvalid, rfl⟩
  have hdigest : session.sha256 = session.checkpoint.stateSha256 := rfl
  simp only [readCheckpoint, hrow, hvalidated, ok_bind, validateKey, require_of hkey,
    require_of hdigest]
  rfl

/-- The second read finds the operations of a session whose log the current one
continues. -/
theorem readOperations_prefix {session : PaperSession D} {operations : List (Operation D)}
    (hlog : tables.log key = operationRows key 1 operations)
    (hbefore : session.operations <+: operations) :
    tables.readOperations key session = .ok session := by
  obtain ⟨rest, rfl⟩ := hbefore
  have hrows : (tables.log key).filter (·.sequence ≤ session.operations.length) =
      operationRows key 1 session.operations := by
    rw [hlog, operationRows_append, List.filter_append]
    have hkept : (operationRows key 1 session.operations).filter
        (·.sequence ≤ session.operations.length) = operationRows key 1 session.operations := by
      apply List.filter_eq_self.mpr
      intro row hrow
      have hbounds := (operationRows_sequence hrow).2.2
      exact decide_eq_true (by omega)
    have hlater : (operationRows key (1 + session.operations.length) rest).filter
        (·.sequence ≤ session.operations.length) = [] := by
      apply List.filter_eq_nil_iff.mpr
      intro row hrow hle
      have hbounds := (operationRows_sequence hrow).2.1
      have hle := of_decide_eq_true hle
      omega
    rw [hkept, hlater, List.append_nil]
  have hsorted : sortOn (·.sequence) (operationRows key 1 session.operations) =
      operationRows key 1 session.operations :=
    List.Pairwise.insertionSort_eq (operationRows_ascending key 1 session.operations)
  have hlength : (operationRows key 1 session.operations).length = session.operations.length := by
    simp [operationRows]
  simp only [readOperations, hrows, hsorted, require_of hlength, require_of trivial, ok_bind]
  rfl

/-! ## Transactions -/

/-- **What `initialize` does**: an empty session of a new key is inserted, and a key
that has a session keeps it. -/
theorem initializeSession_ok {session : PaperSession D}
    (h : tables.initializeSession key session = .ok tables') :
    tables' = tables ∨
    (session.reconcile = .ok () ∧ session.key = key ∧ session.revision = 0 ∧
      session.operations = [] ∧ tables.checkpoint key = none ∧
      tables'.operations = tables.operations ∧
      ∀ found, tables'.checkpoint found =
        if found = key then some session.checkpoint else tables.checkpoint found) := by
  simp only [initializeSession, bind_eq_ok, pure_eq_ok, validateKey, require_eq_ok] at h
  obtain ⟨_, hkey, validated, hvalid, _, ⟨hrevision, hoperations, -⟩, inserted, hinsert, _, -, _,
    -, rfl⟩ := h
  obtain ⟨-, hsame⟩ | ⟨hnone, hrows, hcheckpoint⟩ := insertSession_ok hinsert
  · exact .inl hsame
  · exact .inr ⟨(PaperSession.modelValidate_eq_ok.mp hvalid).1, hkey, hrevision, hoperations,
      hnone, hrows, hcheckpoint⟩

/-- **What `commit` does**: the checkpoint that has the digest of the previous session
is replaced and its new operations are inserted, or the current session is found
installed. -/
theorem commit_ok {previous current : PaperSession D}
    (h : tables.commit key previous current = .ok tables') :
    current.reconcile = .ok () ∧ current.key = key ∧
    current.revision = previous.revision + 1 ∧
    (∃ added, current.operations = previous.operations ++ added ∧
      ((∃ row, tables.checkpoint key = some row ∧ row.stateSha256 = previous.sha256 ∧
        tables'.operations = tables.operations ++
          operationRows key (previous.operations.length + 1) added ∧
        ∀ found, tables'.checkpoint found =
          if found = key then some current.checkpoint else tables.checkpoint found) ∨
      (tables' = tables ∧ tables.load key = .ok current))) := by
  simp only [commit, bind_eq_ok, validateKey, require_eq_ok] at h
  obtain ⟨_, -, _, hkey, validated, hvalid, _, ⟨hrevision, -, -, hbefore⟩, h⟩ := h
  refine ⟨(PaperSession.modelValidate_eq_ok.mp hvalid).1, hkey, hrevision,
    current.operations.drop previous.operations.length, ?_, ?_⟩
  · conv_lhs => rw [← List.take_append_drop previous.operations.length current.operations]
    rw [hbefore]
  · split at h
    · next hswap =>
        obtain ⟨row, hrow, hswaps⟩ := (Option.any_eq_true _ _).mp hswap
        obtain ⟨hsessions, hoperations⟩ := insertOperations_ok h
        simp only [swaps, Bool.and_eq_true, decide_eq_true_eq] at hswaps
        refine .inl ⟨row, hrow, hswaps.2, hoperations, ?_⟩
        intro found
        have hfound : tables'.checkpoint found =
            (tables.updateSession key current).checkpoint found := by
          rw [checkpoint, checkpoint, hsessions]
        rw [hfound, checkpoint_updateSession, hrow]
        rfl
    · simp only [bind_eq_ok, require_eq_ok, pure_eq_ok] at h
      obtain ⟨existing, hload, _, rfl, rfl⟩ := h
      exact .inr ⟨rfl, hload⟩

end PaperTables

/-! ## Chains of checkpoints -/

/-- What a checkpoint keeps of its predecessor. -/
def Succeeds (previous current : PaperSession D) : Prop :=
  current.revision = previous.revision + 1 ∧ previous.operations <+: current.operations

/-- Revisions ascend along a chain. -/
theorem revisions_ascending {history : List (PaperSession D)} (h : history.IsChain Succeeds) :
    (history.map (·.revision)).Pairwise (· < ·) := by
  have hascending : history.IsChain fun previous current =>
      previous.revision < current.revision := by
    apply h.imp
    intro previous current hnext
    rw [hnext.1]
    exact Nat.lt_succ_self _
  exact List.isChain_iff_pairwise.mp ((List.isChain_map _).mpr hascending)

/-- Every checkpoint's log is continued by the last one's. -/
theorem operations_prefix {history : List (PaperSession D)} (h : history.IsChain Succeeds)
    {session last : PaperSession D} (hsession : session ∈ history)
    (hlast : last ∈ history.getLast?) : session.operations <+: last.operations := by
  induction history generalizing session with
  | nil => cases hsession
  | cons first rest ih =>
      cases rest with
      | nil =>
          obtain rfl : session = first := by simpa using hsession
          obtain rfl : session = last := by simpa using hlast
          exact List.prefix_rfl
      | cons next rest =>
          rw [List.isChain_cons_cons] at h
          have hlast' : last ∈ (next :: rest).getLast? := by simpa using hlast
          rcases List.mem_cons.mp hsession with rfl | hrest
          · exact h.1.2.trans (ih h.2 (List.mem_cons_self ..) hlast')
          · exact ih h.2 hrest hlast'

namespace PaperSystem

open PaperTables

variable {system : PaperSystem P D} {tables : PaperTables D}

/-- A transaction that leaves the checkpoints. -/
theorem install_self (system : PaperSystem P D) : system.install system.tables = system := by
  simp [install]

/-- A transaction that installs one checkpoint. -/
theorem install_history {key : PaperKey D} {session : PaperSession D}
    (hcheckpoint : ∀ found, tables.checkpoint found =
      if found = key then some session.checkpoint else system.tables.checkpoint found)
    (hnew : (system.tables.checkpoint key).map (·.stateJson) ≠ some session)
    (found : PaperKey D) : (system.install tables).history found =
      if found = key then system.history found ++ [session] else system.history found := by
  simp only [install, hcheckpoint]
  split
  · next hsame =>
      subst hsame
      exact if_neg hnew
  · simp

/-- What every interleaving keeps. -/
structure Consistent (keys : P → PaperKey D) (system : PaperSystem P D) : Prop where
  chained : ∀ key, (system.history key).IsChain Succeeds
  genesis : ∀ key, ∀ first ∈ (system.history key).head?,
    first.revision = 0 ∧ first.operations = []
  valid : ∀ key, ∀ session ∈ system.history key,
    session.reconcile = .ok () ∧ session.key = key
  latest : ∀ key, system.tables.checkpoint key =
    (system.history key).getLast?.map (·.checkpoint)
  logged : ∀ key, system.tables.log key = operationRows key 1
    ((system.history key).getLast?.elim [] (·.operations))
  loading : ∀ client session, system.stages client = .loading session →
    session ∈ system.history (keys client)
  loaded : ∀ key result, (key, result) ∈ system.loads →
    result = .error (.lookupError "paper session has not been initialized") ∨
      ∃ session ∈ system.history key, result = .ok session
  returned : ∀ key previous current, (key, previous, current) ∈ system.commits →
    ∃ before predecessor after, system.history key = before ++ predecessor :: current :: after ∧
      predecessor.revision = previous.revision

namespace Consistent

variable {keys : P → PaperKey D}

theorem initial : Consistent keys (PaperSystem.initial : PaperSystem P D) := by
  constructor
  case chained => exact fun _ => .nil
  all_goals simp [PaperSystem.initial, bootstrap, checkpoint, log, operationRows]

/-- The last checkpoint of a key that has a row. -/
theorem last (h : Consistent keys system) {key : PaperKey D} {row : PaperCheckpoint D}
    (hrow : system.tables.checkpoint key = some row) :
    ∃ session, session ∈ (system.history key).getLast? ∧ row = session.checkpoint := by
  rw [h.latest key] at hrow
  obtain ⟨session, hsession, rfl⟩ := Option.map_eq_some_iff.mp hrow
  exact ⟨session, hsession, rfl⟩

/-- A key without a row has had no checkpoint. -/
theorem unknown (h : Consistent keys system) {key : PaperKey D}
    (hrow : system.tables.checkpoint key = none) : system.history key = [] := by
  rw [h.latest key] at hrow
  exact List.getLast?_eq_none_iff.mp (Option.map_eq_none_iff.mp hrow)

/-- The current session of a key can be read. -/
theorem read (h : Consistent keys system) {key : PaperKey D} {session : PaperSession D}
    (hlast : session ∈ (system.history key).getLast?) :
    system.tables.readCheckpoint key = .ok session := by
  have hmem := List.mem_of_getLast? hlast
  obtain ⟨hvalid, hkey⟩ := h.valid key session hmem
  apply readCheckpoint_latest _ hvalid hkey
  rw [h.latest key, Option.mem_def.mp hlast]
  rfl

/-- Any session that was a checkpoint can still be completed. -/
theorem readOperations (h : Consistent keys system) {key : PaperKey D}
    {session : PaperSession D} (hsession : session ∈ system.history key) :
    system.tables.readOperations key session = .ok session := by
  obtain ⟨last, hlast⟩ := Option.isSome_iff_exists.mp
    (List.getLast?_isSome.mpr (List.ne_nil_of_mem hsession))
  apply readOperations_prefix (h.logged key)
  rw [hlast]
  exact operations_prefix (h.chained key) hsession hlast

/-- **One more checkpoint**, which succeeds the last one of its key. -/
theorem install (h : Consistent keys system) {key : PaperKey D} {session : PaperSession D}
    (hvalid : session.reconcile = .ok () ∧ session.key = key)
    (hfirst : system.history key = [] → session.revision = 0 ∧ session.operations = [])
    (hnext : ∀ last ∈ (system.history key).getLast?, Succeeds last session)
    (hcheckpoint : ∀ found, tables.checkpoint found =
      if found = key then some session.checkpoint else system.tables.checkpoint found)
    (hlog : tables.log key = operationRows key 1 session.operations)
    (hothers : ∀ found, found ≠ key → tables.log found = system.tables.log found) :
    Consistent keys (system.install tables) ∧
      (system.install tables).history key = system.history key ++ [session] := by
  have hnew : (system.tables.checkpoint key).map (·.stateJson) ≠ some session := by
    intro hsame
    rw [h.latest key, Option.map_map] at hsame
    obtain ⟨last, hlast, hlastSame⟩ := Option.map_eq_some_iff.mp hsame
    have hsucceeds := (hnext last hlast).1
    rw [show last = session from hlastSame] at hsucceeds
    omega
  have hhistory := install_history hcheckpoint hnew
  have hgrows : ∀ found, system.history found <+: (system.install tables).history found := by
    intro found
    rw [hhistory]
    split
    · exact List.prefix_append _ _
    · exact List.prefix_rfl
  refine ⟨?_, by rw [hhistory, if_pos rfl]⟩
  constructor
  case chained =>
    intro found
    rw [hhistory]
    split
    · next hsame =>
        subst hsame
        refine List.isChain_append.mpr ⟨h.chained found, .singleton _, ?_⟩
        intro last hlast first hfirst'
        obtain rfl : session = first := by simpa using hfirst'
        exact hnext last hlast
    · exact h.chained found
  case genesis =>
    intro found first hfound
    rw [hhistory] at hfound
    split at hfound
    · next hsame =>
        subst hsame
        cases hbefore : system.history found with
        | nil =>
            rw [hbefore] at hfound
            obtain rfl : session = first := by simpa using hfound
            exact hfirst hbefore
        | cons head rest =>
            rw [hbefore] at hfound
            exact h.genesis found first (by rw [hbefore]; simpa using hfound)
    · exact h.genesis found first hfound
  case valid =>
    intro found other hother
    rw [hhistory] at hother
    split at hother
    · next hsame =>
        subst hsame
        rcases List.mem_append.mp hother with hother | hother
        · exact h.valid found other hother
        · rw [List.mem_singleton.mp hother]
          exact hvalid
    · exact h.valid found other hother
  case latest =>
    intro found
    change tables.checkpoint found = _
    rw [hcheckpoint, hhistory]
    split
    · rw [List.getLast?_concat]
      rfl
    · exact h.latest found
  case logged =>
    intro found
    change tables.log found = _
    rw [hhistory]
    split
    · next hsame =>
        subst hsame
        rw [List.getLast?_concat]
        exact hlog
    · next hother =>
        rw [hothers found hother]
        exact h.logged found
  case loading =>
    intro client other hstage
    exact (hgrows _).mem (h.loading client other hstage)
  case loaded =>
    intro found result hresult
    obtain hunknown | ⟨other, hother, hok⟩ := h.loaded found result hresult
    · exact .inl hunknown
    · exact .inr ⟨other, (hgrows _).mem hother, hok⟩
  case returned =>
    intro found previous current hcommit
    obtain ⟨before, predecessor, after, hsplit, hrevision⟩ :=
      h.returned found previous current hcommit
    obtain ⟨added, hadded⟩ := hgrows found
    refine ⟨before, predecessor, after ++ added, ?_, hrevision⟩
    rw [← hadded, hsplit]
    simp

/-- The report of a `load`. -/
theorem report (h : Consistent keys system) {key : PaperKey D}
    {result : Except Raised (PaperSession D)} {stages : P → PaperStage D}
    (hresult : result = .error (.lookupError "paper session has not been initialized") ∨
      ∃ session ∈ system.history key, result = .ok session)
    (hstages : ∀ client session, stages client = .loading session →
      session ∈ system.history (keys client)) :
    Consistent keys { system with
      stages := stages
      loads := system.loads ++ [(key, result)] } where
  chained := h.chained
  genesis := h.genesis
  valid := h.valid
  latest := h.latest
  logged := h.logged
  loading := hstages
  loaded := by
    intro found other hmem
    rcases List.mem_append.mp hmem with hmem | hmem
    · exact h.loaded found other hmem
    · obtain ⟨rfl, rfl⟩ := Prod.mk.inj (List.mem_singleton.mp hmem)
      exact hresult
  returned := h.returned

/-- A commit that has returned. -/
theorem acknowledge (h : Consistent keys system) {key : PaperKey D}
    {previous current : PaperSession D}
    (hreturned : ∃ before predecessor after,
      system.history key = before ++ predecessor :: current :: after ∧
        predecessor.revision = previous.revision) :
    Consistent keys { system with
      commits := system.commits ++ [(key, previous, current)] } where
  chained := h.chained
  genesis := h.genesis
  valid := h.valid
  latest := h.latest
  logged := h.logged
  loading := h.loading
  loaded := h.loaded
  returned := by
    intro found previous' current' hmem
    rcases List.mem_append.mp hmem with hmem | hmem
    · exact h.returned found previous' current' hmem
    · obtain ⟨rfl, hpair⟩ := Prod.mk.inj (List.mem_singleton.mp hmem)
      obtain ⟨rfl, rfl⟩ := Prod.mk.inj hpair
      exact hreturned

/-- **`commit`.** -/
theorem commit (h : Consistent keys system) (hfree : CollisionFree D) {key : PaperKey D}
    {previous current : PaperSession D}
    (hcommit : system.tables.commit key previous current = .ok tables) :
    Consistent keys { system.install tables with
      commits := system.commits ++ [(key, previous, current)] } := by
  obtain ⟨hvalid, hkey, hrevision, added, hadded, hcases⟩ := commit_ok hcommit
  obtain ⟨row, hrow, hdigest, hrows, hcheckpoint⟩ | ⟨rfl, hload⟩ := hcases
  · obtain ⟨last, hlast, rfl⟩ := h.last hrow
    -- The digest of the row is that of its session.
    obtain rfl : last = previous := PaperSession.sha256_inj hfree hdigest
    have hlog : tables.log key = operationRows key 1 current.operations := by
      have hbefore : system.tables.log key = operationRows key 1 last.operations := by
        rw [h.logged key, Option.mem_def.mp hlast]
        rfl
      rw [log, hrows, List.filter_append, filter_operationRows, if_pos rfl, hadded,
        operationRows_append, Nat.add_comm 1]
      exact congrArg (· ++ _) hbefore
    have hothers : ∀ found, found ≠ key → tables.log found = system.tables.log found := by
      intro found hother
      rw [log, hrows, List.filter_append, filter_operationRows, if_neg hother, List.append_nil]
      rfl
    have hsucceeds : Succeeds last current := ⟨hrevision, added, hadded.symm⟩
    obtain ⟨hconsistent, hhistory⟩ := h.install ⟨hvalid, hkey⟩
      (fun hempty => by rw [hempty] at hlast; cases hlast)
      (fun found hfound => by
        obtain rfl := Option.mem_unique hfound hlast
        exact hsucceeds) hcheckpoint hlog hothers
    apply hconsistent.acknowledge
    obtain ⟨before, hbefore⟩ := List.getLast?_eq_some_iff.mp hlast
    refine ⟨before, last, [], ?_, rfl⟩
    rw [hhistory, hbefore]
    simp
  · -- The current session is found installed.
    rw [install_self]
    apply h.acknowledge
    simp only [load, bind_eq_ok] at hload
    obtain ⟨session, hread, hcomplete⟩ := hload
    cases hrow : system.tables.checkpoint key with
    | none =>
        rw [readCheckpoint, hrow] at hread
        cases hread
    | some row =>
        obtain ⟨last, hlast, rfl⟩ := h.last hrow
        obtain rfl := Except.ok.inj ((h.read hlast).symm.trans hread)
        obtain rfl := Except.ok.inj
          ((h.readOperations (List.mem_of_getLast? hlast)).symm.trans hcomplete)
        obtain ⟨before, hbefore⟩ := List.getLast?_eq_some_iff.mp hlast
        rcases List.eq_nil_or_concat before with rfl | ⟨earlier, predecessor, rfl⟩
        · -- The first checkpoint has no predecessor, but revision zero.
          have hzero := (h.genesis key last (by rw [hbefore]; rfl)).1
          omega
        · refine ⟨earlier, predecessor, [], by rw [hbefore]; simp, ?_⟩
          have hchain := h.chained key
          rw [hbefore, List.concat_eq_append] at hchain
          have hsucceeds := (List.isChain_append.mp hchain).2.2 predecessor (by simp) last rfl
          have hnext := hsucceeds.1
          omega

variable [DecidableEq P]

/-- **One step.** -/
theorem step (h : Consistent keys system) (hfree : CollisionFree D) (action : PaperAction P D) :
    Consistent keys (system.step keys action) := by
  have hupdated : ∀ client session, session ∈ system.history (keys client) →
      ∀ found other, Function.update system.stages client (.loading session) found =
        .loading other → other ∈ system.history (keys found) := by
    intro client session hsession found other hstage
    by_cases hsame : found = client
    · subst hsame
      rw [Function.update_self] at hstage
      cases hstage
      exact hsession
    · rw [Function.update_of_ne hsame] at hstage
      exact h.loading found other hstage
  have hidle : ∀ client found other, Function.update system.stages client .idle found =
      .loading other → other ∈ system.history (keys found) := by
    intro client found other hstage
    by_cases hsame : found = client
    · subst hsame
      rw [Function.update_self] at hstage
      cases hstage
    · rw [Function.update_of_ne hsame] at hstage
      exact h.loading found other hstage
  cases action with
  | initializeSession client session =>
      simp only [PaperSystem.step]
      split
      · next tables hinserted =>
          obtain rfl | ⟨hvalid, hkey, hrevision, hoperations, hnone, hrows, hcheckpoint⟩ :=
            initializeSession_ok hinserted
          · rw [install_self]
            exact h
          · have hempty := h.unknown hnone
            refine (h.install ⟨hvalid, hkey⟩ (fun _ => ⟨hrevision, hoperations⟩) ?_ hcheckpoint
              ?_ ?_).1
            · intro last hlast
              rw [hempty] at hlast
              cases hlast
            · rw [log, hrows, hoperations]
              have hlog := h.logged (keys client)
              rw [hempty] at hlog
              exact hlog
            · intro found _
              rw [log, hrows]
              rfl
      · exact h
  | beginLoad client =>
      simp only [PaperSystem.step]
      cases hrow : system.tables.checkpoint (keys client) with
      | none =>
          have hread : system.tables.readCheckpoint (keys client) =
              .error (.lookupError "paper session has not been initialized") := by
            rw [readCheckpoint, hrow]
            rfl
          rw [hread]
          exact h.report (.inl rfl) (hidle client)
      | some row =>
          obtain ⟨last, hlast, rfl⟩ := h.last hrow
          rw [h.read hlast]
          exact { h with
            loading := hupdated client last (List.mem_of_getLast? hlast) }
  | endLoad client =>
      simp only [PaperSystem.step]
      split
      · exact h
      · next session hstage =>
          have hsession := h.loading client session hstage
          exact h.report (.inr ⟨session, hsession, h.readOperations hsession⟩) (hidle client)
  | commit client previous current =>
      simp only [PaperSystem.step]
      split
      · next tables hcommit => exact h.commit hfree hcommit
      · exact h

/-- **Every run.** -/
theorem run (hfree : CollisionFree D) (actions : List (PaperAction P D)) :
    Consistent keys (PaperSystem.run keys actions) := by
  have hrun : ∀ system : PaperSystem P D, Consistent keys system →
      Consistent keys (actions.foldl (PaperSystem.step keys) system) := by
    induction actions with
    | nil => exact fun _ h => h
    | cons action rest ih => exact fun system h => ih _ (h.step hfree action)
  exact hrun _ initial

end Consistent

end PaperSystem

/-! ## Linearised sessions -/

open PaperTables in
/-- **Paper sessions are linearised**, however clients interleave: the checkpoints of a
key form one chain from an empty session, its rows are the current checkpoint and the
numbered operations of it, `load` reports only checkpoints, a commit returns only if its
result succeeds a checkpoint of the previous session's revision, which is the previous
session where that was ever a checkpoint, and a trade date has one account. -/
theorem paper_sessions_linearised [DecidableEq P] (hfree : CollisionFree D)
    (keys : P → PaperKey D) (actions : List (PaperAction P D)) :
    let system := PaperSystem.run keys actions
    (∀ key, (system.history key).IsChain Succeeds ∧
      ∀ first ∈ (system.history key).head?, first.revision = 0 ∧ first.operations = []) ∧
    (∀ key, system.tables.checkpoint key =
        (system.history key).getLast?.map PaperSession.checkpoint ∧
      system.tables.log key = operationRows key 1
        ((system.history key).getLast?.elim [] (·.operations))) ∧
    (∀ key result, (key, result) ∈ system.loads →
      result = .error (.lookupError "paper session has not been initialized") ∨
        ∃ session ∈ system.history key, result = .ok session) ∧
    (∀ key previous current, (key, previous, current) ∈ system.commits →
      ∃ before predecessor after,
        system.history key = before ++ predecessor :: current :: after ∧
          predecessor.revision = previous.revision ∧
          (previous ∈ system.history key → predecessor = previous)) ∧
    (∀ first ∈ system.tables.sessions, ∀ second ∈ system.tables.sessions,
      first.key.tradeDate = second.key.tradeDate → first.key = second.key) := by
  have h : PaperSystem.Consistent keys (PaperSystem.run keys actions) :=
    PaperSystem.Consistent.run hfree actions
  refine ⟨fun key => ⟨h.chained key, h.genesis key⟩, fun key => ⟨h.latest key, h.logged key⟩,
    h.loaded, ?_, ?_⟩
  · intro key previous current hreturned
    obtain ⟨before, predecessor, after, hsplit, hrevision⟩ :=
      h.returned key previous current hreturned
    refine ⟨before, predecessor, after, hsplit, hrevision, ?_⟩
    intro hprevious
    have hpredecessor : predecessor ∈ (PaperSystem.run keys actions).history key := by
      rw [hsplit]
      simp
    exact eq_of_key_eq (·.revision) (nodup_of_ascending (revisions_ascending (h.chained key)))
      hpredecessor hprevious hrevision
  · intro first hfirst second hsecond hdate
    have hsame := eq_of_key_eq (fun row : PaperSessionRow D => row.key.tradeDate)
      (PaperSystem.run keys actions).tables.one_account_per_day hfirst hsecond hdate
    rw [hsame]

namespace Rehearsal

/-- The rehearsed session with its entry placed, and without any. -/
def placed : PaperSession Spelled :=
  (opening.submitEntry request readiness Trading.configuration).toOption.getD opening

/-- The placed session once its order has expired. -/
def expired : PaperSession Spelled := (placed.advanceClock (clock 4000)).toOption.getD opening

/-- A session that never became a checkpoint: it has only seen a quote. -/
def quoted : PaperSession Spelled :=
  (opening.processQuote nextQuote Trading.configuration).toOption.getD opening

/-- One client commits twice, and another then commits the same result over the
session that has only seen a quote. -/
def commits : List (PaperAction Bool Spelled) := [
  .initializeSession false opening,
  .beginLoad true,
  .commit false opening placed,
  .endLoad true,
  .commit false placed expired,
  .commit false placed expired,
  .commit true quoted expired]

def committed : PaperSystem Bool Spelled := PaperSystem.run (fun _ => opening.key) commits

theorem committed_evaluated : committed.history opening.key = [opening, placed, expired] ∧
    committed.commits = [(opening.key, opening, placed), (opening.key, placed, expired),
      (opening.key, placed, expired), (opening.key, quoted, expired)] ∧
    quoted ∉ [opening, placed, expired] := by
  decide +kernel

end Rehearsal

/-- A commit returns although its result was never installed over the previous session:
the result is the current checkpoint, and the predecessor is not compared. -/
theorem commit_returns_over_other_predecessor : ∃ actions : List (PaperAction Bool Spelled),
    let system := PaperSystem.run (fun _ => Rehearsal.opening.key) actions
    ∃ key previous current, (key, previous, current) ∈ system.commits ∧
      ¬∃ before after, system.history key = before ++ previous :: current :: after := by
  obtain ⟨hhistory, hcommits, hnever⟩ := Rehearsal.committed_evaluated
  refine ⟨Rehearsal.commits, Rehearsal.opening.key, Rehearsal.quoted, Rehearsal.expired, ?_, ?_⟩
  · change _ ∈ Rehearsal.committed.commits
    rw [hcommits]
    simp
  · rintro ⟨before, after, hsplit⟩
    apply hnever
    change Rehearsal.committed.history Rehearsal.opening.key = _ at hsplit
    rw [← hhistory, hsplit]
    simp

/-- The rehearsed commits: the repeated one found its predecessor. -/
theorem paper_sessions_linearised_rehearsal : ∃ before predecessor after,
    Rehearsal.committed.history Rehearsal.opening.key =
        before ++ predecessor :: Rehearsal.expired :: after ∧
      predecessor = Rehearsal.placed := by
  obtain ⟨hhistory, hcommits, -⟩ := Rehearsal.committed_evaluated
  have hlinear := paper_sessions_linearised collisionFree_spelled
    (fun _ : Bool => Rehearsal.opening.key) Rehearsal.commits
  change let system := Rehearsal.committed; _ at hlinear
  obtain ⟨-, -, -, hreturned, -⟩ := hlinear
  have hcommit : (Rehearsal.opening.key, Rehearsal.placed, Rehearsal.expired) ∈
      Rehearsal.committed.commits := by
    rw [hcommits]
    simp
  have hplaced : Rehearsal.placed ∈ Rehearsal.committed.history Rehearsal.opening.key := by
    rw [hhistory]
    simp
  obtain ⟨before, predecessor, after, hsplit, -, hsame⟩ := hreturned _ _ _ hcommit
  exact ⟨before, predecessor, after, hsplit, hsame hplaced⟩

end MiniLakehouse
