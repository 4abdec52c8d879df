import MiniLakehouse.Capture.Store
import MiniLakehouse.Library.Files
import MiniLakehouse.Library.Keyed

/-!
# The capture spool

`capture/spool.py`: a bounded local outbox of immutable evidence.  A file is written under
a temporary name and then replaced into its place; `drain` publishes the files in the order
of their keys, manifests last.

Every filesystem call is an operation, and so are the writes of `_bytes`; `fails` says which
calls may raise.  Directories are left out: where one is in the way of a file, a call raises.
-/

namespace MiniLakehouse

/-! ## Bodies and paths -/

/-- The bytes of a file, and the JSON values that they spell. -/
class EvidenceBody (B : Type) (V : outParam Type) where
  size : B → Nat
  empty : B
  /-- `json.loads` -/
  loads : B → Except Raised V
  isObject : V → Bool
  /-- `canonical_json` of a value that it can print. -/
  canonicalJson : V → B

/-- A path below the root of the spool. -/
structure SpoolPath where
  parents : List String
  name : String
  deriving DecidableEq, Repr

namespace SpoolPath

/-- `path.relative_to(self._root).as_posix()` -/
def asPosix (path : SpoolPath) : String :=
  path.parents.foldr (fun part rest => part ++ "/" ++ rest) path.name

/-- The hidden name that a file is written under. -/
def temporary (path : SpoolPath) (hex : String) : SpoolPath :=
  { path with name := "." ++ path.name ++ "." ++ hex ++ ".tmp" }

/-- The glob `.*.tmp` -/
def isTemporary (path : SpoolPath) : Bool :=
  path.name.toList.head? == some '.' && ".tmp".toList.isSuffixOf path.name.toList.tail

end SpoolPath

/-- `key.endswith((".json.gz", ".jsonl.gz"))` -/
def isPayloadKey (key : String) : Bool :=
  ".json.gz".toList.isSuffixOf key.toList || ".jsonl.gz".toList.isSuffixOf key.toList

inductive SpoolRaised where
  /-- A filesystem call raised `OSError`. -/
  | osError
  | spoolFullError (message : String)
  | raised (error : Raised)
  deriving DecidableEq, Repr

/-- `PurePosixPath(key).parts` of a relative path. -/
def posixParts (key : String) : List String :=
  ((key.toList.splitOn '/').map String.ofList).filter fun part => part != "" && part != "."

/-- `_path` -/
def spoolPath (key : String) : Except SpoolRaised SpoolPath :=
  let parts := posixParts key
  match parts.getLast? with
  | none => throw (.raised (.valueError "spool evidence key must be a safe relative path"))
  | some name =>
      if key.toList.head? = some '/' ∨ ".." ∈ parts then
        throw (.raised (.valueError "spool evidence key must be a safe relative path"))
      else if isPayloadKey key || "/manifest.json".toList.isSuffixOf key.toList then
        return ⟨parts.dropLast, name⟩
      else throw (.raised (.valueError "spool accepts only immutable payloads and manifests"))

/-! ## Calls -/

/-- The calls of the spool.  A reply of `false` or `none` is an `OSError`. -/
inductive SpoolOp (B : Type) where
  /-- The files that `rglob` finds. -/
  | files
  | exists' (path : SpoolPath)
  | readBytes (path : SpoolPath)
  /-- `path.stat().st_size` -/
  | stat (path : SpoolPath)
  /-- `self._bytes` -/
  | pendingBytes
  | setBytes (bytes : Int)
  | mkdir (parents : List String)
  | uuid4
  | openTemporary (target : SpoolPath) (hex : String)
  | writeTemporary (target : SpoolPath) (hex : String) (body : B)
  /-- `flush`, `fsync` and the end of `with`. -/
  | syncTemporary (target : SpoolPath) (hex : String)
  | replace (target : SpoolPath) (hex : String)
  | openDirectory (target : SpoolPath)
  | syncDirectory (target : SpoolPath)
  | closeDirectory (target : SpoolPath)
  /-- `temporary.unlink(missing_ok=True)` -/
  | unlinkTemporary (target : SpoolPath) (hex : String)
  | unlink (path : SpoolPath)
  /-- `parent.rmdir()`, with the innermost part first. -/
  | rmdir (parents : List String)
  /-- `put_capture` and `put_json` of the store, with the body that is put. -/
  | put (key : String) (body : B)

@[reducible] def SpoolOp.Reply (B D : Type) : SpoolOp B → Type
  | .files => List SpoolPath
  | .exists' _ => Bool
  | .readBytes _ => Option B
  | .stat _ => Option Nat
  | .pendingBytes => Int
  | .setBytes _ => Unit
  | .uuid4 => String
  | .put _ _ => Except Raised D
  | .mkdir _ | .openTemporary _ _ | .writeTemporary _ _ _ | .syncTemporary _ _ | .replace _ _
  | .openDirectory _ | .syncDirectory _ | .closeDirectory _ | .unlinkTemporary _ _ | .unlink _
  | .rmdir _ => Bool

/-- The spool's directory, its counter and the store that it delivers to. -/
structure SpoolWorld (B : Type) where
  files : Files SpoolPath B
  bytes : Int
  store : Bucket String B

section Steps

variable {B V D : Type} [EvidenceBody B V] [DecidableEq D]

namespace SpoolWorld

/-- The bytes of the complete files: what a temporary file holds does not count. -/
def completeBytes (w : SpoolWorld B) : Nat :=
  w.files.total fun path body => if path.isTemporary then 0 else EvidenceBody.size body

end SpoolWorld

/-- A call that returned, or one that raised. -/
def Answers (returned raised : Prop) : Bool → Prop
  | true => returned
  | false => raised

/-- What a call can do; `fails` are the calls that may raise for no reason of the spool's. -/
def spoolStep (sha256 : B → D) (outages : Prop) (fails : SpoolOp B → SpoolWorld B → Prop) :
    (op : SpoolOp B) → SpoolWorld B → SpoolWorld B → op.Reply B D → Prop
  | .files, w, w', paths => w' = w ∧ paths.Perm w.files.keys
  | .exists' path, w, w', answer => w' = w ∧ answer = (w.files.lookup path).isSome
  | .readBytes path, w, w', answer =>
      w' = w ∧ (answer = w.files.lookup path ∨ answer = none ∧ fails (.readBytes path) w)
  | .stat path, w, w', answer =>
      w' = w ∧ (answer = (w.files.lookup path).map EvidenceBody.size ∨
        answer = none ∧ fails (.stat path) w)
  | .pendingBytes, w, w', bytes => w' = w ∧ bytes = w.bytes
  | .setBytes bytes, w, w', _ => w' = { w with bytes := bytes }
  | .uuid4, w, w', _ => w' = w
  | .openTemporary target hex, w, w', answer =>
      Answers (w.files.lookup (target.temporary hex) = none ∧
          w' = { w with files := w.files.insert (target.temporary hex) EvidenceBody.empty })
        ((w.files.lookup (target.temporary hex) ≠ none ∨ fails (.openTemporary target hex) w) ∧
          w' = w) answer
  | .writeTemporary target hex body, w, w', answer =>
      -- what a write that raises has written is any part of the body
      Answers (w' = { w with files := w.files.insert (target.temporary hex) body })
        (fails (.writeTemporary target hex body) w ∧
          ∃ part, w' = { w with files := w.files.insert (target.temporary hex) part }) answer
  | .replace target hex, w, w', answer =>
      Answers (∃ body, w.files.lookup (target.temporary hex) = some body ∧
          w' = { w with files := (w.files.erase (target.temporary hex)).insert target body })
        ((w.files.lookup (target.temporary hex) = none ∨ fails (.replace target hex) w) ∧
          w' = w) answer
  | .unlinkTemporary target hex, w, w', answer =>
      Answers (w' = { w with files := w.files.erase (target.temporary hex) })
        (fails (.unlinkTemporary target hex) w ∧ w' = w) answer
  | .unlink path, w, w', answer =>
      Answers ((w.files.lookup path).isSome ∧ w' = { w with files := w.files.erase path })
        ((w.files.lookup path = none ∨ fails (.unlink path) w) ∧ w' = w) answer
  | .mkdir parents, w, w', answer => Answers (w' = w) (fails (.mkdir parents) w ∧ w' = w) answer
  | .syncTemporary target hex, w, w', answer =>
      Answers (w' = w) (fails (.syncTemporary target hex) w ∧ w' = w) answer
  | .openDirectory target, w, w', answer =>
      Answers (w' = w) (fails (.openDirectory target) w ∧ w' = w) answer
  | .syncDirectory target, w, w', answer =>
      Answers (w' = w) (fails (.syncDirectory target) w ∧ w' = w) answer
  | .closeDirectory target, w, w', answer =>
      Answers (w' = w) (fails (.closeDirectory target) w ∧ w' = w) answer
  | .rmdir _, w, w', _ => w' = w
  | .put key body, w, w', answer =>
      ∃ result store, Returns (s3Step sha256 outages) (S3CaptureStore.put sha256 key body) w.store
          result store ∧ w' = { w with store := store } ∧ answer = result.map Prod.snd

/-- The answers of a filesystem on which the calls of `raises` fail, with a store in reach. -/
def spoolAnswer (sha256 : B → D) (raises : SpoolOp B → Bool) (op : SpoolOp B) (w : SpoolWorld B) :
    SpoolWorld B × op.Reply B D :=
  match op with
  | .files => (w, w.files.keys)
  | .exists' path => (w, (w.files.lookup path).isSome)
  | .readBytes path => (w, if raises (.readBytes path) then none else w.files.lookup path)
  | .stat path =>
      (w, if raises (.stat path) then none else (w.files.lookup path).map EvidenceBody.size)
  | .pendingBytes => (w, w.bytes)
  | .setBytes bytes => ({ w with bytes := bytes }, ())
  | .uuid4 => (w, "0")
  | .openTemporary target hex =>
      if w.files.lookup (target.temporary hex) = none ∧ raises (.openTemporary target hex) = false then
        ({ w with files := w.files.insert (target.temporary hex) EvidenceBody.empty }, true)
      else (w, false)
  | .writeTemporary target hex body =>
      if raises (.writeTemporary target hex body) then
        ({ w with files := w.files.insert (target.temporary hex) EvidenceBody.empty }, false)
      else ({ w with files := w.files.insert (target.temporary hex) body }, true)
  | .replace target hex =>
      match w.files.lookup (target.temporary hex) with
      | none => (w, false)
      | some body =>
          if raises (.replace target hex) then (w, false)
          else ({ w with files := (w.files.erase (target.temporary hex)).insert target body }, true)
  | .unlinkTemporary target hex =>
      if raises (.unlinkTemporary target hex) then (w, false)
      else ({ w with files := w.files.erase (target.temporary hex) }, true)
  | .unlink path =>
      if (w.files.lookup path).isSome ∧ raises (.unlink path) = false then
        ({ w with files := w.files.erase path }, true)
      else (w, false)
  | .mkdir parents => (w, !raises (.mkdir parents))
  | .syncTemporary target hex => (w, !raises (.syncTemporary target hex))
  | .openDirectory target => (w, !raises (.openDirectory target))
  | .syncDirectory target => (w, !raises (.syncDirectory target))
  | .closeDirectory target => (w, !raises (.closeDirectory target))
  | .rmdir parents => (w, !raises (.rmdir parents))
  | .put key body =>
      let stored := (S3CaptureStore.put sha256 key body).run (s3Answer sha256) w.store
      ({ w with store := stored.2 }, stored.1.map Prod.snd)

omit [DecidableEq D] in
theorem answers_not {returned raised : Prop} {raises : Bool} (hreturned : returned)
    (hraised : raises = true → raised) : Answers returned raised (!raises) := by
  cases raises with
  | true => exact hraised rfl
  | false => exact hreturned

theorem spoolAnswer_step {sha256 : B → D} {outages : Prop}
    {fails : SpoolOp B → SpoolWorld B → Prop} {raises : SpoolOp B → Bool} {op : SpoolOp B}
    {w : SpoolWorld B} (h : raises op = true → fails op w) :
    spoolStep sha256 outages fails op w (spoolAnswer sha256 raises op w).1
      (spoolAnswer sha256 raises op w).2 := by
  cases op with
  | files => exact ⟨rfl, .refl _⟩
  | exists' | pendingBytes => exact ⟨rfl, rfl⟩
  | setBytes | uuid4 | rmdir => rfl
  | readBytes path =>
      refine ⟨rfl, ?_⟩
      by_cases hraises : raises (.readBytes path) = true
      · exact .inr ⟨if_pos hraises, h hraises⟩
      · exact .inl (if_neg hraises)
  | stat path =>
      refine ⟨rfl, ?_⟩
      by_cases hraises : raises (.stat path) = true
      · exact .inr ⟨if_pos hraises, h hraises⟩
      · exact .inl (if_neg hraises)
  | mkdir | syncTemporary | openDirectory | syncDirectory | closeDirectory =>
      exact answers_not rfl fun hraises => ⟨h hraises, rfl⟩
  | openTemporary target hex =>
      by_cases hopens : w.files.lookup (target.temporary hex) = none ∧
          raises (.openTemporary target hex) = false
      · simp only [spoolAnswer, if_pos hopens]
        exact ⟨hopens.1, rfl⟩
      · simp only [spoolAnswer, if_neg hopens]
        rw [not_and_or, Bool.not_eq_false] at hopens
        exact ⟨hopens.imp id h, rfl⟩
  | writeTemporary target hex body =>
      by_cases hraises : raises (.writeTemporary target hex body) = true
      · simp only [spoolAnswer, if_pos hraises]
        exact ⟨h hraises, _, rfl⟩
      · simp only [spoolAnswer, if_neg hraises]
        exact rfl
  | replace target hex =>
      cases hlookup : w.files.lookup (target.temporary hex) with
      | none =>
          simp only [spoolAnswer, hlookup]
          exact ⟨.inl hlookup, rfl⟩
      | some body =>
          by_cases hraises : raises (.replace target hex) = true
          · simp only [spoolAnswer, hlookup, if_pos hraises]
            exact ⟨.inr (h hraises), rfl⟩
          · simp only [spoolAnswer, hlookup, if_neg hraises]
            exact ⟨body, hlookup, rfl⟩
  | unlinkTemporary target hex =>
      by_cases hraises : raises (.unlinkTemporary target hex) = true
      · simp only [spoolAnswer, if_pos hraises]
        exact ⟨h hraises, rfl⟩
      · simp only [spoolAnswer, if_neg hraises]
        exact rfl
  | unlink path =>
      by_cases hunlinks : (w.files.lookup path).isSome = true ∧ raises (.unlink path) = false
      · simp only [spoolAnswer, if_pos hunlinks]
        exact ⟨hunlinks.1, rfl⟩
      · simp only [spoolAnswer, if_neg hunlinks]
        rw [not_and_or, Bool.not_eq_true, Option.isSome_eq_false_iff, Option.isNone_iff_eq_none,
          Bool.not_eq_false] at hunlinks
        exact ⟨hunlinks.imp id h, rfl⟩
  | put key body =>
      refine ⟨_, _, Prog.run_returns fun op store => ?_, rfl, rfl⟩
      exact s3Answer_step op store

end Steps

/-! ## `CaptureSpool` -/

abbrev SpoolProg (B D α : Type) := Prog (SpoolOp B) (SpoolOp.Reply B D) SpoolRaised α

namespace CaptureSpool

variable {B V D : Type} [EvidenceBody B V] [DecidableEq D]

/-- A call without a result. -/
def call (op : SpoolProg B D Bool) : SpoolProg B D Unit := do
  unless ← op do throw .osError

def readBytes (path : SpoolPath) : SpoolProg B D B := do
  match ← (Prog.perform (SpoolOp.readBytes path) : SpoolProg B D (Option B)) with
  | some body => return body
  | none => throw .osError

/-- `_entries` -/
def entries : SpoolProg B D (List SpoolPath) := do
  let paths ← (Prog.perform SpoolOp.files : SpoolProg B D (List SpoolPath))
  return sortOn (fun path => toLex (path.name == "manifest.json", path.asPosix)) paths

/-- `sum(path.stat().st_size for path in …)` -/
def sumSizes : List SpoolPath → SpoolProg B D Nat
  | [] => return 0
  | path :: rest => do
      match ← (Prog.perform (SpoolOp.stat path) : SpoolProg B D (Option Nat)) with
      | some size => return size + (← sumSizes rest)
      | none => throw .osError

def unlinkAll : List SpoolPath → SpoolProg B D Unit
  | [] => return ()
  | path :: rest => do
      call (Prog.perform (SpoolOp.unlink path))
      unlinkAll rest

/-- `CaptureSpool.__init__` -/
def init (maxBytes : Nat) : SpoolProg B D Unit := do
  let paths ← (Prog.perform SpoolOp.files : SpoolProg B D (List SpoolPath))
  unlinkAll (paths.filter (·.isTemporary))
  let bytes ← sumSizes (← entries)
  Prog.perform (SpoolOp.setBytes bytes)
  if bytes > maxBytes then
    throw (.spoolFullError "existing capture spool exceeds its configured capacity")
  else return ()

/-- The directory of a file is opened, synced and, whatever that does, closed. -/
def syncParent (target : SpoolPath) : SpoolProg B D Unit := do
  call (Prog.perform (SpoolOp.openDirectory target))
  let synced ← (call (Prog.perform (SpoolOp.syncDirectory target))).attempt
  call (Prog.perform (SpoolOp.closeDirectory target))
  Prog.lift synced

/-- The `try` of `_stage`. -/
def place (target : SpoolPath) (hex : String) (body : B) : SpoolProg B D Unit := do
  call (Prog.perform (SpoolOp.openTemporary target hex))
  call (Prog.perform (SpoolOp.writeTemporary target hex body))
  call (Prog.perform (SpoolOp.syncTemporary target hex))
  call (Prog.perform (SpoolOp.replace target hex))
  syncParent target

variable (sha256 : B → D) (maxBytes : Nat)

/-- `_stage`, once nothing is found at the target. -/
def stageNew (target : SpoolPath) (body : B) : SpoolProg B D D := do
  let pending ← (Prog.perform SpoolOp.pendingBytes : SpoolProg B D Int)
  if pending + EvidenceBody.size body > maxBytes then
    throw (.spoolFullError "capture spool capacity exceeded")
  else
    call (Prog.perform (SpoolOp.mkdir target.parents))
    let hex ← (Prog.perform SpoolOp.uuid4 : SpoolProg B D String)
    let placed ← (place target hex body).attempt
    call (Prog.perform (SpoolOp.unlinkTemporary target hex))
    Prog.lift placed
    let bytes ← (Prog.perform SpoolOp.pendingBytes : SpoolProg B D Int)
    Prog.perform (SpoolOp.setBytes (bytes + EvidenceBody.size body))
    return sha256 body

/-- `_stage` -/
def stage (key : String) (body : B) : SpoolProg B D D := do
  let target ← Prog.lift (spoolPath key)
  if ← (Prog.perform (SpoolOp.exists' target) : SpoolProg B D Bool) then
    let current ← readBytes target
    if sha256 current = sha256 body then return sha256 body
    else throw (.raised (.runtimeError s!"Local evidence spool conflict: {key}"))
  else stageNew sha256 maxBytes target body

/-- `stage_capture` -/
def stageCapture (key : String) (body : B) : SpoolProg B D D := stage sha256 maxBytes key body

/-- `stage_json` -/
def stageJson (key : String) (value : V) : SpoolProg B D D :=
  stage sha256 maxBytes key (EvidenceBody.canonicalJson value)

/-- What `drain` puts under the key of a file. -/
def published (key : String) (body : B) : Except SpoolRaised B :=
  if isPayloadKey key then return body
  else do
    let value ← (EvidenceBody.loads body).mapError SpoolRaised.raised
    if EvidenceBody.isObject B value then return EvidenceBody.canonicalJson value
    else throw (.raised (.runtimeError s!"Spool manifest must be an object: {key}"))

/-- The directories that `drain` has emptied go, from the innermost one outwards. -/
def rmdirs : List String → SpoolProg B D Unit
  | [] => return ()
  | innermost :: outer => do
      if ← (Prog.perform (SpoolOp.rmdir (innermost :: outer)) : SpoolProg B D Bool) then rmdirs outer

/-- A delivered file leaves the spool. -/
def remove (path : SpoolPath) (body : B) : SpoolProg B D Unit := do
  call (Prog.perform (SpoolOp.unlink path))
  let bytes ← (Prog.perform SpoolOp.pendingBytes : SpoolProg B D Int)
  Prog.perform (SpoolOp.setBytes (bytes - EvidenceBody.size body))
  rmdirs path.parents.reverse

/-- The loop of `drain`. -/
def drainFiles (deferUnavailable : Bool) : Nat → List SpoolPath → SpoolProg B D Nat
  | count, [] => return count
  | count, path :: rest => do
      let body ← readBytes path
      let putting ← Prog.lift (published path.asPosix body)
      match ← (Prog.perform (SpoolOp.put path.asPosix putting) : SpoolProg B D (Except Raised D)) with
      | .error .captureStoreUnavailable =>
          if deferUnavailable then return count else throw (.raised .captureStoreUnavailable)
      | .error error => throw (.raised error)
      | .ok storedDigest =>
          if storedDigest = sha256 body then
            remove path body
            drainFiles deferUnavailable (count + 1) rest
          else throw (.raised
            (.runtimeError "Capture store returned an unexpected spool checksum"))

/-- `drain` -/
def drain (deferUnavailable : Bool) : SpoolProg B D Nat := do
  drainFiles sha256 deferUnavailable 0 (← entries)

end CaptureSpool

/-! ## Runs -/

/-- A call of one spool. -/
inductive SpoolCall (B V : Type) where
  | stageCapture (key : String) (body : B)
  | stageJson (key : String) (value : V)
  | drain (deferUnavailable : Bool)

section Runs

variable {B V D : Type} [EvidenceBody B V] [DecidableEq D] (sha256 : B → D) (maxBytes : Nat)

def SpoolCall.program : SpoolCall B V → SpoolProg B D Unit
  | .stageCapture key body => do
      let _ ← CaptureSpool.stageCapture sha256 maxBytes key body
  | .stageJson key value => do
      let _ ← CaptureSpool.stageJson sha256 maxBytes key value
  | .drain deferUnavailable => do
      let _ ← CaptureSpool.drain sha256 deferUnavailable

/-- Calls one after another; a call that raises is followed by the next one all the same. -/
inductive SpoolRun (step : (op : SpoolOp B) → SpoolWorld B → SpoolWorld B → op.Reply B D → Prop) :
    List (SpoolCall B V) → SpoolWorld B → SpoolWorld B → Prop
  | nil {w : SpoolWorld B} : SpoolRun step [] w w
  | cons {call : SpoolCall B V} {rest : List (SpoolCall B V)} {w w' last : SpoolWorld B}
      {result : Except SpoolRaised Unit}
      (hcall : Returns step (call.program sha256 maxBytes) w result w')
      (hrest : SpoolRun step rest w' last) : SpoolRun step (call :: rest) w last

/-- The run in which every call is answered by a function. -/
def SpoolCall.runAll (answer : (op : SpoolOp B) → SpoolWorld B → SpoolWorld B × op.Reply B D) :
    List (SpoolCall B V) → SpoolWorld B → SpoolWorld B
  | [], w => w
  | call :: rest, w => runAll answer rest ((call.program sha256 maxBytes).run answer w).2

theorem SpoolCall.runAll_run
    {step : (op : SpoolOp B) → SpoolWorld B → SpoolWorld B → op.Reply B D → Prop}
    {answer : (op : SpoolOp B) → SpoolWorld B → SpoolWorld B × op.Reply B D}
    (h : ∀ op w, step op w (answer op w).1 (answer op w).2) (calls : List (SpoolCall B V))
    (w : SpoolWorld B) :
    SpoolRun sha256 maxBytes step calls w (SpoolCall.runAll sha256 maxBytes answer calls w) := by
  induction calls generalizing w with
  | nil => exact .nil
  | cons call rest ih => exact .cons (Prog.run_returns h) (ih _)

end Runs

end MiniLakehouse
