import MiniLakehouse.Library.Programs
import MiniLakehouse.Raised

/-!
# The capture store

`capture/store.py`: content-verifying immutable writes to one bucket.  An object
is created once (`IfNoneMatch="*"`) and never replaced; its digest is kept as
metadata.  The service may be out of reach at any request, and then a write may
have reached the bucket all the same.

Keys and bodies are any types with equality, and `digest` is the hash of a body.
-/

namespace MiniLakehouse

/-! ## The bucket -/

/-- One object at most under each key. -/
structure Bucket (K B : Type) where
  objects : List (K × B)
  keys_unique : (objects.map Prod.fst).Nodup

variable {K B D : Type} [DecidableEq K]

namespace Bucket

def empty : Bucket K B := ⟨[], List.nodup_nil⟩

def find (bucket : Bucket K B) (key : K) : Option B :=
  (bucket.objects.find? (·.1 == key)).map Prod.snd

theorem find_eq_none {bucket : Bucket K B} {key : K} :
    bucket.find key = none ↔ key ∉ bucket.objects.map Prod.fst := by
  simp only [find, Option.map_eq_none_iff, List.find?_eq_none, beq_iff_eq, List.mem_map]
  exact ⟨fun h ⟨entry, hentry, hkey⟩ => h entry hentry hkey,
    fun h entry hentry hkey => h ⟨entry, hentry, hkey⟩⟩

/-- Create an object. -/
def insert (bucket : Bucket K B) (key : K) (body : B) (h : bucket.find key = none) :
    Bucket K B where
  objects := bucket.objects ++ [(key, body)]
  keys_unique := by
    rw [List.map_append, List.nodup_append]
    refine ⟨bucket.keys_unique, List.nodup_singleton _, ?_⟩
    intro old hold new hnew hsame
    rw [hsame, List.mem_singleton.mp hnew] at hold
    exact find_eq_none.mp h hold

@[simp] theorem find_empty (key : K) : (empty : Bucket K B).find key = none := rfl

@[simp] theorem find_insert {bucket : Bucket K B} {key other : K} {body : B}
    {h : bucket.find key = none} :
    (bucket.insert key body h).find other = if other = key then some body else bucket.find other := by
  by_cases hsame : other = key
  · subst hsame
    have hnone : bucket.objects.find? (·.1 == other) = none := Option.map_eq_none_iff.mp h
    simp [find, insert, hnone]
  · have hother : ¬key = other := fun heq => hsame heq.symm
    simp [find, insert, hsame, hother, List.find?_append]

theorem find_of_mem {bucket : Bucket K B} {key : K} {body : B} (h : (key, body) ∈ bucket.objects) :
    bucket.find key = some body := by
  cases hfind : bucket.find key with
  | none => exact absurd (List.mem_map_of_mem h) (find_eq_none.mp hfind)
  | some found =>
      obtain ⟨entry, hentry, rfl⟩ := Option.map_eq_some_iff.mp hfind
      have hkey : entry.1 = key := by simpa using List.find?_some hentry
      have hsame := List.inj_on_of_nodup_map bucket.keys_unique
        (List.mem_of_find?_eq_some hentry) h hkey
      rw [hsame]

theorem mem_of_find {bucket : Bucket K B} {key : K} {body : B} (h : bucket.find key = some body) :
    (key, body) ∈ bucket.objects := by
  obtain ⟨entry, hentry, rfl⟩ := Option.map_eq_some_iff.mp h
  have hkey : entry.1 = key := by simpa using List.find?_some hentry
  rw [← hkey]
  exact List.mem_of_find?_eq_some hentry

/-- Later objects leave the earlier ones in place. -/
def Extends (later earlier : Bucket K B) : Prop :=
  ∀ key body, earlier.find key = some body → later.find key = some body

end Bucket

/-! ## Requests -/

inductive S3Op (K B : Type) where
  | putObject (key : K) (body : B)
  | headObject (key : K)
  | getObject (key : K)
  | listObjects

inductive PutAnswer where
  | stored
  | preconditionFailed
  | unavailable

inductive Answer (α : Type) where
  | found (value : α)
  | missing
  | unavailable

@[reducible] def S3Op.Reply (D : Type) : S3Op K B → Type
  | .putObject _ _ => PutAnswer
  | .headObject _ => Answer D
  | .getObject _ => Answer B
  | .listObjects => Option (List K)

/-- What is found, unless the service is out of reach. -/
def Answer.Gives {α : Type} (outages : Prop) (value : Option α) : Answer α → Prop
  | .found a => value = some a
  | .missing => value = none
  | .unavailable => outages

/-- What a request can do to the bucket; `outages` says whether the service may be out of
reach.  A write whose answer is lost is one that happened. -/
def s3Step (digest : B → D) (outages : Prop) :
    (op : S3Op K B) → Bucket K B → Bucket K B → op.Reply D → Prop
  | .putObject key body, w, w', .stored => ∃ h : w.find key = none, w' = w.insert key body h
  | .putObject key _, w, w', .preconditionFailed => w.find key ≠ none ∧ w' = w
  | .putObject key body, w, w', .unavailable =>
      outages ∧ (w' = w ∨ ∃ h : w.find key = none, w' = w.insert key body h)
  | .headObject key, w, w', answer => w' = w ∧ answer.Gives outages ((w.find key).map digest)
  | .getObject key, w, w', answer => w' = w ∧ answer.Gives outages (w.find key)
  | .listObjects, w, w', answer =>
      w' = w ∧ if answer = none then outages else answer = some (w.objects.map Prod.fst)

/-- The answers of a service that is in reach. -/
def s3Answer (digest : B → D) (op : S3Op K B) (w : Bucket K B) : Bucket K B × op.Reply D :=
  match op with
  | .putObject key body =>
      if h : w.find key = none then (w.insert key body h, .stored) else (w, .preconditionFailed)
  | .headObject key =>
      match w.find key with
      | some body => (w, .found (digest body))
      | none => (w, .missing)
  | .getObject key =>
      match w.find key with
      | some body => (w, .found body)
      | none => (w, .missing)
  | .listObjects => (w, some (w.objects.map Prod.fst))

theorem s3Answer_step {digest : B → D} {outages : Prop} (op : S3Op K B) (w : Bucket K B) :
    s3Step digest outages op w (s3Answer digest op w).1 (s3Answer digest op w).2 := by
  cases op with
  | putObject key body =>
      by_cases h : w.find key = none
      · simp only [s3Answer, dif_pos h]
        exact ⟨h, rfl⟩
      · simp only [s3Answer, dif_neg h]
        exact ⟨h, rfl⟩
  | headObject key =>
      cases h : w.find key with
      | none => simp [s3Answer, h, s3Step, Answer.Gives]
      | some body => simp [s3Answer, h, s3Step, Answer.Gives]
  | getObject key =>
      cases h : w.find key with
      | none => simp [s3Answer, h, s3Step, Answer.Gives]
      | some body => simp [s3Answer, h, s3Step, Answer.Gives]
  | listObjects => simp [s3Answer, s3Step]

/-- Every request is answered. -/
theorem s3Step_total {digest : B → D} {outages : Prop} (op : S3Op K B) (w : Bucket K B) :
    ∃ w' answer, s3Step digest outages op w w' answer :=
  ⟨_, _, s3Answer_step op w⟩

/-! ## `S3CaptureStore` -/

/-- A program over the requests of a store. -/
abbrev S3Prog (K B D α : Type) := Prog (S3Op K B) (S3Op.Reply D) Raised α

namespace S3CaptureStore

def putObject (key : K) (body : B) : S3Prog K B D PutAnswer := Prog.perform (S3Op.putObject key body)

def headObject (key : K) : S3Prog K B D (Answer D) := Prog.perform (S3Op.headObject key)

def getObject (key : K) : S3Prog K B D (Answer B) := Prog.perform (S3Op.getObject key)

def listObjects : S3Prog K B D (Option (List K)) := Prog.perform S3Op.listObjects

variable [DecidableEq D] [ToString K]

def conflict (key : K) : Raised := .runtimeError s!"Immutable capture object conflict: {key}"

/-- `_put` -/
def put (digest : B → D) (key : K) (body : B) : S3Prog K B D (K × D) := do
  match ← putObject key body with
  | .stored => return (key, digest body)
  | .unavailable => throw .captureStoreUnavailable
  | .preconditionFailed =>
      match ← headObject key with
      | .found current =>
          if current = digest body then return (key, digest body) else throw (conflict key)
      | .missing => throw (conflict key)
      | .unavailable => throw .captureStoreUnavailable

/-- `read_json`; `loads` reads the value that a body spells. -/
def readJson {V : Type} (digest : B → D) (loads : B → Except Raised V) (key : K) :
    S3Prog K B D (Option V) := do
  match ← headObject key with
  | .missing => return none
  | .unavailable => throw .captureStoreUnavailable
  | .found expected =>
      match ← getObject key with
      | .missing => throw (.runtimeError "NoSuchKey")
      | .unavailable => throw .captureStoreUnavailable
      | .found body =>
          if expected = digest body then some <$> Prog.lift (loads body)
          else throw (.runtimeError s!"Capture object checksum mismatch: {key}")

/-- `list_keys`: the keys below a prefix in the order of their text. -/
def listKeys (below : K → Bool) (order : List K → List K) : S3Prog K B D (List K) := do
  match ← listObjects with
  | some keys => return order (keys.filter below)
  | none => throw .captureStoreUnavailable

/-! ### What the operations do -/

variable {digest : B → D} {outages : Prop} {w : Bucket K B} {key : K}

/-- The error of a service that is out of reach. -/
def Unreachable (outages : Prop) (error : Raised) : Prop :=
  outages ∧ error = .captureStoreUnavailable

/-- A write creates the object, or finds it there: with the same digest, or in conflict. -/
theorem put_secures {body : B} {C : Bucket K B → Prop}
    {Q : Except Raised (K × D) → Bucket K B → Prop} (hcrash : C w)
    (hfresh : ∀ h : w.find key = none, C (w.insert key body h) ∧
      Q (.ok (key, digest body)) (w.insert key body h) ∧
      (outages → Q (.error .captureStoreUnavailable) (w.insert key body h)))
    (hsame : ∀ current, w.find key = some current → digest current = digest body →
      Q (.ok (key, digest body)) w)
    (hconflict : ∀ current, w.find key = some current → digest current ≠ digest body →
      Q (.error (conflict key)) w)
    (hunavailable : outages → Q (.error .captureStoreUnavailable) w) :
    Secures (s3Step digest outages) C Q (put digest key body) w := by
  refine ⟨hcrash, ?_⟩
  intro w' answer hput
  cases answer with
  | stored =>
      obtain ⟨h, rfl⟩ := hput
      exact ⟨(hfresh h).1, (hfresh h).2.1⟩
  | unavailable =>
      obtain ⟨hout, rfl | ⟨h, rfl⟩⟩ := hput
      · exact ⟨hcrash, hunavailable hout⟩
      · exact ⟨(hfresh h).1, (hfresh h).2.2 hout⟩
  | preconditionFailed =>
      obtain ⟨hexists, rfl⟩ := hput
      refine ⟨hcrash, ?_⟩
      intro w'' answer hhead
      obtain ⟨rfl, hgives⟩ := hhead
      cases answer with
      | unavailable => exact ⟨hcrash, hunavailable hgives⟩
      | missing => exact absurd (Option.map_eq_none_iff.mp hgives) hexists
      | found current =>
          obtain ⟨stored, hstored, rfl⟩ := Option.map_eq_some_iff.mp hgives
          show Secures _ C Q
            (if digest stored = digest body then pure (key, digest body) else throw (conflict key)) _
          by_cases hdigest : digest stored = digest body
          · rw [if_pos hdigest]
            exact ⟨hcrash, hsame stored hstored hdigest⟩
          · rw [if_neg hdigest]
            exact ⟨hcrash, hconflict stored hstored hdigest⟩

/-- What a reader finds under a key. -/
def found {V : Type} (loads : B → Except Raised V) (bucket : Bucket K B) (key : K) :
    Except Raised (Option V) :=
  match bucket.find key with
  | none => .ok none
  | some body => some <$> loads body

theorem readJson_inspects {V : Type} {loads : B → Except Raised V} :
    Inspects (s3Step digest outages) (Unreachable outages) (readJson digest loads key) w
      (found loads w key) := by
  intro C Q hcrash hpost hfails
  refine ⟨hcrash, ?_⟩
  intro w' answer hhead
  obtain ⟨rfl, hgives⟩ := hhead
  cases answer with
  | missing =>
      have hnone : w'.find key = none := Option.map_eq_none_iff.mp hgives
      simp only [found, hnone] at hpost
      exact ⟨hcrash, hpost⟩
  | unavailable => exact ⟨hcrash, hfails _ ⟨hgives, rfl⟩⟩
  | found expected =>
      obtain ⟨stored, hstored, rfl⟩ := Option.map_eq_some_iff.mp hgives
      refine ⟨hcrash, ?_⟩
      intro w'' answer hget
      obtain ⟨rfl, hgives⟩ := hget
      cases answer with
      | missing => exact absurd (hstored.symm.trans hgives) (by simp)
      | unavailable => exact ⟨hcrash, hfails _ ⟨hgives, rfl⟩⟩
      | found body =>
          obtain rfl : stored = body := Option.some.inj (hstored.symm.trans hgives)
          simp only [found, hstored] at hpost
          show Secures _ C Q (if digest stored = digest stored then some <$> Prog.lift (loads stored)
            else throw _) _
          rw [if_pos rfl]
          cases hloads : loads stored with
          | ok value =>
              rw [hloads] at hpost
              exact ⟨hcrash, hpost⟩
          | error raised =>
              rw [hloads] at hpost
              exact ⟨hcrash, hpost⟩

/-- The keys that a listing shows. -/
def listed (below : K → Bool) (order : List K → List K) (bucket : Bucket K B) : List K :=
  order ((bucket.objects.map Prod.fst).filter below)

omit [DecidableEq D] [ToString K] in
theorem listKeys_inspects {below : K → Bool} {order : List K → List K} :
    Inspects (s3Step digest outages) (Unreachable outages) (listKeys below order) w
      (.ok (listed below order w)) := by
  intro C Q hcrash hpost hfails
  refine ⟨hcrash, ?_⟩
  intro w' answer hlist
  obtain ⟨rfl, hgives⟩ := hlist
  cases answer with
  | none => exact ⟨hcrash, hfails _ ⟨by simpa using hgives, rfl⟩⟩
  | some keys =>
      obtain rfl : keys = w'.objects.map Prod.fst := by simpa using hgives
      exact ⟨hcrash, hpost⟩

end S3CaptureStore

end MiniLakehouse
