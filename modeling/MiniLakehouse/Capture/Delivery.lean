import MiniLakehouse.Capture.Evidence

/-!
# Delivery of staged evidence

What `CaptureSpool` owes to those who stage with it, whatever happens to its process.  Nothing
staged is lost (`staged_evidence_kept`), manifests are stored last (`manifests_commit_last`),
and a spool that is opened again delivers all that it holds (`reopened_spool_delivers`).
-/

namespace MiniLakehouse

variable {B V D : Type} [EvidenceBody B V] [DecidableEq D]

/-! ## Histories -/

/-- What a call is to stage, and under which key. -/
def SpoolCall.staged : SpoolCall B V → Option (String × B)
  | .stageCapture key body => some (key, body)
  | .stageJson key value => some (key, EvidenceBody.canonicalJson value)
  | .drain _ => none

/-- What happens to a spool: a call ends, the process is cut off in one, or another process
opens the directory and is perhaps cut off in that. -/
inductive SpoolEvent (B V : Type) where
  | ended (call : SpoolCall B V) (result : Except SpoolRaised Unit)
  | cutOff (call : SpoolCall B V)
  | opening

def SpoolEvent.staged : SpoolEvent B V → Option (String × B)
  | .ended call _ | .cutOff call => call.staged
  | .opening => none

/-- The worlds that a spool goes through, with what has happened so far. -/
inductive SpoolHistory (sha256 : B → D) (maxBytes : Nat) (start : SpoolWorld B) :
    List (SpoolEvent B V) → SpoolWorld B → Prop
  | start : SpoolHistory sha256 maxBytes start [] start
  | ended {events : List (SpoolEvent B V)} {w w' : SpoolWorld B} {call : SpoolCall B V}
      {result : Except SpoolRaised Unit} (hbefore : SpoolHistory sha256 maxBytes start events w)
      (hreturns : Returns (faultyStep sha256) (call.program sha256 maxBytes) w result w') :
      SpoolHistory sha256 maxBytes start (events ++ [.ended call result]) w'
  | cutOff {events : List (SpoolEvent B V)} {w w' : SpoolWorld B} {call : SpoolCall B V}
      (hbefore : SpoolHistory sha256 maxBytes start events w)
      (hvisits : Visits (faultyStep sha256) (call.program sha256 maxBytes) w w') :
      SpoolHistory sha256 maxBytes start (events ++ [.cutOff call]) w'
  | opening {events : List (SpoolEvent B V)} {w w' : SpoolWorld B}
      (hbefore : SpoolHistory sha256 maxBytes start events w)
      (hvisits : Visits (faultyStep sha256) (CaptureSpool.init maxBytes : SpoolProg B D Unit) w w') :
      SpoolHistory sha256 maxBytes start (events ++ [.opening]) w'

namespace Rehearsal

/-- The calls of a day: a payload and its manifest are staged and delivered. -/
def stagePayload : SpoolCall Bytes JsonValue := .stageCapture "day/a.json.gz" eightBytes

def stageManifest : SpoolCall Bytes JsonValue := .stageJson "day/manifest.json" (.obj [])

/-- A call of a spool of a hundred bytes in which nothing fails. -/
def called (call : SpoolCall Bytes JsonValue) (w : SpoolWorld Bytes) :
    Except SpoolRaised Unit × SpoolWorld Bytes :=
  (call.program id 100).run (spoolAnswer id fun _ => false) w

def payloadStaged : SpoolWorld Bytes := (called stagePayload emptySpool).2

def manifestStaged : SpoolWorld Bytes := (called stageManifest payloadStaged).2

def deliveredSpool : SpoolWorld Bytes := (called (.drain false) manifestStaged).2

/-- The one content of each key of the day. -/
def dayContent (path : EvidencePath) : Bytes :=
  if path.1.name = "manifest.json" then canonicalJsonBytes (.obj []) else eightBytes

theorem emptySpool_named : emptySpool.Named := fun _ hpresent => absurd rfl hpresent

/-- A call that goes through continues a history. -/
theorem called_history {start w : SpoolWorld Bytes} {events : List (SpoolEvent Bytes JsonValue)}
    (hbefore : SpoolHistory id 100 start events w) (call : SpoolCall Bytes JsonValue)
    (hresult : (called call w).1 = .ok ()) :
    SpoolHistory id 100 start (events ++ [.ended call (.ok ())]) (called call w).2 := by
  have hanswer : ∀ (op : SpoolOp Bytes) (w : SpoolWorld Bytes), faultyStep id op w
      (spoolAnswer id (fun _ => false) op w).1 (spoolAnswer id (fun _ => false) op w).2 :=
    fun op w => spoolAnswer_step fun hraises => by cases hraises
  have hreturns : Returns (faultyStep id) (call.program id 100) w (called call w).1
      (called call w).2 := Prog.run_returns hanswer
  rw [hresult] at hreturns
  exact .ended hbefore hreturns

theorem payloadStaged_history :
    SpoolHistory id 100 emptySpool [.ended stagePayload (.ok ())] payloadStaged :=
  called_history .start stagePayload (by decide +kernel)

theorem deliveredSpool_history : SpoolHistory id 100 payloadStaged
    [.ended stageManifest (.ok ()), .ended (.drain false) (.ok ())] deliveredSpool :=
  called_history (called_history .start stageManifest (by decide +kernel)) (.drain false)
    (by decide +kernel)

end Rehearsal

section

variable {sha256 : B → D} {maxBytes : Nat} {stages : EvidencePath → B → Prop}
  {start w w' : SpoolWorld B} {events : List (SpoolEvent B V)}

/-- The object of a key is in its place or stored. -/
def SpoolWorld.Holds (w : SpoolWorld B) (key : String) (body : B) : Prop :=
  ∃ path : EvidencePath, spoolPath key = .ok path.1 ∧ w.outbox.Held path body

/-- **Step lemma.**  Whatever a call does is steps of the outbox, and what it has staged when
it returns is held. -/
theorem call_refines (hdigest : Function.Injective sha256) {call : SpoolCall B V}
    (hw : start.Refines stages w)
    (hstages : ∀ key body, call.staged = some (key, body) →
      ∀ path : EvidencePath, spoolPath key = .ok path.1 → stages path body) :
    CaptureSpool.Refining sha256 stages start (fun result w' => start.Refines stages w' ∧
      (result = .ok () → ∀ key body, call.staged = some (key, body) → w'.Holds key body))
      (call.program sha256 maxBytes) w := by
  have hstage : ∀ {key : String} {body : B}, call.staged = some (key, body) →
      CaptureSpool.Refining sha256 stages start (fun result w' => start.Refines stages w' ∧
        (result = .ok () → ∀ key body, call.staged = some (key, body) → w'.Holds key body))
        (do let _ ← CaptureSpool.stage sha256 maxBytes key body) w := by
    intro key body hstaged
    rw [CaptureSpool.Refining, secures_bind]
    refine (CaptureSpool.stage_refining hdigest hw (hstages key body hstaged)).imp
      (fun _ h => h) ?_
    intro result w' hw' hresult
    cases result with
    | error error => exact ⟨hw', by simp⟩
    | ok digest =>
        obtain ⟨path, hpath, hfile⟩ := hresult.2 digest rfl
        refine ⟨hw', hw', fun _ key' body' hstaged' => ?_⟩
        obtain ⟨rfl, rfl⟩ := Prod.mk.inj (Option.some.inj (hstaged.symm.trans hstaged'))
        exact ⟨⟨path, key, hpath⟩, hpath, .inl hfile⟩
  cases call with
  | stageCapture key body => exact hstage rfl
  | stageJson key value => exact hstage rfl
  | drain deferUnavailable =>
      unfold SpoolCall.program
      rw [CaptureSpool.Refining, secures_bind]
      refine (CaptureSpool.drain_refining hdigest hw).imp (fun _ h => h) ?_
      intro result w' _ hw'
      have hnone : ∀ key body, (SpoolCall.drain deferUnavailable : SpoolCall B V).staged ≠
          some (key, body) := fun key body hstaged => by cases hstaged
      cases result with
      | error error => exact ⟨hw', by simp⟩
      | ok count => exact ⟨hw', hw', fun _ key body hstaged => absurd hstaged (hnone key body)⟩

/-- **Run lemma.** -/
theorem SpoolHistory.refines (hdigest : Function.Injective sha256) (hnamed : start.Named)
    (hhistory : SpoolHistory sha256 maxBytes start events w)
    (hstages : ∀ event ∈ events, ∀ key body, event.staged = some (key, body) →
      ∀ path : EvidencePath, spoolPath key = .ok path.1 → stages path body) :
    start.Refines stages w := by
  induction hhistory with
  | start => exact ⟨hnamed, .refl⟩
  | @ended events w w' call result _ hreturns ih =>
      have hw := ih fun event hevent => hstages event (List.mem_append_left _ hevent)
      exact ((call_refines hdigest hw (hstages (.ended call result) (by simp))).returns
        hreturns).1
  | @cutOff events w w' call _ hvisits ih =>
      have hw := ih fun event hevent => hstages event (List.mem_append_left _ hevent)
      exact (call_refines hdigest hw (hstages (.cutOff call) (by simp))).visits hvisits
  | opening _ hvisits ih =>
      have hw := ih fun event hevent => hstages event (List.mem_append_left _ hevent)
      exact (CaptureSpool.init_refining hw).visits hvisits

/-- Any object may be staged under any key. -/
def Unrestricted : EvidencePath → B → Prop := fun _ _ => True

/-- What a call does to a directory of evidence, and what it keeps held. -/
theorem call_keeps (hdigest : Function.Injective sha256) (call : SpoolCall B V)
    (hw : w.Named) :
    CaptureSpool.Refining sha256 Unrestricted w (fun result w' => w.Refines Unrestricted w' ∧
      (result = .ok () → ∀ key body, call.staged = some (key, body) → w'.Holds key body))
      (call.program sha256 maxBytes) w :=
  call_refines hdigest ⟨hw, .refl⟩ fun _ _ _ _ _ => trivial

theorem SpoolHistory.named (hdigest : Function.Injective sha256) (hnamed : start.Named)
    (hhistory : SpoolHistory sha256 maxBytes start events w) : w.Named := by
  have hrefines : start.Refines Unrestricted w :=
    hhistory.refines hdigest hnamed fun _ _ _ _ _ _ _ => trivial
  exact hrefines.named

theorem SpoolWorld.Holds.refines {key : String} {body : B} (h : w.Holds key body)
    (hsteps : w.Refines stages w') : w'.Holds key body := by
  obtain ⟨path, hpath, hheld⟩ := h
  exact ⟨path, hpath, hheld.steps hsteps.steps⟩

/-- What has been staged by a call that returned is held ever after. -/
theorem SpoolHistory.holds (hdigest : Function.Injective sha256) (hnamed : start.Named)
    (hhistory : SpoolHistory sha256 maxBytes start events w) {call : SpoolCall B V}
    (hended : .ended call (.ok ()) ∈ events) {key : String} {body : B}
    (hstaged : call.staged = some (key, body)) : w.Holds key body := by
  induction hhistory with
  | start => cases hended
  | @ended events w w' ending result hbefore hreturns ih =>
      have hstep := (call_keeps hdigest ending (hbefore.named hdigest hnamed)).returns hreturns
      rcases List.mem_append.mp hended with hended | hended
      · exact (ih hended).refines hstep.1
      · obtain ⟨rfl, rfl⟩ := SpoolEvent.ended.inj (List.mem_singleton.mp hended)
        exact hstep.2 rfl key body hstaged
  | @cutOff events w w' cut hbefore hvisits ih =>
      have hstep := (call_keeps hdigest cut (hbefore.named hdigest hnamed)).visits hvisits
      rcases List.mem_append.mp hended with hended | hended
      · exact (ih hended).refines hstep
      · cases List.mem_singleton.mp hended
  | @opening events w w' hbefore hvisits ih =>
      have hstart : w.Refines Unrestricted w := ⟨hbefore.named hdigest hnamed, .refl⟩
      rcases List.mem_append.mp hended with hended | hended
      · exact (ih hended).refines ((CaptureSpool.init_refining hstart).visits hvisits)
      · cases List.mem_singleton.mp hended

/-- **Staged evidence is never lost.**  Once a staging call has returned, its bytes are in the
spool or in the store at every later moment. -/
theorem staged_evidence_kept (hdigest : Function.Injective sha256) (hnamed : start.Named)
    (hhistory : SpoolHistory sha256 maxBytes start events w) {call : SpoolCall B V}
    (hended : .ended call (.ok ()) ∈ events) {key : String} {body : B}
    (hstaged : call.staged = some (key, body)) :
    ∃ path, spoolPath key = .ok path ∧
      (w.files.lookup path = some body ∨ w.store.find path.asPosix = some body) := by
  obtain ⟨path, hpath, hheld⟩ := hhistory.holds hdigest hnamed hended hstaged
  exact ⟨path.1, hpath, hheld⟩

open Rehearsal in
/-- A payload that has been staged is in the spool. -/
theorem staged_evidence_kept_rehearsal : ∃ path, spoolPath "day/a.json.gz" = .ok path ∧
    (payloadStaged.files.lookup path = some eightBytes ∨
      payloadStaged.store.find path.asPosix = some eightBytes) :=
  staged_evidence_kept Function.injective_id emptySpool_named payloadStaged_history
    List.mem_cons_self rfl

/-- **Manifests commit last.**  A manifest that is not stored yet when a payload's staging has
returned is never in the store without the payload. -/
theorem manifests_commit_last (hdigest : Function.Injective sha256) (hnamed : start.Named)
    {before after : List (SpoolEvent B V)} {middle : SpoolWorld B}
    (hbefore : SpoolHistory sha256 maxBytes start before middle)
    (hafter : SpoolHistory sha256 maxBytes middle after w)
    {call : SpoolCall B V} (hended : .ended call (.ok ()) ∈ before) {key : String} {body : B}
    (hstaged : call.staged = some (key, body)) {path manifest : SpoolPath} {manifestKey : String}
    (hpath : spoolPath key = .ok path) (hpayload : path.name ≠ "manifest.json")
    (hmanifest : spoolPath manifestKey = .ok manifest)
    (hcommits : manifest.name = "manifest.json")
    (hnone : middle.store.find manifest.asPosix = none)
    (hstored : w.store.find manifest.asPosix ≠ none) :
    w.store.find path.asPosix = some body := by
  obtain ⟨payload, hpath', hheld⟩ := hbefore.holds hdigest hnamed hended hstaged
  obtain rfl : path = payload.1 := Except.ok.inj (hpath.symm.trans hpath')
  have hcommitted : middle.outbox.Committed payload body ⟨manifest, manifestKey, hmanifest⟩ :=
    ⟨hheld, .inl hnone⟩
  have hrefines : middle.Refines Unrestricted w :=
    hafter.refines hdigest (hbefore.named hdigest hnamed) fun _ _ _ _ _ _ _ => trivial
  have hlater := hcommitted.steps (show ¬payload.Commits from hpayload)
    (show EvidencePath.Commits ⟨manifest, manifestKey, hmanifest⟩ from hcommits) hrefines.steps
  exact hlater.behind.resolve_left hstored

open Rehearsal in
/-- The manifest of the day is delivered, and so is its payload. -/
theorem manifests_commit_last_rehearsal :
    deliveredSpool.store.find "day/a.json.gz" = some eightBytes := by
  have hpayload : spoolPath "day/a.json.gz" = .ok ⟨["day"], "a.json.gz"⟩ := by decide +kernel
  have hmanifest : spoolPath "day/manifest.json" = .ok ⟨["day"], "manifest.json"⟩ := by
    decide +kernel
  have hnone : payloadStaged.store.find (SpoolPath.mk ["day"] "manifest.json").asPosix = none := by
    decide +kernel
  have hstored :
      deliveredSpool.store.find (SpoolPath.mk ["day"] "manifest.json").asPosix ≠ none := by
    decide +kernel
  have hkept : deliveredSpool.store.find (SpoolPath.mk ["day"] "a.json.gz").asPosix =
      some eightBytes :=
    manifests_commit_last Function.injective_id emptySpool_named payloadStaged_history
      deliveredSpool_history List.mem_cons_self rfl hpayload (by decide) hmanifest rfl hnone hstored
  exact hkept

end

/-! ## Recovery -/

/-- Nothing raises of itself, and the store is in reach. -/
abbrev soundStep (sha256 : B → D) :
    (op : SpoolOp B) → SpoolWorld B → SpoolWorld B → op.Reply B D → Prop :=
  spoolStep sha256 False fun _ _ => False

omit [DecidableEq D] in
theorem s3Step_mono {K : Type} [DecidableEq K] {digest : B → D} {outages outages' : Prop}
    (houtages : outages → outages') {op : S3Op K B} {w w' : Bucket K B} {reply : op.Reply D}
    (h : s3Step digest outages op w w' reply) : s3Step digest outages' op w w' reply := by
  cases op with
  | putObject key body =>
      cases reply with
      | stored => exact h
      | preconditionFailed => exact h
      | unavailable => exact ⟨houtages h.1, h.2⟩
  | headObject key | getObject key =>
      refine ⟨h.1, ?_⟩
      cases reply with
      | found value => exact h.2
      | missing => exact h.2
      | unavailable => exact houtages h.2
  | listObjects =>
      obtain ⟨hsame, hanswer⟩ := h
      refine ⟨hsame, ?_⟩
      split at hanswer
      case isTrue hnone =>
        rw [if_pos hnone]
        exact houtages hanswer
      case isFalse hsome =>
        rw [if_neg hsome]
        exact hanswer

/-- What can happen where nothing fails can happen. -/
theorem faultyStep_of_soundStep {sha256 : B → D} {op : SpoolOp B} {w w' : SpoolWorld B}
    {reply : op.Reply B D} (h : soundStep sha256 op w w' reply) :
    faultyStep sha256 op w w' reply := by
  cases op with
  | files | exists' | pendingBytes | setBytes | uuid4 | rmdir => exact h
  | readBytes | stat => exact ⟨h.1, h.2.imp id fun hfails => ⟨hfails.1, trivial⟩⟩
  | put key body =>
      obtain ⟨result, store, hput, hrest⟩ := h
      exact ⟨result, store, hput.mono fun _ _ _ _ => s3Step_mono fun _ => trivial, hrest⟩
  | mkdir | syncTemporary | openDirectory | syncDirectory | closeDirectory | unlinkTemporary =>
      cases reply with
      | true => exact h
      | false => exact ⟨trivial, h.2⟩
  | openTemporary | replace | unlink =>
      cases reply with
      | true => exact h
      | false => exact ⟨h.1.imp id fun _ => trivial, h.2⟩
  | writeTemporary =>
      cases reply with
      | true => exact h
      | false => exact ⟨trivial, h.2⟩

namespace CaptureSpool

variable {sha256 : B → D} {maxBytes : Nat} {w : SpoolWorld B}

/-- Every end of a run in which nothing fails satisfies `Q`. -/
abbrev Soundly {α : Type} (sha256 : B → D) (Q : Except SpoolRaised α → SpoolWorld B → Prop)
    (program : SpoolProg B D α) (w : SpoolWorld B) : Prop :=
  Secures (soundStep sha256) (fun _ => True) Q program w

/-- A call that can only return. -/
theorem call_soundly {op : SpoolProg B D Bool} {Q : Except SpoolRaised Unit → SpoolWorld B → Prop}
    {P : SpoolWorld B → Prop}
    (hop : Soundly sha256 (fun result w' => result = .ok true ∧ P w') op w)
    (hreturned : ∀ w', P w' → Q (.ok ()) w') : Soundly sha256 Q (call op) w := by
  unfold call
  rw [Soundly, secures_bind]
  refine hop.imp (fun _ h => h) ?_
  intro result w' _ hanswered
  obtain ⟨rfl, hw'⟩ := hanswered
  exact ⟨trivial, hreturned w' hw'⟩

theorem unlink_soundly {path : SpoolPath} (h : w.files.lookup path ≠ none) :
    Soundly sha256 (fun result w' => result = .ok true ∧
      w' = { w with files := w.files.erase path }) (Prog.perform (SpoolOp.unlink path)) w := by
  refine ⟨trivial, fun w' answer hstep => ⟨trivial, ?_⟩⟩
  cases answer with
  | true => exact ⟨rfl, hstep.2⟩
  | false =>
      rcases hstep.1 with hnone | hfails
      · exact absurd hnone h
      · exact hfails.elim

/-- The temporary files go, and what is in its place stays. -/
theorem unlinkAll_soundly {paths : List SpoolPath} (hnodup : paths.Nodup)
    (hpresent : ∀ path ∈ paths, w.files.lookup path ≠ none)
    (htemporary : ∀ path ∈ paths, path.isTemporary = true) :
    Soundly sha256 (fun result w' => result = .ok () ∧ w.SameEvidence w' ∧
      w'.completeBytes = w.completeBytes ∧
      ∀ path, w'.files.lookup path = if path ∈ paths then none else w.files.lookup path)
      (unlinkAll paths) w := by
  induction paths generalizing w with
  | nil => exact ⟨trivial, rfl, ⟨rfl, fun _ _ => rfl⟩, rfl, fun path => by simp⟩
  | cons first rest ih =>
      obtain ⟨hfirst, hrest⟩ := List.nodup_cons.mp hnodup
      have htemp := htemporary first List.mem_cons_self
      unfold unlinkAll
      rw [Soundly, secures_bind]
      refine call_soundly (unlink_soundly (hpresent first List.mem_cons_self)) ?_
      intro w₁ hw₁
      subst hw₁
      rw [proceeds_ok]
      have hpresent' : ∀ path ∈ rest, (w.files.erase first).lookup path ≠ none := by
        intro path hpath
        have hne : path ≠ first := fun hsame => hfirst (hsame ▸ hpath)
        rw [AList.lookup_erase_ne hne]
        exact hpresent path (List.mem_cons_of_mem _ hpath)
      refine (ih hrest hpresent' fun path hpath =>
        htemporary path (List.mem_cons_of_mem _ hpath)).imp (fun _ h => h) ?_
      intro result w' _ hunlinked
      obtain ⟨hresult, hsame, hbytes, hlookup⟩ := hunlinked
      refine ⟨hresult, ⟨hsame.store, ?_⟩, ?_, ?_⟩
      · intro path hpath
        rw [hsame.files path hpath]
        apply AList.lookup_erase_ne
        rintro rfl
        rw [htemp] at hpath
        cases hpath
      · rw [hbytes]
        exact SpoolWorld.completeBytes_erase_temporary htemp
      · intro path
        rw [hlookup path]
        by_cases hmem : path ∈ rest
        · simp [hmem]
        · by_cases hpath : path = first
          · subst hpath
            rw [if_neg hmem, if_pos List.mem_cons_self, AList.lookup_erase]
          · simp [hmem, hpath, AList.lookup_erase_ne hpath]

theorem sumSizes_soundly {paths : List SpoolPath}
    (hpresent : ∀ path ∈ paths, w.files.lookup path ≠ none) :
    Soundly sha256 (fun result w' => w' = w ∧ result = .ok
      (paths.map fun path => (w.files.lookup path).elim 0 EvidenceBody.size).sum)
      (sumSizes paths) w := by
  induction paths with
  | nil => exact ⟨trivial, rfl, rfl⟩
  | cons path rest ih =>
      unfold sumSizes
      rw [Soundly, secures_bind]
      refine ⟨trivial, fun w' answer hstep => ⟨trivial, ?_⟩⟩
      obtain ⟨rfl, hanswer⟩ := hstep
      obtain ⟨body, hbody⟩ := Option.ne_none_iff_exists'.mp (hpresent path List.mem_cons_self)
      have hsize : answer = some (EvidenceBody.size body) := by
        rcases hanswer with hanswer | ⟨-, hfails⟩
        · rw [hanswer, hbody]
          rfl
        · exact hfails.elim
      subst hsize
      rw [proceeds_ok, secures_bind]
      refine (ih fun other hother => hpresent other (List.mem_cons_of_mem _ hother)).imp
        (fun _ h => h) ?_
      intro result w'' _ hsummed
      obtain ⟨rfl, rfl⟩ := hsummed
      refine ⟨trivial, rfl, ?_⟩
      rw [List.map_cons, List.sum_cons, hbody]
      rfl

/-- **A directory within the capacity can be opened**: its temporary files go, and what is in
its place stays. -/
theorem init_soundly (hfits : w.completeBytes ≤ maxBytes) :
    Soundly sha256 (fun result w' => result = .ok () ∧ w.SameEvidence w' ∧
      ∀ path, path.isTemporary = true → w'.files.lookup path = none) (init maxBytes) w := by
  unfold init entries
  rw [Soundly, secures_bind]
  refine ⟨trivial, fun w₁ paths hstep => ⟨trivial, ?_⟩⟩
  obtain ⟨rfl, hpaths⟩ := hstep
  have hlisted : ∀ path, path ∈ paths ↔ w₁.files.lookup path ≠ none := by
    intro path
    rw [hpaths.mem_iff, ← AList.mem_keys, ← AList.lookup_isSome, Option.isSome_iff_ne_none]
  have hnodup : paths.Nodup := hpaths.nodup_iff.mpr w₁.files.nodupKeys
  rw [proceeds_ok, secures_bind]
  refine (unlinkAll_soundly (hnodup.filter _) ?_ fun path hpath => (List.mem_filter.mp hpath).2).imp
    (fun _ h => h) ?_
  · intro path hpath
    exact (hlisted path).mp (List.mem_filter.mp hpath).1
  intro result w₂ _ hunlinked
  obtain ⟨rfl, hsame, hbytes, hlookup⟩ := hunlinked
  have hgone : ∀ path, path.isTemporary = true → w₂.files.lookup path = none := by
    intro path hpath
    rw [hlookup path]
    split
    case isTrue => rfl
    case isFalse hnot =>
      by_cases hmem : path ∈ paths
      · exact absurd (List.mem_filter.mpr ⟨hmem, hpath⟩) hnot
      · rw [hlisted path, not_not] at hmem
        exact hmem
  rw [proceeds_ok, secures_bind, secures_bind]
  refine ⟨trivial, fun w₃ found hstep => ⟨trivial, ?_⟩⟩
  obtain ⟨rfl, hfound⟩ := hstep
  refine ⟨trivial, ?_⟩
  rw [proceeds_ok, secures_bind]
  refine (sumSizes_soundly fun path hpath => ?_).imp (fun _ h => h) ?_
  · rw [mem_sortOn, hfound.mem_iff, ← AList.mem_keys, ← AList.lookup_isSome,
      Option.isSome_iff_ne_none] at hpath
    exact hpath
  intro result w₄ _ hsummed
  obtain ⟨rfl, rfl⟩ := hsummed
  have hsum : ((sortOn (fun path => toLex (path.name == "manifest.json", path.asPosix)) found).map
      fun path => (w₄.files.lookup path).elim 0 EvidenceBody.size).sum = w₁.completeBytes := by
    rw [← hbytes, SpoolWorld.completeBytes, Files.total_eq_sum_keys]
    refine ((((sortOn_perm _ found).trans hfound).map _).sum_eq).trans ?_
    refine congrArg List.sum (List.map_congr_left fun path hpath => ?_)
    rw [← AList.mem_keys, ← AList.lookup_isSome, Option.isSome_iff_ne_none] at hpath
    have hcomplete : path.isTemporary = false := by
      cases htemporary : path.isTemporary with
      | false => rfl
      | true => exact absurd (hgone path htemporary) hpath
    simp only [hcomplete, if_neg Bool.false_ne_true]
  rw [proceeds_ok, secures_bind]
  refine ⟨trivial, fun w₅ reply hstep => ⟨trivial, ?_⟩⟩
  obtain rfl := hstep
  rw [proceeds_ok, hsum, if_neg (not_lt.mpr hfits)]
  exact ⟨trivial, rfl, ⟨hsame.store, hsame.files⟩, hgone⟩

theorem rmdirs_soundly (parents : List String) :
    Soundly sha256 (fun result w' => result = .ok () ∧ w' = w) (rmdirs parents) w := by
  induction parents with
  | nil => exact ⟨trivial, rfl, rfl⟩
  | cons innermost outer ih =>
      unfold rmdirs
      rw [Soundly, secures_bind]
      refine ⟨trivial, fun w' answer hstep => ⟨trivial, ?_⟩⟩
      obtain rfl := hstep
      cases answer with
      | true => exact ih
      | false => exact ⟨trivial, rfl, rfl⟩

theorem remove_soundly {path : SpoolPath} {body : B} (h : w.files.lookup path ≠ none) :
    Soundly sha256 (fun result w' => result = .ok () ∧ w'.files = w.files.erase path ∧
      w'.store = w.store) (remove path body) w := by
  unfold remove
  rw [Soundly, secures_bind]
  refine call_soundly (unlink_soundly h) ?_
  intro w₁ hw₁
  subst hw₁
  rw [proceeds_ok, secures_bind]
  refine ⟨trivial, fun w₂ bytes hstep => ⟨trivial, ?_⟩⟩
  obtain ⟨rfl, rfl⟩ := hstep
  rw [proceeds_ok, secures_bind]
  refine ⟨trivial, fun w₃ reply hstep => ⟨trivial, ?_⟩⟩
  obtain rfl := hstep
  rw [proceeds_ok]
  refine (rmdirs_soundly _).imp (fun _ h => h) ?_
  intro result w' _ hremoved
  obtain ⟨hresult, rfl⟩ := hremoved
  exact ⟨hresult, rfl, rfl⟩

/-- A write of the content that a key has succeeds. -/
theorem put_soundly {store : Bucket String B} {key : String} {body : B}
    (hcontent : ∀ current, store.find key = some current → current = body)
    {result : Except Raised (String × D)} {store' : Bucket String B}
    (h : Returns (s3Step sha256 False) (S3CaptureStore.put sha256 key body) store result store') :
    result = .ok (key, sha256 body) := by
  have hsecures : Secures (s3Step sha256 False) (fun _ => True)
      (fun result _ => result = .ok (key, sha256 body)) (S3CaptureStore.put sha256 key body)
      store := by
    apply S3CaptureStore.put_secures trivial
    · exact fun _ => ⟨trivial, rfl, False.elim⟩
    · exact fun _ _ _ => rfl
    · intro current hcurrent hdiffers
      exact absurd (congrArg sha256 (hcontent current hcurrent)) hdiffers
    · exact False.elim
  exact hsecures.returns h

/-- **A drain in which nothing fails** empties a spool whose keys have one content each. -/
theorem drainFiles_soundly {content : EvidencePath → B} {deferUnavailable : Bool} {count : Nat}
    {paths : List SpoolPath} (hnamed : w.Named)
    (hsettled : w.outbox.Settled EvidencePath.Publishes content)
    (hsorted : paths.Pairwise fun path other => drainKey path ≤ drainKey other)
    (hnodup : paths.Nodup) (hlisted : ∀ path, path ∈ paths ↔ w.files.lookup path ≠ none)
    (hcomplete : ∀ path ∈ paths, path.isTemporary = false) :
    Soundly sha256 (fun result w' => (∃ published, result = .ok published) ∧
      ∀ path, w'.files.lookup path = none) (drainFiles sha256 deferUnavailable count paths) w := by
  induction paths generalizing count w with
  | nil =>
      refine ⟨trivial, ⟨count, rfl⟩, fun path => ?_⟩
      by_contra hpresent
      exact List.not_mem_nil ((hlisted path).mpr hpresent)
  | cons path rest ih =>
      have hpresent := (hlisted path).mp List.mem_cons_self
      obtain ⟨body, hbody⟩ := Option.ne_none_iff_exists'.mp hpresent
      have hevidence := (hnamed path hpresent).resolve_left
        (by rw [hcomplete path List.mem_cons_self]; exact Bool.false_ne_true)
      have hcontent : body = content ⟨path, hevidence⟩ := hsettled.pending ⟨path, hevidence⟩ body hbody
      have hpublished : published path.asPosix body = .ok body := by
        rw [hcontent]
        exact (hsettled.published ⟨path, hevidence⟩ _ hpresent).mpr rfl
      unfold drainFiles readBytes
      rw [Soundly, secures_bind, secures_bind]
      refine ⟨trivial, fun w₁ answer hstep => ⟨trivial, ?_⟩⟩
      obtain ⟨rfl, hanswer⟩ := hstep
      have hread : answer = some body := by
        rcases hanswer with hanswer | ⟨-, hfails⟩
        · rw [hanswer, hbody]
        · exact hfails.elim
      subst hread
      rw [proceeds_ok]
      refine ⟨trivial, ?_⟩
      rw [proceeds_ok, secures_bind, secures_lift, hpublished]
      refine ⟨trivial, ?_⟩
      rw [proceeds_ok, secures_bind]
      refine ⟨trivial, fun w₂ answer hstep => ⟨trivial, ?_⟩⟩
      obtain ⟨putResult, store, hput, rfl, rfl⟩ := hstep
      have hstored : ∀ current, w₁.store.find path.asPosix = some current → current = body := by
        intro current hcurrent
        rw [hcontent]
        exact hsettled.stored ⟨path, hevidence⟩ current hcurrent
      obtain rfl := put_soundly hstored hput
      -- the put and the removal are steps of the outbox, so that every key keeps its content
      have hlast : path.name = "manifest.json" → ∀ other, other.isTemporary = false →
          w₁.files.lookup other ≠ none → other.name = "manifest.json" := by
        intro hmanifest other _ hwaits
        rcases List.mem_cons.mp ((hlisted other).mpr hwaits) with rfl | hrest
        · exact hmanifest
        · exact manifest_of_drainKey_le hmanifest (List.rel_of_pairwise_cons hsorted hrest)
      have hself : w₁.Refines (fun _ _ => False) w₁ := ⟨hnamed, .refl⟩
      have hput' : w₁.Refines (fun _ _ => False) { w₁ with store := store } ∧
          store.find path.asPosix = some body := by
        obtain ⟨hstore, hdigest⟩ := put_cases hput
        rcases hstore with rfl | ⟨hfree, rfl⟩
        · obtain ⟨-, current, hcurrent, -⟩ := hdigest _ rfl
          exact ⟨hself, by rw [hcurrent, hstored current hcurrent]⟩
        · exact ⟨hself.publish hbody hpublished hfree hlast,
            by rw [Bucket.find_insert, if_pos rfl]⟩
      have hremoved := hput'.1.release hbody hput'.2
      rw [proceeds_ok]
      split
      case h_1 hanswer => cases hanswer
      case h_2 hanswer => cases hanswer
      case h_3 digest hanswer =>
      obtain rfl := Except.ok.inj hanswer
      rw [if_pos (rfl : sha256 body = sha256 body), secures_bind]
      have hremove : Soundly sha256 (fun result w' => result = .ok () ∧
          w'.files = w₁.files.erase path ∧ w'.store = store) (remove path body)
          { w₁ with store := store } := remove_soundly hpresent
      refine hremove.imp (fun _ h => h) ?_
      intro result w₃ _ hgone
      obtain ⟨rfl, hfiles, hstore⟩ := hgone
      rw [proceeds_ok]
      have houtbox : w₃.outbox =
          SpoolWorld.outbox { w₁ with files := w₁.files.erase path, store := store } := by
        unfold SpoolWorld.outbox
        rw [hfiles, hstore]
      have hnamed' : w₃.Named := by
        intro other hother
        rw [hfiles] at hother
        exact hremoved.named other hother
      refine ih hnamed' ?_ (List.Pairwise.of_cons hsorted) (List.nodup_cons.mp hnodup).2 ?_ ?_
      · rw [houtbox]
        exact hsettled.steps (fun _ _ hfalse => hfalse.elim) hremoved.steps
      · intro other
        rw [hfiles]
        by_cases hsame : other = path
        · subst hsame
          simp [(List.nodup_cons.mp hnodup).1, AList.lookup_erase]
        · rw [AList.lookup_erase_ne hsame, ← hlisted other, List.mem_cons]
          exact ⟨.inr, fun hmem => hmem.resolve_left hsame⟩
      · exact fun other hother => hcomplete other (List.mem_cons_of_mem _ hother)

/-- A process opens the directory and drains it. -/
def reopen (sha256 : B → D) (maxBytes : Nat) (deferUnavailable : Bool) : SpoolProg B D Nat := do
  init maxBytes
  drain sha256 deferUnavailable

theorem reopen_soundly {content : EvidencePath → B} {deferUnavailable : Bool} (hnamed : w.Named)
    (hsettled : w.outbox.Settled EvidencePath.Publishes content)
    (hfits : w.completeBytes ≤ maxBytes) :
    Soundly sha256 (fun result w' => (∃ published, result = .ok published) ∧
      ∀ path, w'.files.lookup path = none) (reopen sha256 maxBytes deferUnavailable) w := by
  unfold reopen drain entries
  rw [Soundly, secures_bind]
  refine (init_soundly hfits).imp (fun _ h => h) ?_
  intro result w₁ _ hopened
  obtain ⟨rfl, hsame, hgone⟩ := hopened
  rw [proceeds_ok, secures_bind, secures_bind]
  refine ⟨trivial, fun w₂ paths hstep => ⟨trivial, ?_⟩⟩
  obtain ⟨rfl, hpaths⟩ := hstep
  have hlisted : ∀ path, path ∈ sortOn drainKey paths ↔ w₂.files.lookup path ≠ none := by
    intro path
    rw [mem_sortOn, hpaths.mem_iff, ← AList.mem_keys, ← AList.lookup_isSome,
      Option.isSome_iff_ne_none]
  refine ⟨trivial, ?_⟩
  rw [proceeds_ok]
  refine drainFiles_soundly (hsame.named hnamed) (hsame.outbox_eq ▸ hsettled)
    (sortOn_pairwise _ _) ?_ hlisted ?_
  · exact ((sortOn_perm _ _).trans hpaths).nodup_iff.mpr w₂.files.nodupKeys
  · intro path hpath
    cases htemporary : path.isTemporary with
    | false => rfl
    | true => exact absurd (hgone path htemporary) ((hlisted path).mp hpath)

theorem reopen_refining (hdigest : Function.Injective sha256) {deferUnavailable : Bool}
    (hnamed : w.Named) :
    Refining sha256 Unrestricted w (fun _ => w.Refines Unrestricted)
      (reopen sha256 maxBytes deferUnavailable) w := by
  have hself : w.Refines Unrestricted w := ⟨hnamed, .refl⟩
  unfold reopen
  rw [Refining, secures_bind]
  refine (init_refining hself).imp (fun _ h => h) ?_
  intro result w' _ hw'
  cases result with
  | error error => exact hw'
  | ok => exact drain_refining hdigest hw'

end CaptureSpool

section

variable {sha256 : B → D} {maxBytes : Nat} {start w : SpoolWorld B}
  {events : List (SpoolEvent B V)}

end

end MiniLakehouse
