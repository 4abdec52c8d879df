import MiniLakehouse.Capture.Pending
import MiniLakehouse.Library.Outbox
import MiniLakehouse.Library.Splits

/-!
# Staged evidence

The files in their place and the objects of the store are an outbox (`SpoolWorld.outbox`)
whose committing keys are the manifests.  Whatever `_stage`, `drain` and `__init__` do is steps
of that outbox (`stage_refining`, `drain_refining`, `init_refining`), although every filesystem
call may raise, the process may be cut off at each of them, and the answer of a write to the
store may be lost.
-/

namespace MiniLakehouse

variable {B V D : Type} [EvidenceBody B V] [DecidableEq D]

/-! ## Paths of evidence -/

/-- The path of a key that the spool accepts. -/
abbrev EvidencePath := {path : SpoolPath // ∃ key, spoolPath key = .ok path}

theorem mem_posixParts {key part : String} (h : part ∈ posixParts key) : '/' ∉ part.toList ∧
    part ≠ "" ∧ part ≠ "." := by
  simp only [posixParts, List.mem_filter, List.mem_map, Bool.and_eq_true, bne_iff_ne] at h
  obtain ⟨⟨chars, hchars, rfl⟩, hempty, hpoint⟩ := h
  refine ⟨?_, hempty, hpoint⟩
  rw [String.toList_ofList]
  exact separator_not_mem_splitOn _ chars hchars

theorem asPosix_toList (path : SpoolPath) : path.asPosix.toList =
    ['/'].intercalate ((path.parents ++ [path.name]).map String.toList) := by
  obtain ⟨parents, name⟩ := path
  induction parents with
  | nil => simp [SpoolPath.asPosix]
  | cons part rest ih =>
      have hposix : (SpoolPath.mk (part :: rest) name).asPosix =
          part ++ "/" ++ (SpoolPath.mk rest name).asPosix := rfl
      have hne : (rest ++ [name]).map String.toList ≠ [] := by simp
      obtain ⟨first, others, hparts⟩ := List.exists_cons_of_ne_nil hne
      rw [hposix, String.toList_append, String.toList_append, ih]
      simp only [List.cons_append, List.map_cons, hparts, List.intercalate_cons_cons]
      simp

/-- What the key of a path is split into is the path. -/
theorem posixParts_asPosix {path : SpoolPath} {key : String} (h : spoolPath key = .ok path) :
    posixParts path.asPosix = path.parents ++ [path.name] := by
  have hparts : path.parents ++ [path.name] = posixParts key := by
    unfold spoolPath at h
    simp only at h
    split at h
    case h_1 => cases h
    case h_2 name hname =>
      split at h
      case isTrue => cases h
      case isFalse =>
        split at h
        case isFalse => cases h
        case isTrue =>
          obtain rfl := Except.ok.inj h
          exact List.dropLast_append_getLast? name hname
  have hnone : ∀ chars ∈ (path.parents ++ [path.name]).map String.toList, '/' ∉ chars := by
    intro chars hchars
    obtain ⟨part, hpart, rfl⟩ := List.mem_map.mp hchars
    rw [hparts] at hpart
    exact (mem_posixParts hpart).1
  rw [posixParts, asPosix_toList, List.splitOn_intercalate _ hnone (by simp), List.map_map]
  have hmap : (path.parents ++ [path.name]).map (String.ofList ∘ String.toList) =
      path.parents ++ [path.name] := by simp [Function.comp_def]
  rw [hmap, List.filter_eq_self]
  intro part hpart
  rw [hparts] at hpart
  obtain ⟨-, hempty, hpoint⟩ := mem_posixParts hpart
  simp [hempty, hpoint]

/-- The key of a path ends as the keys do that the spool accepts. -/
theorem getLast?_of_spoolPath {path : SpoolPath} {key : String} (h : spoolPath key = .ok path) :
    path.asPosix.toList.getLast? = some 'z' ∨ path.asPosix.toList.getLast? = some 'n' := by
  unfold spoolPath at h
  simp only at h
  split at h
  case h_1 => cases h
  case h_2 name hname =>
    split at h
    case isTrue => cases h
    case isFalse =>
      split at h
      case isFalse => cases h
      case isTrue haccepted =>
        obtain rfl := Except.ok.inj h
        have hposix := SpoolPath.asPosix_suffix ⟨(posixParts key).dropLast, name⟩
        have hlast := @posixParts_getLast? key.toList name.toList
        rw [String.ofList_toList, String.ofList_toList] at hlast
        simp only [isPayloadKey, Bool.or_eq_true, List.isSuffixOf_iff_suffix] at haccepted
        rcases haccepted with (hsuffix | hsuffix) | hsuffix
        · exact .inl (getLast?_of_suffix hposix
            (hlast hname hsuffix rfl (by decide) (by decide)))
        · exact .inl (getLast?_of_suffix hposix
            (hlast hname hsuffix rfl (by decide) (by decide)))
        · exact .inr (getLast?_of_suffix hposix
            (hlast hname hsuffix rfl (by decide) (by decide)))

namespace EvidencePath

theorem asPosix_inj {path other : EvidencePath} (h : path.1.asPosix = other.1.asPosix) :
    path = other := by
  obtain ⟨⟨parents, name⟩, key, hkey⟩ := path
  obtain ⟨⟨parents', name'⟩, key', hkey'⟩ := other
  have hparts := posixParts_asPosix hkey
  rw [h, posixParts_asPosix hkey'] at hparts
  obtain ⟨rfl, hname⟩ := List.append_inj' hparts rfl
  obtain rfl := List.singleton_inj.mp hname
  rfl

theorem not_temporary (path : EvidencePath) : path.1.isTemporary = false := by
  obtain ⟨path, key, hkey⟩ := path
  exact spoolPath_not_temporary hkey

/-- No temporary file has the key of a path of evidence. -/
theorem asPosix_ne (path : EvidencePath) {other : SpoolPath} (h : other.isTemporary = true) :
    path.1.asPosix ≠ other.asPosix := by
  intro hsame
  simp only [SpoolPath.isTemporary, Bool.and_eq_true, List.isSuffixOf_iff_suffix] at h
  have hlast : other.asPosix.toList.getLast? = some 'p' :=
    getLast?_of_suffix other.asPosix_suffix
      (getLast?_of_suffix (h.2.trans (List.tail_suffix _)) rfl)
  obtain ⟨path, key, hkey⟩ := path
  rw [← hsame] at hlast
  rcases getLast?_of_spoolPath hkey with hpath | hpath
  · rw [hpath] at hlast
    cases hlast
  · rw [hpath] at hlast
    cases hlast

/-- A manifest commits what was staged before it. -/
def Commits (path : EvidencePath) : Prop := path.1.name = "manifest.json"

/-- What `drain` puts of an object. -/
def Publishes (path : EvidencePath) (body putting : B) : Prop :=
  CaptureSpool.published path.1.asPosix body = .ok putting

end EvidencePath

/-! ## The outbox of a spool -/

namespace SpoolWorld

/-- The files in their place and the objects under their keys. -/
def outbox (w : SpoolWorld B) : Outbox EvidencePath B where
  pending path := w.files.lookup path.1
  stored path := w.store.find path.1.asPosix

/-- A directory of evidence: each file is in its place or a temporary one. -/
def Named (w : SpoolWorld B) : Prop :=
  ∀ path, w.files.lookup path ≠ none → path.isTemporary = true ∨ ∃ key, spoolPath key = .ok path

/-- What happened since the start is steps of the outbox. -/
structure Refines (stages : EvidencePath → B → Prop) (start w : SpoolWorld B) : Prop where
  named : w.Named
  steps : Outbox.Steps stages EvidencePath.Publishes EvidencePath.Commits start.outbox w.outbox

/-- Nothing is in its place that was not, and nothing is gone; the store is as it was. -/
structure SameEvidence (w w' : SpoolWorld B) : Prop where
  store : w'.store = w.store
  files : ∀ path, path.isTemporary = false → w'.files.lookup path = w.files.lookup path

variable {stages : EvidencePath → B → Prop} {start w w' : SpoolWorld B}

omit [EvidenceBody B V] [DecidableEq D] in
theorem SameEvidence.outbox_eq (h : w.SameEvidence w') : w'.outbox = w.outbox := by
  unfold outbox
  rw [h.store]
  congr 1
  funext path
  exact h.files path.1 path.not_temporary

omit [EvidenceBody B V] [DecidableEq D] in
theorem SameEvidence.named (h : w.SameEvidence w') (hnamed : w.Named) : w'.Named := by
  intro path hpath
  cases htemporary : path.isTemporary with
  | true => exact .inl rfl
  | false =>
      rw [h.files path htemporary] at hpath
      exact .inr ((hnamed path hpath).resolve_left (by rw [htemporary]; exact Bool.false_ne_true))

theorem Refines.same (h : Refines stages start w) (hsame : w.SameEvidence w') :
    Refines stages start w' :=
  ⟨hsame.named h.named, hsame.outbox_eq ▸ h.steps⟩

/-- A file is put in its place. -/
theorem Refines.stage (h : Refines stages start w) {path : EvidencePath} {body : B}
    (hstages : stages path body) (hnew : w.files.lookup path.1 = none)
    (hstore : w'.store = w.store) (hself : w'.files.lookup path.1 = some body)
    (hothers : ∀ other, other.isTemporary = false → other ≠ path.1 →
      w'.files.lookup other = w.files.lookup other) : Refines stages start w' := by
  have houtbox : w'.outbox = { w.outbox with
      pending := Function.update w.outbox.pending path (some body) } := by
    unfold outbox
    rw [hstore]
    congr 1
    funext other
    by_cases hsame : other = path
    · rw [hsame, hself, Function.update_self]
    · rw [Function.update_of_ne hsame]
      exact hothers other.1 other.not_temporary fun heq => hsame (Subtype.ext heq)
  refine ⟨?_, h.steps.tail (houtbox ▸ .stage hstages hnew)⟩
  intro other hother
  cases htemporary : other.isTemporary with
  | true => exact .inl rfl
  | false =>
      by_cases hsame : other = path.1
      · exact .inr (hsame ▸ path.2)
      · rw [hothers other htemporary hsame] at hother
        exact .inr ((h.named other hother).resolve_left
          (by rw [htemporary]; exact Bool.false_ne_true))

/-- An object is put in the store, from a file in its place or a temporary one. -/
theorem Refines.publish (h : Refines stages start w) {path : SpoolPath} {body putting : B}
    (hbody : w.files.lookup path = some body)
    (hpublished : CaptureSpool.published path.asPosix body = .ok putting)
    (hfree : w.store.find path.asPosix = none)
    (hlast : path.name = "manifest.json" → ∀ other, other.isTemporary = false →
      w.files.lookup other ≠ none → other.name = "manifest.json") :
    Refines stages start { w with store := w.store.insert path.asPosix putting hfree } := by
  refine ⟨h.named, ?_⟩
  rcases h.named path (by rw [hbody]; exact Option.some_ne_none _) with htemporary | hpath
  · -- no path of evidence has the key of a temporary file
    have houtbox : outbox { w with store := w.store.insert path.asPosix putting hfree } =
        w.outbox := by
      unfold outbox
      congr 1
      funext other
      rw [Bucket.find_insert, if_neg (other.asPosix_ne htemporary)]
    rw [houtbox]
    exact h.steps
  · have houtbox : outbox { w with store := w.store.insert path.asPosix putting hfree } =
        { w.outbox with
          stored := Function.update w.outbox.stored ⟨path, hpath⟩ (some putting) } := by
      unfold outbox
      congr 1
      funext other
      by_cases hsame : other = ⟨path, hpath⟩
      · subst hsame
        rw [Bucket.find_insert, if_pos rfl, Function.update_self]
      · rw [Function.update_of_ne hsame, Bucket.find_insert,
          if_neg fun heq => hsame (EvidencePath.asPosix_inj heq)]
    rw [houtbox]
    refine h.steps.tail (.publish hbody hpublished hfree ?_)
    intro hcommits other hother
    exact hlast hcommits other.1 other.not_temporary hother

/-- A file leaves its place whose object is stored. -/
theorem Refines.release (h : Refines stages start w) {path : SpoolPath} {body : B}
    (hbody : w.files.lookup path = some body)
    (hstored : w.store.find path.asPosix = some body) :
    Refines stages start { w with files := w.files.erase path } := by
  have hnamed : Named { w with files := w.files.erase path } := by
    intro other hother
    by_cases hsame : other = path
    · rw [hsame, AList.lookup_erase] at hother
      exact absurd rfl hother
    · rw [AList.lookup_erase_ne hsame] at hother
      exact h.named other hother
  refine ⟨hnamed, ?_⟩
  rcases h.named path (by rw [hbody]; exact Option.some_ne_none _) with htemporary | hpath
  · have hsame : w.SameEvidence { w with files := w.files.erase path } := by
      refine ⟨rfl, fun other hother => AList.lookup_erase_ne ?_⟩
      rintro rfl
      rw [htemporary] at hother
      cases hother
    exact hsame.outbox_eq ▸ h.steps
  · have houtbox : outbox { w with files := w.files.erase path } =
        { w.outbox with pending := Function.update w.outbox.pending ⟨path, hpath⟩ none } := by
      unfold outbox
      congr 1
      funext other
      by_cases hsame : other = ⟨path, hpath⟩
      · subst hsame
        rw [AList.lookup_erase, Function.update_self]
      · rw [Function.update_of_ne hsame]
        exact AList.lookup_erase_ne fun heq => hsame (Subtype.ext heq)
    rw [houtbox]
    exact h.steps.tail (Outbox.Step.release hbody hstored)

end SpoolWorld

/-! ## Calls -/

/-- Any filesystem call may raise, and the store may be out of reach. -/
abbrev faultyStep (sha256 : B → D) :
    (op : SpoolOp B) → SpoolWorld B → SpoolWorld B → op.Reply B D → Prop :=
  spoolStep sha256 True fun _ _ => True

/-- A call that leaves the files in their place and the store alone. -/
def Idle : SpoolOp B → Prop
  | .replace _ _ | .unlink _ | .put _ _ => False
  | _ => True

omit [EvidenceBody B V] in
theorem idle_openTemporary (target : SpoolPath) (hex : String) :
    Idle (SpoolOp.openTemporary target hex : SpoolOp B) := trivial

omit [EvidenceBody B V] in
theorem idle_unlinkTemporary (target : SpoolPath) (hex : String) :
    Idle (SpoolOp.unlinkTemporary target hex : SpoolOp B) := trivial

section

variable {sha256 : B → D} {outages : Prop} {fails : SpoolOp B → SpoolWorld B → Prop}
  {w w' : SpoolWorld B}

theorem lookup_insert_temporary {files : Files SpoolPath B} {target path : SpoolPath}
    {hex : String} {body : B} (h : path.isTemporary = false) :
    (files.insert (target.temporary hex) body).lookup path = files.lookup path := by
  apply AList.lookup_insert_ne
  intro hsame
  rw [hsame, target.temporary_isTemporary hex] at h
  cases h

theorem lookup_erase_temporary {files : Files SpoolPath B} {target path : SpoolPath}
    {hex : String} (h : path.isTemporary = false) :
    (files.erase (target.temporary hex)).lookup path = files.lookup path := by
  apply AList.lookup_erase_ne
  intro hsame
  rw [hsame, target.temporary_isTemporary hex] at h
  cases h

theorem Idle.sameEvidence {op : SpoolOp B} {reply : op.Reply B D} (hidle : Idle op)
    (h : spoolStep sha256 outages fails op w w' reply) : w.SameEvidence w' := by
  have hrefl : w.SameEvidence w := ⟨rfl, fun _ _ => rfl⟩
  cases op with
  | replace | unlink | put => cases hidle
  | files | exists' | readBytes | stat | pendingBytes =>
      obtain ⟨rfl, -⟩ := h
      exact hrefl
  | setBytes =>
      obtain rfl := h
      exact ⟨rfl, fun _ _ => rfl⟩
  | uuid4 | rmdir =>
      obtain rfl := h
      exact hrefl
  | mkdir | syncTemporary | openDirectory | syncDirectory | closeDirectory =>
      cases reply with
      | true =>
          obtain rfl := h
          exact hrefl
      | false =>
          obtain ⟨-, rfl⟩ := h
          exact hrefl
  | openTemporary target hex =>
      cases reply with
      | true =>
          obtain ⟨-, rfl⟩ := h
          exact ⟨rfl, fun _ => lookup_insert_temporary⟩
      | false =>
          obtain ⟨-, rfl⟩ := h
          exact hrefl
  | writeTemporary target hex body =>
      cases reply with
      | true =>
          obtain rfl := h
          exact ⟨rfl, fun _ => lookup_insert_temporary⟩
      | false =>
          obtain ⟨-, part, rfl⟩ := h
          exact ⟨rfl, fun _ => lookup_insert_temporary⟩
  | unlinkTemporary target hex =>
      cases reply with
      | true =>
          obtain rfl := h
          exact ⟨rfl, fun _ => lookup_erase_temporary⟩
      | false =>
          obtain ⟨-, rfl⟩ := h
          exact hrefl

/-- A write creates its object or finds it there, with the digest that it answers. -/
theorem put_cases {store store' : Bucket String B} {key : String} {body : B}
    {result : Except Raised (String × D)}
    (h : Returns (s3Step sha256 outages) (S3CaptureStore.put sha256 key body) store result store') :
    (store' = store ∨ ∃ hfree, store' = store.insert key body hfree) ∧
    (∀ digest, result.map Prod.snd = .ok digest → digest = sha256 body ∧
      ∃ current, store'.find key = some current ∧ sha256 current = sha256 body) := by
  have hsecures : Secures (s3Step sha256 outages) (fun _ => True)
      (fun result store' => (store' = store ∨ ∃ hfree, store' = store.insert key body hfree) ∧
        ∀ digest, result.map Prod.snd = .ok digest → digest = sha256 body ∧
          ∃ current, store'.find key = some current ∧ sha256 current = sha256 body)
      (S3CaptureStore.put sha256 key body) store := by
    apply S3CaptureStore.put_secures trivial
    · intro hfree
      refine ⟨trivial, ⟨.inr ⟨hfree, rfl⟩, ?_⟩, ?_⟩
      · intro digest hdigest
        exact ⟨(Except.ok.inj hdigest).symm, body, by rw [Bucket.find_insert, if_pos rfl], rfl⟩
      · exact fun _ => ⟨.inr ⟨hfree, rfl⟩, fun digest hdigest => by cases hdigest⟩
    · intro current hcurrent hsame
      refine ⟨.inl rfl, fun digest hdigest => ?_⟩
      exact ⟨(Except.ok.inj hdigest).symm, current, hcurrent, hsame⟩
    · exact fun _ _ _ => ⟨.inl rfl, fun digest hdigest => by cases hdigest⟩
    · exact fun _ => ⟨.inl rfl, fun digest hdigest => by cases hdigest⟩
  exact hsecures.returns h

end

namespace CaptureSpool

variable {sha256 : B → D} {maxBytes : Nat} {stages : EvidencePath → B → Prop}
  {start w : SpoolWorld B}

/-- Nothing but steps of the outbox on the way, and `Q` in the end. -/
abbrev Refining {α : Type} (sha256 : B → D) (stages : EvidencePath → B → Prop)
    (start : SpoolWorld B) (Q : Except SpoolRaised α → SpoolWorld B → Prop)
    (program : SpoolProg B D α) (w : SpoolWorld B) : Prop :=
  Secures (faultyStep sha256) (SpoolWorld.Refines stages start) Q program w

theorem Idle.refining {α : Type} {program : SpoolProg B D α} (h : program.Calls Idle)
    (hw : start.Refines stages w) :
    Refining sha256 stages start (fun _ => start.Refines stages) program w :=
  h.secures (fun _ _ _ _ hidle hkept hstep => hkept.same (hidle.sameEvidence hstep)) hw

/-- One operation without effect on what is in its place: what its reply says holds. -/
theorem Idle.perform {op : SpoolOp B} (hidle : Idle op) (hw : start.Refines stages w) :
    Refining sha256 stages start (fun result w' => ∃ reply, result = .ok reply ∧
      start.Refines stages w' ∧ faultyStep sha256 op w w' reply) (Prog.perform op) w := by
  refine ⟨hw, fun w' reply hstep => ?_⟩
  have hkept := hw.same (hidle.sameEvidence hstep)
  exact ⟨hkept, reply, rfl, hkept, hstep⟩

/-- A call returns, or it raises `OSError`. -/
theorem call_refining {op : SpoolProg B D Bool} {Q : Except SpoolRaised Unit → SpoolWorld B → Prop}
    {P : Bool → SpoolWorld B → Prop}
    (hop : Refining sha256 stages start (fun result w' => ∃ answer, result = .ok answer ∧
      start.Refines stages w' ∧ P answer w') op w)
    (hreturned : ∀ w', start.Refines stages w' → P true w' → Q (.ok ()) w')
    (hraised : ∀ w', start.Refines stages w' → P false w' → Q (.error .osError) w') :
    Refining sha256 stages start Q (call op) w := by
  unfold call
  rw [Refining, secures_bind]
  refine hop.imp (fun _ h => h) ?_
  intro result w' _ hanswered
  obtain ⟨answer, rfl, hw', hanswer⟩ := hanswered
  cases answer with
  | true => exact ⟨hw', hreturned w' hw' hanswer⟩
  | false => exact ⟨hw', hraised w' hw' hanswer⟩

/-! ### Staging -/

omit [DecidableEq D] in
theorem idle_call {op : SpoolProg B D Bool} (h : op.Calls Idle) : (call op).Calls Idle := by
  refine h.bind fun answer => ?_
  cases answer with
  | true => exact .pure ()
  | false => exact .throw _

omit [DecidableEq D] in
theorem syncParent_idle (target : SpoolPath) :
    (syncParent target : SpoolProg B D Unit).Calls Idle := by
  refine (idle_call (.perform (by trivial))).bind fun _ => ?_
  refine (idle_call (.perform (by trivial))).attempt.bind fun synced => ?_
  exact (idle_call (.perform (by trivial))).bind fun _ => .lift synced

/-- A file that is put in its place is in it with its bytes. -/
theorem place_refining {path : EvidencePath} {hex : String} {body : B}
    (hw : start.Refines stages w) (hstages : stages path body)
    (hnone : w.files.lookup path.1 = none) :
    Refining sha256 stages start (fun result w' => start.Refines stages w' ∧
      (result = .ok () → w'.files.lookup path.1 = some body)) (place path.1 hex body) w := by
  have hpath := path.not_temporary
  unfold place
  rw [Refining, secures_bind]
  refine call_refining (Idle.perform (by trivial) hw) ?_ fun w' hw' _ => ⟨hw', by simp⟩
  intro w₁ hw₁ hopened
  have hnone₁ : w₁.files.lookup path.1 = none :=
    ((idle_openTemporary path.1 hex).sameEvidence hopened).files _ hpath |>.trans hnone
  rw [proceeds_ok, secures_bind]
  refine call_refining (Idle.perform (by trivial) hw₁) ?_ fun w' hw' _ => ⟨hw', by simp⟩
  intro w₂ hw₂ hwritten
  obtain rfl : w₂ = { w₁ with files := w₁.files.insert (path.1.temporary hex) body } := hwritten
  rw [proceeds_ok, secures_bind]
  refine call_refining (Idle.perform (by trivial) hw₂) ?_ fun w' hw' _ => ⟨hw', by simp⟩
  intro w₃ hw₃ hsynced
  obtain rfl : w₃ = _ := hsynced
  rw [proceeds_ok, secures_bind]
  have hreplace : Refining sha256 stages start (fun result w' => ∃ answer, result = .ok answer ∧
      start.Refines stages w' ∧ (answer = true → w'.files.lookup path.1 = some body))
      (Prog.perform (SpoolOp.replace path.1 hex))
      { w₁ with files := w₁.files.insert (path.1.temporary hex) body } := by
    refine ⟨hw₃, fun w' answer hstep => ?_⟩
    cases answer with
    | false =>
        obtain ⟨-, rfl⟩ := hstep
        exact ⟨hw₃, false, rfl, hw₃, by simp⟩
    | true =>
        obtain ⟨found, hfound, rfl⟩ := hstep
        obtain rfl : body = found := by simpa using hfound
        have hothers : ∀ other : SpoolPath, other.isTemporary = false → other ≠ path.1 →
            (((w₁.files.insert (path.1.temporary hex) body).erase
              (path.1.temporary hex)).insert path.1 body).lookup other = w₁.files.lookup other := by
          intro other hother hne
          rw [AList.lookup_insert_ne hne, lookup_erase_temporary hother,
            lookup_insert_temporary hother]
        refine (fun hplaced => ⟨hplaced, true, rfl, hplaced, fun _ => AList.lookup_insert _⟩)
          (SpoolWorld.Refines.stage hw₁ hstages hnone₁ ?_ ?_ hothers)
        · rfl
        · exact AList.lookup_insert _
  refine call_refining hreplace ?_ fun w' hw' _ => ⟨hw', by simp⟩
  intro w₄ hw₄ hplaced
  rw [proceeds_ok]
  refine Secures.imp (C := fun w' => start.Refines stages w' ∧ w'.files.lookup path.1 = some body)
    (Q := fun _ w' => start.Refines stages w' ∧ w'.files.lookup path.1 = some body)
    ((syncParent_idle path.1).secures ?_ ⟨hw₄, hplaced rfl⟩) (fun _ h => h.1)
    fun _ _ _ h => ⟨h.1, fun _ => h.2⟩
  intro op w w' reply hidle h hstep
  have hsame := hidle.sameEvidence hstep
  exact ⟨h.1.same hsame, (hsame.files _ hpath).trans h.2⟩

theorem stageNew_refining {path : EvidencePath} {body : B} (hw : start.Refines stages w)
    (hstages : stages path body) (hnone : w.files.lookup path.1 = none) :
    Refining sha256 stages start (fun result w' => start.Refines stages w' ∧
      ∀ digest, result = .ok digest → w'.files.lookup path.1 = some body)
      (stageNew sha256 maxBytes path.1 body) w := by
  have hpath := path.not_temporary
  unfold stageNew
  rw [Refining, secures_bind]
  refine (Idle.perform (by trivial) hw).imp (fun _ h => h) ?_
  intro result w' _ hpending
  obtain ⟨pending, rfl, hw', rfl, -⟩ := hpending
  rw [proceeds_ok]
  split
  case isTrue => exact ⟨hw', hw', by simp⟩
  case isFalse =>
    rw [secures_bind]
    refine call_refining (Idle.perform (by trivial) hw') ?_ fun w₁ hw₁ _ => ⟨hw₁, by simp⟩
    intro w₁ hw₁ hmade
    obtain rfl : w₁ = w' := hmade
    rw [proceeds_ok, secures_bind]
    refine (Idle.perform (by trivial) hw₁).imp (fun _ h => h) ?_
    intro result w₂ _ hnamed
    obtain ⟨hex, rfl, hw₂, rfl⟩ := hnamed
    rw [proceeds_ok, secures_bind, secures_attempt]
    refine (place_refining hw₂ hstages hnone).imp (fun _ h => h) ?_
    intro placed w₃ _ hplaced
    rw [proceeds_ok, secures_bind]
    refine call_refining (Idle.perform (by trivial) hplaced.1) ?_ fun w₄ hw₄ _ => ⟨hw₄, by simp⟩
    intro w₄ hw₄ hunlinked
    have hfile : w₄.files.lookup path.1 = w₃.files.lookup path.1 :=
      ((idle_unlinkTemporary path.1 hex).sameEvidence hunlinked).files _ hpath
    rw [proceeds_ok, secures_bind, secures_lift]
    refine ⟨hw₄, ?_⟩
    cases placed with
    | error error => exact ⟨hw₄, by simp⟩
    | ok =>
        rw [proceeds_ok]
        -- only the counter changes from here on
        refine Secures.imp (C := fun w' => start.Refines stages w' ∧ w'.files.lookup path.1 = some body)
          (Q := fun _ w' => start.Refines stages w' ∧ w'.files.lookup path.1 = some body)
          (Prog.Calls.secures (P := Idle) ?_ ?_ ⟨hw₄, hfile.trans (hplaced.2 rfl)⟩) (fun _ h => h.1)
          fun _ _ _ h => ⟨h.1, fun _ _ => h.2⟩
        · exact (Prog.Calls.perform (by trivial)).bind fun bytes =>
            (Prog.Calls.perform (by trivial)).bind fun _ => .pure _
        · intro op w w' reply hidle h hstep
          have hsame := hidle.sameEvidence hstep
          exact ⟨h.1.same hsame, (hsame.files _ hpath).trans h.2⟩

theorem readBytes_refining {path : SpoolPath} {Q : Except SpoolRaised B → SpoolWorld B → Prop}
    (hw : start.Refines stages w) (hfound : ∀ body, w.files.lookup path = some body → Q (.ok body) w)
    (hraised : Q (.error .osError) w) : Refining sha256 stages start Q (readBytes path) w := by
  unfold readBytes
  rw [Refining, secures_bind]
  refine (Idle.perform (by trivial) hw).imp (fun _ h => h) ?_
  intro result w' _ hread
  obtain ⟨answer, rfl, hw', rfl, hanswer⟩ := hread
  rw [proceeds_ok]
  cases answer with
  | none => exact ⟨hw', hraised⟩
  | some body =>
      rcases hanswer with hlookup | ⟨hnone, -⟩
      · exact ⟨hw', hfound body hlookup.symm⟩
      · cases hnone

/-- **`_stage`**: where it returns, the file of the key is in its place with the bytes. -/
theorem stage_refining (hdigest : Function.Injective sha256) {key : String} {body : B}
    (hw : start.Refines stages w)
    (hstages : ∀ path : EvidencePath, spoolPath key = .ok path.1 → stages path body) :
    Refining sha256 stages start (fun result w' => start.Refines stages w' ∧
      ∀ digest, result = .ok digest →
        ∃ path, spoolPath key = .ok path ∧ w'.files.lookup path = some body)
      (stage sha256 maxBytes key body) w := by
  unfold stage
  rw [Refining, secures_bind, secures_lift]
  refine ⟨hw, ?_⟩
  cases hpath : spoolPath key with
  | error error => exact ⟨hw, by simp⟩
  | ok target =>
      rw [proceeds_ok, secures_bind]
      refine (Idle.perform (by trivial) hw).imp (fun _ h => h) ?_
      intro result w' _ hexists
      obtain ⟨answer, rfl, hw', rfl, rfl⟩ := hexists
      rw [proceeds_ok]
      cases hfound : w'.files.lookup target with
      | none =>
          refine (stageNew_refining hw' (hstages ⟨target, key, hpath⟩ hpath) hfound).imp
            (fun _ h => h) ?_
          intro result w₁ _ hstaged
          exact ⟨hstaged.1, fun digest hresult => ⟨target, rfl, hstaged.2 digest hresult⟩⟩
      | some found =>
          rw [Option.isSome_some, if_pos rfl, secures_bind]
          refine readBytes_refining hw' ?_ ⟨hw', by simp⟩
          intro current hcurrent
          rw [proceeds_ok]
          split
          case isTrue hsame =>
            obtain rfl := hdigest hsame
            exact ⟨hw', hw', fun _ _ => ⟨target, rfl, hcurrent⟩⟩
          case isFalse => exact ⟨hw', hw', by simp⟩

/-! ### Draining -/

omit [DecidableEq D] in
theorem rmdirs_idle (parents : List String) : (rmdirs parents : SpoolProg B D Unit).Calls Idle := by
  induction parents with
  | nil => exact .pure ()
  | cons innermost outer ih =>
      refine (Prog.Calls.perform (by trivial)).bind fun answer => ?_
      cases answer with
      | true => exact ih
      | false => exact .pure ()

/-- The order in which `drain` publishes. -/
def drainKey (path : SpoolPath) : Bool ×ₗ String :=
  toLex (path.name == "manifest.json", path.asPosix)

/-- In the order of `drain` only manifests come after a manifest. -/
theorem manifest_of_drainKey_le {path other : SpoolPath} (hpath : path.name = "manifest.json")
    (h : drainKey path ≤ drainKey other) : other.name = "manifest.json" := by
  have hle := (Prod.Lex.le_iff.mp h)
  by_cases hother : other.name = "manifest.json"
  · exact hother
  · have hfalse : (other.name == "manifest.json") = false := beq_eq_false_iff_ne.mpr hother
    simp only [drainKey, hpath, hfalse, ofLex_toLex, beq_self_eq_true] at hle
    rcases hle with hlt | ⟨heq, -⟩
    · exact absurd hlt (by decide)
    · cases heq

theorem remove_refining {path : SpoolPath} {body : B} (hw : start.Refines stages w)
    (hbody : w.files.lookup path = some body)
    (hstored : w.store.find path.asPosix = some body) :
    Refining sha256 stages start (fun result w' => start.Refines stages w' ∧
      (result = .ok () → ∀ other, other.isTemporary = false →
        w'.files.lookup other = (w.files.erase path).lookup other)) (remove path body) w := by
  unfold remove
  rw [Refining, secures_bind]
  have hunlink : Refining sha256 stages start (fun result w' => ∃ answer, result = .ok answer ∧
      start.Refines stages w' ∧ (answer = true → w' = { w with files := w.files.erase path }))
      (Prog.perform (SpoolOp.unlink path)) w := by
    refine ⟨hw, fun w' answer hstep => ?_⟩
    cases answer with
    | false =>
        obtain ⟨-, rfl⟩ := hstep
        exact ⟨hw, false, rfl, hw, by simp⟩
    | true =>
        obtain ⟨-, rfl⟩ := hstep
        have hreleased := hw.release hbody hstored
        exact ⟨hreleased, true, rfl, hreleased, fun _ => rfl⟩
  refine call_refining hunlink ?_ fun w' hw' _ => ⟨hw', by simp⟩
  intro w₁ hw₁ hremoved
  obtain rfl := hremoved rfl
  rw [proceeds_ok]
  refine Secures.imp
    (C := fun w' => start.Refines stages w' ∧ ∀ other, other.isTemporary = false →
      w'.files.lookup other = (w.files.erase path).lookup other)
    (Q := fun _ w' => start.Refines stages w' ∧ ∀ other, other.isTemporary = false →
      w'.files.lookup other = (w.files.erase path).lookup other)
    (Prog.Calls.secures (P := Idle) ?_ ?_ ⟨hw₁, fun _ _ => rfl⟩) (fun _ h => h.1)
    fun _ _ _ h => ⟨h.1, fun _ => h.2⟩
  · exact (Prog.Calls.perform (by trivial)).bind fun bytes =>
      (Prog.Calls.perform (by trivial)).bind fun _ => rmdirs_idle _
  · intro op w w' reply hidle h hstep
    have hsame := hidle.sameEvidence hstep
    exact ⟨h.1.same hsame, fun other hother => (hsame.files _ hother).trans (h.2 other hother)⟩

/-- **`drain`**: what is still to come holds every file in its place, so that only manifests
wait where a manifest is published. -/
theorem drainFiles_refining (hdigest : Function.Injective sha256) {deferUnavailable : Bool}
    {count : Nat} {paths : List SpoolPath} (hw : start.Refines stages w)
    (hsorted : paths.Pairwise fun path other => drainKey path ≤ drainKey other)
    (hcovers : ∀ path, path.isTemporary = false → w.files.lookup path ≠ none → path ∈ paths) :
    Refining sha256 stages start (fun _ => start.Refines stages)
      (drainFiles sha256 deferUnavailable count paths) w := by
  induction paths generalizing count w with
  | nil => exact ⟨hw, hw⟩
  | cons path rest ih =>
      unfold drainFiles
      rw [Refining, secures_bind]
      refine readBytes_refining hw ?_ hw
      intro body hbody
      rw [proceeds_ok, secures_bind, secures_lift]
      refine ⟨hw, ?_⟩
      cases hpublished : published path.asPosix body with
      | error error => exact hw
      | ok putting =>
          have hlast : path.name = "manifest.json" → ∀ other, other.isTemporary = false →
              w.files.lookup other ≠ none → other.name = "manifest.json" := by
            intro hmanifest other hother hwaits
            rcases List.mem_cons.mp (hcovers other hother hwaits) with rfl | hrest
            · exact hmanifest
            · exact manifest_of_drainKey_le hmanifest (List.rel_of_pairwise_cons hsorted hrest)
          rw [proceeds_ok, secures_bind]
          refine ⟨hw, fun w' answer hstep => ?_⟩
          obtain ⟨putResult, store, hput, rfl, rfl⟩ := hstep
          obtain ⟨hstore, hstored⟩ := put_cases hput
          have hkept : start.Refines stages { w with store := store } := by
            rcases hstore with rfl | ⟨hfree, rfl⟩
            · exact hw
            · exact hw.publish hbody hpublished hfree hlast
          refine ⟨hkept, ?_⟩
          rw [proceeds_ok]
          split
          case h_1 =>
            split
            · exact ⟨hkept, hkept⟩
            · exact ⟨hkept, hkept⟩
          case h_2 => exact ⟨hkept, hkept⟩
          case h_3 digest hanswer =>
            split
            case isFalse => exact ⟨hkept, hkept⟩
            case isTrue hsame =>
              obtain ⟨rfl, current, hcurrent, hcurrentDigest⟩ := hstored digest hanswer
              obtain rfl := hdigest hcurrentDigest
              obtain rfl := hdigest hsame
              rw [secures_bind]
              refine (remove_refining hkept hbody hcurrent).imp (fun _ h => h) ?_
              intro result w'' _ hremoved
              cases result with
              | error error => exact hremoved.1
              | ok =>
                  rw [proceeds_ok]
                  refine ih hremoved.1 (List.Pairwise.of_cons hsorted) ?_
                  intro other hother hwaits
                  rw [hremoved.2 rfl other hother] at hwaits
                  by_cases hpath : other = path
                  · rw [hpath, AList.lookup_erase] at hwaits
                    exact absurd rfl hwaits
                  · rw [AList.lookup_erase_ne hpath] at hwaits
                    exact (List.mem_cons.mp (hcovers other hother hwaits)).resolve_left hpath

theorem drain_refining (hdigest : Function.Injective sha256) {deferUnavailable : Bool}
    (hw : start.Refines stages w) :
    Refining sha256 stages start (fun _ => start.Refines stages) (drain sha256 deferUnavailable)
      w := by
  unfold drain entries
  rw [Refining, secures_bind, secures_bind]
  refine (Idle.perform (by trivial) hw).imp (fun _ h => h) ?_
  intro result w' _ hlisted
  obtain ⟨paths, rfl, hw', rfl, hpaths⟩ := hlisted
  refine ⟨hw', ?_⟩
  refine drainFiles_refining hdigest hw' (sortOn_pairwise _ _) ?_
  intro path _ hwaits
  rw [mem_sortOn, hpaths.mem_iff, ← AList.mem_keys, ← AList.lookup_isSome, Option.isSome_iff_ne_none]
  exact hwaits

/-! ### Opening -/

theorem unlinkAll_refining {paths : List SpoolPath} (hw : start.Refines stages w)
    (htemporary : ∀ path ∈ paths, path.isTemporary = true) :
    Refining sha256 stages start (fun _ => start.Refines stages) (unlinkAll paths) w := by
  induction paths generalizing w with
  | nil => exact ⟨hw, hw⟩
  | cons path rest ih =>
      unfold unlinkAll
      rw [Refining, secures_bind]
      have hunlink : Refining sha256 stages start (fun result w' => ∃ answer, result = .ok answer ∧
          start.Refines stages w' ∧ True) (Prog.perform (SpoolOp.unlink path)) w := by
        refine ⟨hw, fun w' answer hstep => ?_⟩
        have hkept : start.Refines stages w' := by
          cases answer with
          | false =>
              obtain ⟨-, rfl⟩ := hstep
              exact hw
          | true =>
              obtain ⟨-, rfl⟩ := hstep
              refine hw.same ⟨rfl, fun other hother => AList.lookup_erase_ne fun hsame => ?_⟩
              rw [hsame, htemporary path List.mem_cons_self] at hother
              cases hother
        exact ⟨hkept, answer, rfl, hkept, trivial⟩
      refine call_refining hunlink ?_ fun w' hw' _ => hw'
      intro w' hw' _
      exact ih hw' fun other hother => htemporary other (List.mem_cons_of_mem _ hother)

omit [DecidableEq D] in
theorem sumSizes_idle (paths : List SpoolPath) : (sumSizes paths : SpoolProg B D Nat).Calls Idle := by
  induction paths with
  | nil => exact .pure 0
  | cons path rest ih =>
      refine (Prog.Calls.perform (by trivial)).bind fun answer => ?_
      cases answer with
      | none => exact .throw _
      | some size => exact ih.bind fun _ => .pure _

theorem init_refining (hw : start.Refines stages w) :
    Refining sha256 stages start (fun _ => start.Refines stages) (init maxBytes) w := by
  unfold init
  rw [Refining, secures_bind]
  refine (Idle.perform (by trivial) hw).imp (fun _ h => h) ?_
  intro result w' _ hlisted
  obtain ⟨paths, rfl, hw', -⟩ := hlisted
  rw [proceeds_ok, secures_bind]
  refine (unlinkAll_refining hw' fun path hpath => (List.mem_filter.mp hpath).2).imp
    (fun _ h => h) ?_
  intro result w'' _ hw''
  cases result with
  | error error => exact hw''
  | ok =>
      rw [proceeds_ok]
      refine Idle.refining ?_ hw''
      refine ((Prog.Calls.perform (by trivial)).bind fun paths => .pure _).bind fun paths => ?_
      refine (sumSizes_idle paths).bind fun bytes => (Prog.Calls.perform (by trivial)).bind fun _ => ?_
      split
      · exact .throw _
      · exact .pure ()


end CaptureSpool

end MiniLakehouse
