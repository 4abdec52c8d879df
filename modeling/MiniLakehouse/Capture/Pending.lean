import MiniLakehouse.Capture.Spool
import MiniLakehouse.Library.Checked
import MiniLakehouse.Library.JsonText

/-!
# Pending bytes

`pending_bytes` against the directory.  Between `os.replace` and the addition to the counter
a file is complete and not counted, so a call that raises there leaves the two apart; a
temporary file that is left behind with a JSON object in it is delivered by a later `drain`,
which subtracts what was never added.  `Harmless` are the calls that may raise without
either, and `Accounted` is what they all keep.
-/

namespace MiniLakehouse

variable {B V D : Type} [EvidenceBody B V] [DecidableEq D]

/-! ## Names -/

namespace SpoolPath

theorem asPosix_suffix (path : SpoolPath) : path.name.toList <:+ path.asPosix.toList := by
  obtain ⟨parents, name⟩ := path
  induction parents with
  | nil => exact List.suffix_refl _
  | cons part rest ih =>
      have hposix : (SpoolPath.mk (part :: rest) name).asPosix =
          part ++ "/" ++ (SpoolPath.mk rest name).asPosix := rfl
      rw [hposix, String.toList_append]
      exact ih.trans (List.suffix_append _ _)

theorem temporary_isTemporary (path : SpoolPath) (hex : String) :
    (path.temporary hex).isTemporary = true := by
  have hsuffix : ['.', 't', 'm', 'p'] <:+
      path.name.toList ++ '.' :: (hex.toList ++ ['.', 't', 'm', 'p']) :=
    ⟨path.name.toList ++ '.' :: hex.toList, by simp⟩
  simpa [temporary, isTemporary, List.isSuffixOf_iff_suffix] using hsuffix

end SpoolPath

theorem getLast?_of_suffix {α : Type} {suffix text : List α} {last : α}
    (h : suffix <:+ text) (hlast : suffix.getLast? = some last) : text.getLast? = some last := by
  obtain ⟨front, rfl⟩ := h
  rw [List.getLast?_append, hlast]
  rfl

theorem getLast?_of_isPayloadKey {key : String} (h : isPayloadKey key = true) :
    key.toList.getLast? = some 'z' := by
  simp only [isPayloadKey, Bool.or_eq_true, List.isSuffixOf_iff_suffix] at h
  rcases h with h | h
  · exact getLast?_of_suffix h rfl
  · exact getLast?_of_suffix h rfl

/-- A temporary file is no payload. -/
theorem SpoolPath.not_isPayloadKey {path : SpoolPath} (h : path.isTemporary = true) :
    isPayloadKey path.asPosix = false := by
  simp only [isTemporary, Bool.and_eq_true, List.isSuffixOf_iff_suffix] at h
  have hname : path.name.toList.getLast? = some 'p' :=
    getLast?_of_suffix (h.2.trans (List.tail_suffix _)) rfl
  have hposix := getLast?_of_suffix path.asPosix_suffix hname
  cases hpayload : isPayloadKey path.asPosix with
  | false => rfl
  | true =>
      rw [getLast?_of_isPayloadKey hpayload] at hposix
      cases hposix

/-- A text that ends with another character than the separator ends in its last part. -/
theorem splitOn_getLast? {text : List Char} {last : Char} (hlast : text.getLast? = some last)
    (hslash : last ≠ '/') : ∃ part, (text.splitOn '/').getLast? = some (part ++ [last]) := by
  induction text with
  | nil => cases hlast
  | cons c rest ih =>
      cases rest with
      | nil =>
          obtain rfl := Option.some.inj hlast
          have hsep : (c == '/') = false := by simpa using hslash
          exact ⟨[], by simp [List.splitOn, List.splitOnP_cons_eq_if_modifyHead, hsep]⟩
      | cons d rest =>
          obtain ⟨part, hpart⟩ := ih (by simpa using hlast)
          obtain ⟨first, others, hparts⟩ :=
            List.exists_cons_of_ne_nil (List.splitOnP_ne_nil (· == '/') (d :: rest))
          simp only [List.splitOn, hparts] at hpart
          simp only [List.splitOn, List.splitOnP_cons_eq_if_modifyHead c, hparts]
          by_cases hsep : (c == '/') = true
          · rw [if_pos hsep]
            exact ⟨part, by simpa using hpart⟩
          · rw [if_neg hsep]
            cases others with
            | nil =>
                obtain rfl : first = part ++ [last] := by simpa using hpart
                exact ⟨c :: part, by simp⟩
            | cons other others => exact ⟨part, by simpa using hpart⟩

/-- The last part of a key that ends in a proper character ends in it too. -/
theorem posixParts_getLast? {key name suffix : List Char} {last : Char}
    (hname : (posixParts (String.ofList key)).getLast? = some (String.ofList name))
    (hsuffix : suffix <:+ key) (hlast : suffix.getLast? = some last) (hslash : last ≠ '/')
    (hdot : last ≠ '.') : name.getLast? = some last := by
  obtain ⟨part, hpart⟩ := splitOn_getLast? (getLast?_of_suffix hsuffix hlast) hslash
  obtain ⟨front, hfront⟩ := List.getLast?_eq_some_iff.mp hpart
  have hkeep : (String.ofList (part ++ [last]) != "" && String.ofList (part ++ [last]) != ".") = true := by
    simp only [Bool.and_eq_true, bne_iff_ne]
    constructor
    · intro hempty
      simpa using congrArg String.toList hempty
    · intro hpoint
      have hchar := congrArg (fun text => text.toList.getLast?) hpoint
      exact hdot (by simpa using hchar)
  have hparts : (posixParts (String.ofList key)).getLast? = some (String.ofList (part ++ [last])) := by
    rw [posixParts, String.toList_ofList, hfront, List.map_append, List.filter_append,
      List.map_singleton, List.filter_cons, if_pos hkeep, List.filter_nil, List.getLast?_append,
      List.getLast?_singleton]
    rfl
  rw [hparts] at hname
  have hsame := congrArg String.toList (Option.some.inj hname)
  rw [String.toList_ofList, String.toList_ofList] at hsame
  rw [← hsame, List.getLast?_append, List.getLast?_singleton]
  rfl

/-- What is staged has a name of its own, never a temporary one. -/
theorem spoolPath_not_temporary {key : String} {path : SpoolPath} (h : spoolPath key = .ok path) :
    path.isTemporary = false := by
  have hnot : path.name.toList.getLast? ≠ some 'p' := by
    unfold spoolPath at h
    simp only at h
    split at h
    case h_1 => cases h
    case h_2 name hname =>
      split at h
      case isTrue => cases h
      case isFalse =>
        split at h
        case isFalse => cases h
        case isTrue haccepted =>
          obtain rfl := Except.ok.inj h
          simp only [isPayloadKey, Bool.or_eq_true, List.isSuffixOf_iff_suffix] at haccepted
          have hlast := @posixParts_getLast? key.toList name.toList
          rw [String.ofList_toList, String.ofList_toList] at hlast
          rcases haccepted with (hsuffix | hsuffix) | hsuffix
          · rw [hlast hname hsuffix rfl (by decide) (by decide)]
            decide
          · rw [hlast hname hsuffix rfl (by decide) (by decide)]
            decide
          · rw [hlast hname hsuffix rfl (by decide) (by decide)]
            decide
  cases htemporary : path.isTemporary with
  | false => rfl
  | true =>
      simp only [SpoolPath.isTemporary, Bool.and_eq_true, List.isSuffixOf_iff_suffix] at htemporary
      exact absurd (getLast?_of_suffix (htemporary.2.trans (List.tail_suffix _)) rfl) hnot

/-! ## The invariant -/

/-- `drain` would publish a file with these bytes from under a temporary name and remove it:
they are a JSON object in its canonical form. -/
def Deliverable (sha256 : B → D) (body : B) : Prop :=
  ∃ value, EvidenceBody.loads body = .ok value ∧ EvidenceBody.isObject B value = true ∧
    sha256 (EvidenceBody.canonicalJson value) = sha256 body

/-- A call may raise here and leave the counter right: no file that has any bytes has been
put in its place and not been counted, and no deliverable temporary file stays behind. -/
def Harmless (sha256 : B → D) : SpoolOp B → SpoolWorld B → Prop
  | .openDirectory target, w | .syncDirectory target, w | .closeDirectory target, w =>
      ∀ body ∈ w.files.lookup target, EvidenceBody.size body = 0
  | .unlinkTemporary target hex, w =>
      (∀ body ∈ w.files.lookup target, EvidenceBody.size body = 0) ∧
        ∀ body ∈ w.files.lookup (target.temporary hex), ¬Deliverable sha256 body
  | _, _ => True

namespace SpoolWorld

/-- `pending_bytes` is what the complete files have, within the capacity. -/
structure Accounted (sha256 : B → D) (maxBytes : Nat) (w : SpoolWorld B) : Prop where
  counted : w.bytes = w.completeBytes
  bounded : w.completeBytes ≤ maxBytes
  leftover : ∀ path body, path.isTemporary = true → w.files.lookup path = some body →
    ¬Deliverable sha256 body

/-- `_stage` between the check of the capacity and the removal of its temporary file:
`uncounted` bytes are in their place and not in the counter. -/
structure Staging (sha256 : B → D) (bytes : Int) (temporary : SpoolPath) (uncounted : Nat)
    (w : SpoolWorld B) : Prop where
  bytes_eq : w.bytes = bytes
  counted : (w.completeBytes : Int) = bytes + uncounted
  leftover : ∀ path body, path ≠ temporary → path.isTemporary = true →
    w.files.lookup path = some body → ¬Deliverable sha256 body

variable {sha256 : B → D} {maxBytes uncounted : Nat} {bytes : Int} {w : SpoolWorld B}
  {path temporary : SpoolPath} {body : B}

omit [DecidableEq D] in
theorem completeBytes_insert_temporary (h : path.isTemporary = true) :
    SpoolWorld.completeBytes { w with files := w.files.insert path body } = w.completeBytes :=
  Files.total_insert_weightless fun _ => if_pos h

omit [DecidableEq D] in
theorem completeBytes_erase_temporary (h : path.isTemporary = true) :
    SpoolWorld.completeBytes { w with files := w.files.erase path } = w.completeBytes :=
  Files.total_erase_weightless fun _ => if_pos h

omit [DecidableEq D] in
theorem Staging.write (h : Staging sha256 bytes temporary uncounted w)
    (htemporary : temporary.isTemporary = true) (body : B) :
    Staging sha256 bytes temporary uncounted
      { w with files := w.files.insert temporary body } where
  bytes_eq := h.bytes_eq
  counted := by rw [completeBytes_insert_temporary htemporary, h.counted]
  leftover := by
    intro path found hother hpath hfound
    rw [AList.lookup_insert_ne hother] at hfound
    exact h.leftover path found hother hpath hfound

omit [DecidableEq D] in
/-- The temporary file is put in its place, and not counted yet. -/
theorem Staging.replace (h : Staging sha256 bytes temporary 0 w)
    (htemporary : temporary.isTemporary = true) (hpath : path.isTemporary = false)
    (hnone : w.files.lookup path = none) :
    Staging sha256 bytes temporary (EvidenceBody.size body)
      { w with files := (w.files.erase temporary).insert path body } where
  bytes_eq := h.bytes_eq
  counted := by
    have hne : path ≠ temporary := by
      rintro rfl
      rw [hpath] at htemporary
      cases htemporary
    have hcreate : SpoolWorld.completeBytes
        { w with files := (w.files.erase temporary).insert path body } =
        EvidenceBody.size body + w.completeBytes := by
      refine (Files.total_create ?_).trans ?_
      · rw [AList.lookup_erase_ne hne, hnone]
      · rw [hpath, if_neg Bool.false_ne_true]
        exact congrArg _ (completeBytes_erase_temporary htemporary)
    have hcounted := h.counted
    rw [hcreate]
    omega
  leftover := by
    intro other found hother hisTemporary hfound
    have hne : other ≠ path := by
      rintro rfl
      rw [hpath] at hisTemporary
      cases hisTemporary
    rw [AList.lookup_insert_ne hne, AList.lookup_erase_ne hother] at hfound
    exact h.leftover other found hother hisTemporary hfound

omit [DecidableEq D] in
/-- The temporary name is removed, and the file in its place is counted. -/
theorem Staging.erase (h : Staging sha256 bytes temporary uncounted w)
    (htemporary : temporary.isTemporary = true) (hbounded : bytes + uncounted ≤ maxBytes) :
    Accounted sha256 maxBytes
      { w with files := w.files.erase temporary, bytes := bytes + uncounted } where
  counted := by
    rw [← h.counted]
    exact congrArg Nat.cast (completeBytes_erase_temporary htemporary).symm
  bounded := by
    have hcounted := h.counted
    have herase : SpoolWorld.completeBytes
        { w with files := w.files.erase temporary, bytes := bytes + uncounted } =
        w.completeBytes := completeBytes_erase_temporary htemporary
    rw [herase]
    omega
  leftover := by
    intro path body hpath hfound
    have hne : path ≠ temporary := by
      rintro rfl
      rw [AList.lookup_erase] at hfound
      cases hfound
    rw [AList.lookup_erase_ne hne] at hfound
    exact h.leftover path body hne hpath hfound

omit [DecidableEq D] in
theorem Accounted.staging (h : Accounted sha256 maxBytes w) :
    Staging sha256 w.bytes temporary 0 w where
  bytes_eq := rfl
  counted := by simpa using h.counted.symm
  leftover := fun path body _ => h.leftover path body

omit [DecidableEq D] in
/-- A temporary name that stays keeps the counter right where nothing is uncounted and its
file is not deliverable. -/
theorem Staging.abandon (h : Staging sha256 bytes temporary 0 w)
    (hbounded : bytes ≤ maxBytes)
    (hleft : ∀ body ∈ w.files.lookup temporary, ¬Deliverable sha256 body) :
    Accounted sha256 maxBytes w where
  counted := by
    have hcounted := h.counted
    rw [h.bytes_eq]
    omega
  bounded := by
    have hcounted := h.counted
    omega
  leftover := by
    intro path body hpath hfound
    by_cases hsame : path = temporary
    · subst hsame
      exact hleft body hfound
    · exact h.leftover path body hsame hpath hfound

omit [DecidableEq D] in
/-- A complete file goes, and is not counted any more. -/
theorem Accounted.deliver (h : Accounted sha256 maxBytes w) (hpath : path.isTemporary = false)
    (hbody : w.files.lookup path = some body) (store : Bucket String B) :
    Accounted sha256 maxBytes
      ⟨w.files.erase path, w.bytes - EvidenceBody.size body, store⟩ := by
  have herase : w.completeBytes = EvidenceBody.size body +
      SpoolWorld.completeBytes ⟨w.files.erase path, w.bytes - EvidenceBody.size body, store⟩ := by
    refine (Files.total_erase hbody).trans ?_
    rw [hpath, if_neg Bool.false_ne_true]
    rfl
  have hcounted := h.counted
  have hbounded := h.bounded
  constructor
  · dsimp only
    omega
  · omega
  · intro other found hother hfound
    have hne : other ≠ path := by
      rintro rfl
      rw [hpath] at hother
      cases hother
    rw [AList.lookup_erase_ne hne] at hfound
    exact h.leftover other found hother hfound

end SpoolWorld

/-! ## What the programs keep -/

namespace CaptureSpool

open SpoolWorld

variable {sha256 : B → D} {outages : Prop} {maxBytes : Nat} {w : SpoolWorld B}

/-- The steps of a spool whose calls raise only where it is harmless. -/
abbrev harmlessStep (sha256 : B → D) (outages : Prop) :
    (op : SpoolOp B) → SpoolWorld B → SpoolWorld B → op.Reply B D → Prop :=
  spoolStep sha256 outages (Harmless sha256)

/-- Every end of a run satisfies `Q`. -/
abbrev Ends {α : Type} (sha256 : B → D) (outages : Prop)
    (Q : Except SpoolRaised α → SpoolWorld B → Prop) (program : SpoolProg B D α)
    (w : SpoolWorld B) : Prop :=
  Secures (harmlessStep sha256 outages) (fun _ => True) Q program w

theorem ends_bind {α β : Type} {Q : Except SpoolRaised β → SpoolWorld B → Prop}
    {program : SpoolProg B D α} {rest : α → SpoolProg B D β} :
    Ends sha256 outages Q (program >>= rest) w ↔
      Ends sha256 outages
        (Proceeds (harmlessStep sha256 outages) (fun _ => True) Q rest) program w :=
  secures_bind

/-- The reply of a call is one that a step can give. -/
theorem ends_perform {op : SpoolOp B} {P : op.Reply B D → SpoolWorld B → Prop}
    (h : ∀ w' reply, harmlessStep sha256 outages op w w' reply → P reply w') :
    Ends sha256 outages (fun result w' => ∃ reply, result = .ok reply ∧ P reply w')
      (Prog.perform op) w :=
  ⟨trivial, fun w' reply hstep => ⟨trivial, reply, rfl, h w' reply hstep⟩⟩

/-- A call returns, or it raises `OSError`. -/
theorem ends_call {op : SpoolProg B D Bool} {Q : Except SpoolRaised Unit → SpoolWorld B → Prop}
    {returned raised : SpoolWorld B → Prop}
    (hop : Ends sha256 outages
      (fun result w' => ∃ answer, result = .ok answer ∧ Answers (returned w') (raised w') answer) op w)
    (hreturned : ∀ w', returned w' → Q (.ok ()) w')
    (hraised : ∀ w', raised w' → Q (.error .osError) w') : Ends sha256 outages Q (call op) w := by
  unfold call
  rw [ends_bind]
  refine hop.imp (fun _ h => h) ?_
  rintro result w' - ⟨answer, rfl, hanswer⟩
  cases answer with
  | true => exact ⟨trivial, hreturned w' hanswer⟩
  | false => exact ⟨trivial, hraised w' hanswer⟩

/-- What `place` can leave: the file is not in its place and an error is raised, or it is in
its place, uncounted, and an error is raised only where it has no bytes. -/
def Placed (sha256 : B → D) (bytes : Int) (target : SpoolPath) (hex : String) (body : B)
    (result : Except SpoolRaised Unit) (w : SpoolWorld B) : Prop :=
  (result ≠ .ok () ∧ Staging sha256 bytes (target.temporary hex) 0 w ∧
    w.files.lookup target = none) ∨
  ((result = .ok () ∨ EvidenceBody.size body = 0) ∧
    Staging sha256 bytes (target.temporary hex) (EvidenceBody.size body) w ∧
    w.files.lookup target = some body)

/-- The file is in its place; where syncing its directory raises it has no bytes. -/
theorem syncParent_ends {target : SpoolPath} {body : B} (hbody : w.files.lookup target = some body) :
    Ends sha256 outages
      (fun result w' => w' = w ∧ (result = .ok () ∨ EvidenceBody.size body = 0))
      (syncParent target) w := by
  unfold syncParent
  rw [ends_bind]
  refine ends_call (ends_perform fun w' answer h => h) ?_ ?_
  case refine_2 =>
    rintro w' ⟨hsize, rfl⟩
    exact ⟨rfl, .inr (hsize body hbody)⟩
  rintro w' rfl
  rw [proceeds_ok, secures_bind, secures_attempt]
  have hsynced : Ends sha256 outages
      (fun result w'' => w'' = w' ∧ (result = .ok () ∨ EvidenceBody.size body = 0))
      (call (Prog.perform (SpoolOp.syncDirectory target))) w' := by
    refine ends_call (ends_perform fun w' answer h => h) ?_ ?_
    · rintro w'' rfl
      exact ⟨rfl, .inl rfl⟩
    · rintro w'' ⟨hsize, rfl⟩
      exact ⟨rfl, .inr (hsize body hbody)⟩
  refine hsynced.imp (fun _ h => h) ?_
  rintro synced w'' - ⟨rfl, hsync⟩
  rw [proceeds_ok, secures_bind]
  refine ends_call (ends_perform fun w' answer h => h) ?_ ?_
  · rintro w' rfl
    exact ⟨trivial, rfl, hsync⟩
  · rintro w' ⟨hsize, rfl⟩
    exact ⟨rfl, .inr (hsize body hbody)⟩

theorem place_ends {bytes : Int} {target : SpoolPath} {hex : String} {body : B}
    (hstaging : Staging sha256 bytes (target.temporary hex) 0 w)
    (htarget : target.isTemporary = false) (hnone : w.files.lookup target = none) :
    Ends sha256 outages (Placed sha256 bytes target hex body) (place target hex body) w := by
  have htemporary := target.temporary_isTemporary hex
  have hne : target ≠ target.temporary hex := by
    intro hsame
    rw [← hsame, htarget] at htemporary
    cases htemporary
  unfold place
  rw [ends_bind]
  refine ends_call (ends_perform fun w' answer h => h) ?_ ?_
  case refine_2 =>
    rintro w' ⟨-, rfl⟩
    exact .inl ⟨by simp, hstaging, hnone⟩
  rintro w₁ ⟨-, rfl⟩
  have hopened := hstaging.write htemporary EvidenceBody.empty
  rw [proceeds_ok, secures_bind]
  refine ends_call (ends_perform fun w' answer h => h) ?_ ?_
  case refine_2 =>
    rintro w' ⟨-, part, rfl⟩
    refine .inl ⟨by simp, hopened.write htemporary part, ?_⟩
    rw [AList.lookup_insert_ne hne, AList.lookup_insert_ne hne, hnone]
  rintro w₂ rfl
  have hwritten := hopened.write htemporary body
  have hmissing : AList.lookup target ((w.files.insert (target.temporary hex)
      EvidenceBody.empty).insert (target.temporary hex) body) = none := by
    rw [AList.lookup_insert_ne hne, AList.lookup_insert_ne hne, hnone]
  rw [proceeds_ok, secures_bind]
  refine ends_call (ends_perform fun w' answer h => h) ?_ ?_
  case refine_2 =>
    rintro w' ⟨-, rfl⟩
    exact .inl ⟨by simp, hwritten, hmissing⟩
  rintro w₃ rfl
  rw [proceeds_ok, secures_bind]
  refine ends_call (ends_perform fun w' answer h => h) ?_ ?_
  case refine_2 =>
    rintro w' ⟨-, rfl⟩
    exact .inl ⟨by simp, hwritten, hmissing⟩
  rintro w₄ ⟨found, hfound, rfl⟩
  obtain rfl : body = found := by simpa using hfound
  rw [proceeds_ok]
  refine (syncParent_ends (AList.lookup_insert _)).imp (fun _ h => h) ?_
  rintro result w₅ - ⟨rfl, hresult⟩
  exact .inr ⟨hresult, hwritten.replace htemporary htarget hmissing, AList.lookup_insert _⟩

theorem readBytes_ends {path : SpoolPath} {Q : Except SpoolRaised B → SpoolWorld B → Prop}
    (hfound : ∀ body, w.files.lookup path = some body → Q (.ok body) w)
    (hraised : Q (.error .osError) w) : Ends sha256 outages Q (readBytes path) w := by
  unfold Ends readBytes
  rw [secures_bind]
  refine (ends_perform fun w' reply h => h).imp (fun _ h => h) ?_
  rintro result w' - ⟨answer, rfl, rfl, hanswer⟩
  rw [proceeds_ok]
  cases answer with
  | none => exact ⟨trivial, hraised⟩
  | some body =>
      rcases hanswer with hlookup | ⟨hnone, -⟩
      · exact ⟨trivial, hfound body hlookup.symm⟩
      · cases hnone

omit [DecidableEq D] in
/-- The file in its place is uncounted only where it has no bytes or nothing was raised. -/
theorem Placed.raised {bytes : Int} {target : SpoolPath} {hex : String} {body : B}
    {error : SpoolRaised} (h : Placed sha256 bytes target hex body (.error error) w) :
    Staging sha256 bytes (target.temporary hex) 0 w := by
  rcases h with ⟨-, hstaging, -⟩ | ⟨hresult, hstaging, -⟩
  · exact hstaging
  · rcases hresult with hresult | hsize
    · cases hresult
    · rwa [hsize] at hstaging

omit [DecidableEq D] in
theorem Placed.returned {bytes : Int} {target : SpoolPath} {hex : String} {body : B}
    (h : Placed sha256 bytes target hex body (.ok ()) w) :
    Staging sha256 bytes (target.temporary hex) (EvidenceBody.size body) w := by
  rcases h with ⟨hresult, -⟩ | ⟨-, hstaging, -⟩
  · exact absurd rfl hresult
  · exact hstaging

omit [DecidableEq D] in
/-- Where the file in its place has no bytes, nothing is uncounted. -/
theorem Placed.empty {bytes : Int} {target : SpoolPath} {hex : String} {body : B}
    {result : Except SpoolRaised Unit} (h : Placed sha256 bytes target hex body result w)
    (hempty : ∀ found ∈ w.files.lookup target, EvidenceBody.size found = 0) :
    Staging sha256 bytes (target.temporary hex) 0 w := by
  rcases h with ⟨-, hstaging, -⟩ | ⟨-, hstaging, hbody⟩
  · exact hstaging
  · rwa [hempty body hbody] at hstaging

theorem stageNew_ends {target : SpoolPath} {body : B} (h : Accounted sha256 maxBytes w)
    (htarget : target.isTemporary = false) (hnone : w.files.lookup target = none) :
    Ends sha256 outages (fun _ => Accounted sha256 maxBytes) (stageNew sha256 maxBytes target body)
      w := by
  unfold Ends stageNew
  rw [secures_bind]
  refine (ends_perform fun w' reply h => h).imp (fun _ h => h) ?_
  rintro result w' - ⟨pending, rfl, rfl, rfl⟩
  rw [proceeds_ok]
  split
  case isTrue => exact ⟨trivial, h⟩
  case isFalse hexceeds =>
    have hfits : w'.bytes + EvidenceBody.size body ≤ maxBytes := not_lt.mp hexceeds
    rw [secures_bind]
    refine ends_call (ends_perform fun w' answer h => h) ?_ ?_
    case refine_2 =>
      rintro w₁ ⟨-, rfl⟩
      exact h
    rintro w₁ rfl
    rw [proceeds_ok, secures_bind]
    refine (ends_perform fun w' reply h => h).imp (fun _ h => h) ?_
    rintro result w₂ - ⟨hex, rfl, rfl⟩
    have htemporary := target.temporary_isTemporary hex
    rw [proceeds_ok, secures_bind, secures_attempt]
    refine (place_ends h.staging htarget hnone).imp (fun _ h => h) ?_
    rintro placed w₃ - hplaced
    rw [proceeds_ok, secures_bind]
    refine ends_call (ends_perform fun w' answer h => h) ?_ ?_
    · rintro w₄ rfl
      rw [proceeds_ok, secures_bind, secures_lift]
      refine ⟨trivial, ?_⟩
      cases placed with
      | error error =>
          have hstaging := hplaced.raised
          have haccounted : Accounted sha256 maxBytes _ := hstaging.erase htemporary (by omega)
          rw [Nat.cast_zero, add_zero, ← hstaging.bytes_eq] at haccounted
          exact haccounted
      | ok =>
          have hstaging := hplaced.returned
          rw [proceeds_ok, secures_bind]
          refine (ends_perform fun w' reply h => h).imp (fun _ h => h) ?_
          rintro result w₅ - ⟨bytes, rfl, rfl, rfl⟩
          rw [proceeds_ok, secures_bind]
          refine (ends_perform fun w' reply h => h).imp (fun _ h => h) ?_
          rintro result w₆ - ⟨reply, rfl, rfl⟩
          refine ⟨trivial, ?_⟩
          have haccounted : Accounted sha256 maxBytes _ := hstaging.erase htemporary (by omega)
          rw [← hstaging.bytes_eq] at haccounted
          exact haccounted
    · rintro w₄ ⟨⟨hempty, hleft⟩, rfl⟩
      exact (hplaced.empty hempty).abandon (by omega) hleft

/-- **`_stage` keeps the account** where its calls raise harmlessly. -/
theorem stage_ends {key : String} {body : B} (h : Accounted sha256 maxBytes w) :
    Ends sha256 outages (fun _ => Accounted sha256 maxBytes) (stage sha256 maxBytes key body) w := by
  unfold Ends stage
  rw [secures_bind, secures_lift]
  refine ⟨trivial, ?_⟩
  cases hpath : spoolPath key with
  | error error => exact h
  | ok target =>
      have htarget := spoolPath_not_temporary hpath
      rw [proceeds_ok, secures_bind]
      refine (ends_perform fun w' reply h => h).imp (fun _ h => h) ?_
      rintro result w' - ⟨answer, rfl, rfl, rfl⟩
      rw [proceeds_ok]
      cases hfound : w'.files.lookup target with
      | none => exact stageNew_ends h htarget hfound
      | some found =>
          rw [Option.isSome_some, if_pos rfl, secures_bind]
          refine readBytes_ends ?_ h
          intro current _
          rw [proceeds_ok]
          split
          · exact ⟨trivial, h⟩
          · exact ⟨trivial, h⟩

theorem rmdirs_ends {parents : List String} {Q : Except SpoolRaised Unit → SpoolWorld B → Prop}
    (h : Q (.ok ()) w) : Ends sha256 outages Q (rmdirs parents) w := by
  induction parents with
  | nil => exact ⟨trivial, h⟩
  | cons innermost outer ih =>
      unfold Ends rmdirs
      rw [secures_bind]
      refine (ends_perform fun w' reply h => h).imp (fun _ h => h) ?_
      rintro result w' - ⟨answer, rfl, rfl⟩
      rw [proceeds_ok]
      cases answer with
      | true => exact ih
      | false => exact ⟨trivial, h⟩

/-- A file that leaves the spool is complete, and was counted. -/
theorem remove_ends {path : SpoolPath} {body : B} (h : Accounted sha256 maxBytes w)
    (hpath : path.isTemporary = false) (hbody : w.files.lookup path = some body) :
    Ends sha256 outages (fun _ => Accounted sha256 maxBytes) (remove path body) w := by
  unfold Ends remove
  rw [secures_bind]
  refine ends_call (ends_perform fun w' answer h => h) ?_ ?_
  case refine_2 =>
    rintro w' ⟨-, rfl⟩
    exact h
  rintro w₁ ⟨-, rfl⟩
  rw [proceeds_ok, secures_bind]
  refine (ends_perform fun w' reply h => h).imp (fun _ h => h) ?_
  rintro result w₂ - ⟨bytes, rfl, rfl, rfl⟩
  rw [proceeds_ok, secures_bind]
  refine (ends_perform fun w' reply h => h).imp (fun _ h => h) ?_
  rintro result w₃ - ⟨reply, rfl, rfl⟩
  exact rmdirs_ends (h.deliver hpath hbody w.store)

/-- The store's digest is the one of the body that is put. -/
theorem put_digest {store last : Bucket String B} {key : String} {body : B}
    {result : Except Raised (String × D)}
    (h : Returns (s3Step sha256 outages) (S3CaptureStore.put sha256 key body) store result last)
    {digest : D} (hdigest : result.map Prod.snd = .ok digest) : digest = sha256 body := by
  have hsecures : Secures (s3Step sha256 outages) (fun _ => True)
      (fun result _ => ∀ digest, result.map Prod.snd = .ok digest → digest = sha256 body)
      (S3CaptureStore.put sha256 key body) store := by
    apply S3CaptureStore.put_secures trivial
    · refine fun hnone => ⟨trivial, ?_, ?_⟩
      · exact fun digest hmap => (Except.ok.inj hmap).symm
      · exact fun _ digest hmap => by cases hmap
    · exact fun current _ _ digest hmap => (Except.ok.inj hmap).symm
    · exact fun current _ _ digest hmap => by cases hmap
    · exact fun _ digest hmap => by cases hmap
  exact hsecures.returns h digest hdigest

omit [DecidableEq D] in
/-- What is put of a temporary file is the canonical form of the object that it spells. -/
theorem published_deliverable {path : SpoolPath} {body putting : B}
    (htemporary : path.isTemporary = true) (h : published path.asPosix body = .ok putting)
    (hsame : sha256 putting = sha256 body) : Deliverable sha256 body := by
  rw [published, SpoolPath.not_isPayloadKey htemporary, if_neg Bool.false_ne_true] at h
  obtain ⟨value, hvalue, hobject⟩ := bind_eq_ok.mp h
  cases hloads : (EvidenceBody.loads body : Except Raised V) with
  | error error =>
      rw [hloads] at hvalue
      cases hvalue
  | ok found =>
      rw [hloads] at hvalue
      obtain rfl := Except.ok.inj hvalue
      split at hobject
      case isFalse => cases hobject
      case isTrue hisObject =>
        obtain rfl := Except.ok.inj hobject
        exact ⟨found, hloads, hisObject, hsame⟩

/-- **`drain` keeps the account**: what it removes is complete, since a temporary file that
it could publish is none that is left. -/
theorem drainFiles_ends {deferUnavailable : Bool} {count : Nat} {paths : List SpoolPath}
    (h : Accounted sha256 maxBytes w) :
    Ends sha256 outages (fun _ => Accounted sha256 maxBytes)
      (drainFiles sha256 deferUnavailable count paths) w := by
  induction paths generalizing count w with
  | nil => exact ⟨trivial, h⟩
  | cons path rest ih =>
      unfold Ends drainFiles
      rw [secures_bind]
      refine readBytes_ends ?_ h
      intro body hbody
      rw [proceeds_ok, secures_bind, secures_lift]
      refine ⟨trivial, ?_⟩
      cases hpublished : published path.asPosix body with
      | error error => exact h
      | ok putting =>
          rw [proceeds_ok, secures_bind]
          refine (ends_perform fun w' reply h => h).imp (fun _ h => h) ?_
          rintro result w' - ⟨answer, rfl, putResult, store, hput, rfl, rfl⟩
          have hkept : Accounted sha256 maxBytes { w with store := store } := ⟨h.1, h.2, h.3⟩
          rw [proceeds_ok]
          split
          case h_1 =>
            split
            · exact ⟨trivial, hkept⟩
            · exact ⟨trivial, hkept⟩
          case h_2 => exact ⟨trivial, hkept⟩
          case h_3 digest hdigest =>
            split
            case isFalse => exact ⟨trivial, hkept⟩
            case isTrue hsame =>
              have hpath : path.isTemporary = false := by
                cases htemporary : path.isTemporary with
                | false => rfl
                | true =>
                    rw [put_digest hput hdigest] at hsame
                    exact absurd (published_deliverable htemporary hpublished hsame)
                      (h.leftover path body htemporary hbody)
              rw [secures_bind]
              refine (remove_ends hkept hpath hbody).imp (fun _ h => h) ?_
              intro result w'' _ hremoved
              cases result with
              | error error => exact hremoved
              | ok => exact ih hremoved

theorem drain_ends {deferUnavailable : Bool} (h : Accounted sha256 maxBytes w) :
    Ends sha256 outages (fun _ => Accounted sha256 maxBytes) (drain sha256 deferUnavailable) w := by
  unfold Ends drain entries
  rw [secures_bind, secures_bind]
  refine (ends_perform fun w' reply h => h).imp (fun _ h => h) ?_
  rintro result w' - ⟨paths, rfl, rfl, -⟩
  exact ⟨trivial, drainFiles_ends h⟩

/-- No temporary file outside the list is left, and in the end none at all. -/
theorem unlinkAll_ends {paths : List SpoolPath}
    (h : ∀ path ∈ w.files.keys, path.isTemporary = true → path ∈ paths) :
    Ends sha256 outages (fun result w' => result = .ok () →
      ∀ path ∈ w'.files.keys, path.isTemporary = false) (unlinkAll paths) w := by
  induction paths generalizing w with
  | nil =>
      refine ⟨trivial, ?_⟩
      intro _ path hpath
      cases htemporary : path.isTemporary with
      | false => rfl
      | true => cases h path hpath htemporary
  | cons first rest ih =>
      unfold Ends unlinkAll
      rw [secures_bind]
      refine ends_call (ends_perform fun w' answer h => h) ?_ ?_
      case refine_2 => exact fun w' _ hresult => by cases hresult
      rintro w₁ ⟨-, rfl⟩
      apply ih
      intro path hpath htemporary
      obtain ⟨hne, hmem⟩ := AList.mem_erase.mp (AList.mem_keys.mpr hpath)
      exact (List.mem_cons.mp (h path (AList.mem_keys.mp hmem) htemporary)).resolve_left hne

theorem sumSizes_ends {paths : List SpoolPath} :
    Ends sha256 outages (fun result w' => w' = w ∧ ∀ bytes, result = .ok bytes →
      bytes = (paths.map fun path => (w.files.lookup path).elim 0 EvidenceBody.size).sum)
      (sumSizes paths) w := by
  induction paths with
  | nil => exact ⟨trivial, rfl, fun bytes hbytes => (Except.ok.inj hbytes).symm⟩
  | cons path rest ih =>
      unfold Ends sumSizes
      rw [secures_bind]
      refine (ends_perform fun w' reply h => h).imp (fun _ h => h) ?_
      rintro result w' - ⟨answer, rfl, rfl, hanswer⟩
      rw [proceeds_ok]
      cases answer with
      | none => exact ⟨trivial, rfl, fun bytes hbytes => by cases hbytes⟩
      | some size =>
          rw [secures_bind]
          refine ih.imp (fun _ h => h) ?_
          rintro result w'' - ⟨rfl, hrest⟩
          cases result with
          | error error => exact ⟨rfl, fun bytes hbytes => by cases hbytes⟩
          | ok remaining =>
              refine ⟨trivial, rfl, ?_⟩
              intro bytes hbytes
              obtain rfl := Except.ok.inj hbytes
              rcases hanswer with hsize | ⟨hnone, -⟩
              · obtain ⟨body, hbody, rfl⟩ := Option.map_eq_some_iff.mp hsize.symm
                rw [hrest remaining rfl, List.map_cons, List.sum_cons, hbody, Option.elim_some]
              · cases hnone

/-- **A spool that has been opened** holds no temporary file and has counted the others. -/
theorem init_ends : Ends sha256 outages
    (fun result w' => result = .ok () → Accounted sha256 maxBytes w') (init maxBytes) w := by
  unfold Ends init entries
  rw [secures_bind]
  refine (ends_perform fun w' reply h => h).imp (fun _ h => h) ?_
  rintro result w₁ - ⟨paths, rfl, rfl, hpaths⟩
  rw [proceeds_ok, secures_bind]
  have hlisted : ∀ path ∈ w₁.files.keys, path.isTemporary = true →
      path ∈ paths.filter (·.isTemporary) := by
    intro path hpath htemporary
    exact List.mem_filter.mpr ⟨hpaths.mem_iff.mpr hpath, htemporary⟩
  refine (unlinkAll_ends hlisted).imp (fun _ h => h) ?_
  intro result w₂ _ hunlinked
  cases result with
  | error error => exact fun hresult => by cases hresult
  | ok =>
      have hnone := hunlinked rfl
      rw [proceeds_ok, secures_bind, secures_bind]
      refine (ends_perform fun w' reply h => h).imp (fun _ h => h) ?_
      rintro result w₃ - ⟨found, rfl, rfl, hfound⟩
      refine ⟨trivial, ?_⟩
      rw [proceeds_ok, secures_bind]
      refine sumSizes_ends.imp (fun _ h => h) ?_
      rintro result w₄ - ⟨rfl, hsum⟩
      cases result with
      | error error => exact fun hresult => by cases hresult
      | ok bytes =>
          have hbytes : bytes = w₄.completeBytes := by
            rw [hsum bytes rfl, completeBytes, Files.total_eq_sum_keys]
            refine ((((sortOn_perm _ found).trans hfound).map _).sum_eq).trans ?_
            refine congrArg List.sum (List.map_congr_left fun path hpath => ?_)
            simp only [hnone path hpath, if_neg Bool.false_ne_true]
          rw [proceeds_ok, secures_bind]
          refine (ends_perform fun w' reply h => h).imp (fun _ h => h) ?_
          rintro result w₅ - ⟨reply, rfl, rfl⟩
          rw [proceeds_ok]
          split
          case isTrue => exact ⟨trivial, fun hresult => by cases hresult⟩
          case isFalse hexceeds =>
            refine ⟨trivial, fun _ => ⟨congrArg Nat.cast hbytes, ?_, ?_⟩⟩
            · rw [hbytes] at hexceeds
              exact not_lt.mp hexceeds
            · intro path body htemporary hbody
              have hmem : path ∈ w₄.files.keys := by
                rw [← AList.mem_keys, ← AList.lookup_isSome]
                exact Option.isSome_of_mem hbody
              rw [hnone path hmem] at htemporary
              cases htemporary

/-- **Step lemma.**  Every call keeps the account, whether it returns or raises. -/
theorem call_ends {call : SpoolCall B V} (h : Accounted sha256 maxBytes w) :
    Ends sha256 outages (fun _ => Accounted sha256 maxBytes) (call.program sha256 maxBytes) w := by
  have hkept : ∀ {α : Type} {program : SpoolProg B D α},
      Ends sha256 outages (fun _ => Accounted sha256 maxBytes) program w →
      Ends sha256 outages (fun _ => Accounted sha256 maxBytes)
        (program >>= fun _ => pure ()) w := by
    intro α program hprogram
    rw [ends_bind]
    refine hprogram.imp (fun _ h => h) ?_
    intro result w' _ haccounted
    cases result with
    | error error => exact haccounted
    | ok => exact ⟨trivial, haccounted⟩
  cases call with
  | stageCapture key body => exact hkept (stage_ends h)
  | stageJson key value => exact hkept (stage_ends h)
  | drain deferUnavailable => exact hkept (drain_ends h)

/-- **Run lemma.** -/
theorem run_accounted {calls : List (SpoolCall B V)} {w' : SpoolWorld B}
    (h : Accounted sha256 maxBytes w)
    (hrun : SpoolRun sha256 maxBytes (harmlessStep sha256 outages) calls w w') :
    Accounted sha256 maxBytes w' := by
  induction hrun with
  | nil => exact h
  | cons hcall _ ih => exact ih ((call_ends h).returns hcall)

/-- A spool is opened on any directory and called in any order, any filesystem call raises
where it is harmless, and `pending_bytes` is what its complete files have, within the
capacity. -/
theorem pending_bytes_accounted {calls : List (SpoolCall B V)} {w₀ w w' : SpoolWorld B}
    (hopen : Returns (harmlessStep sha256 outages) (init maxBytes) w₀ (.ok ()) w)
    (hrun : SpoolRun sha256 maxBytes (harmlessStep sha256 outages) calls w w') :
    w'.bytes = w'.completeBytes ∧ w'.completeBytes ≤ maxBytes := by
  have haccounted := run_accounted ((init_ends.returns hopen) rfl) hrun
  exact ⟨haccounted.counted, haccounted.bounded⟩

end CaptureSpool

namespace Rehearsal

/-- Bodies are UTF-8 texts of JSON values; a float is kept as it is spelled. -/
instance textBody : EvidenceBody Bytes JsonValue where
  size := List.length
  empty := []
  loads body := ((utf8Decode body).bind (loads id)).elim
    (.error (.valueError "Expecting value")) .ok
  isObject := JsonValue.isObject
  canonicalJson := canonicalJsonBytes

/-- An empty directory and an empty store. -/
def emptySpool : SpoolWorld Bytes := ⟨∅, 0, Bucket.empty⟩

def eightBytes : Bytes := List.replicate 8 0

/-- Two files of eight bytes are staged. -/
def stagedTwice : List (SpoolCall Bytes JsonValue) :=
  [.stageCapture "a.json.gz" eightBytes, .stageCapture "b.json.gz" eightBytes]

/-- Syncing the directory of the first file raises. -/
def unsynced : SpoolOp Bytes → Bool
  | .syncDirectory target => target.name = "a.json.gz"
  | _ => false

/-- Writing the first file raises. -/
def unwritten : SpoolOp Bytes → Bool
  | .writeTemporary target _ _ => target.name = "a.json.gz"
  | _ => false

/-- A spool of ten bytes is opened on the empty directory. -/
def openedSpool (raises : SpoolOp Bytes → Bool) : Except SpoolRaised Unit × SpoolWorld Bytes :=
  (CaptureSpool.init 10 : SpoolProg Bytes Bytes Unit).run (spoolAnswer id raises) emptySpool

def stagedSpool (raises : SpoolOp Bytes → Bool) : SpoolWorld Bytes :=
  SpoolCall.runAll id 10 (spoolAnswer id raises) stagedTwice (openedSpool raises).2

end Rehearsal

open Rehearsal in
/-- **One `fsync` of a directory raises**, and a spool of ten bytes holds sixteen and has
counted eight. -/
theorem pending_bytes_unsynced : ∃ w w',
    Returns (spoolStep id False fun op _ => unsynced op = true)
      (CaptureSpool.init 10 : SpoolProg Bytes Bytes Unit) emptySpool (.ok ()) w ∧
    SpoolRun id 10 (spoolStep id False fun op _ => unsynced op = true) stagedTwice w w' ∧
    w'.bytes = 8 ∧ w'.completeBytes = 16 := by
  have hstep : ∀ (op : SpoolOp Bytes) (w : SpoolWorld Bytes),
      spoolStep id False (fun op _ => unsynced op = true) op w (spoolAnswer id unsynced op w).1
        (spoolAnswer id unsynced op w).2 :=
    fun op w => spoolAnswer_step fun hraises => hraises
  have hopened : (openedSpool unsynced).1 = .ok () := by decide +kernel
  have hopen : Returns (spoolStep id False fun op _ => unsynced op = true)
      (CaptureSpool.init 10 : SpoolProg Bytes Bytes Unit) emptySpool (openedSpool unsynced).1
      (openedSpool unsynced).2 := Prog.run_returns hstep
  rw [hopened] at hopen
  refine ⟨_, stagedSpool unsynced, hopen, SpoolCall.runAll_run id 10 hstep _ _, ?_⟩
  decide +kernel

open Rehearsal in
/-- A write that raises leaves the account right, and the second file is counted. -/
theorem pending_bytes_accounted_unwritten :
    (stagedSpool unwritten).bytes = (stagedSpool unwritten).completeBytes ∧
    (stagedSpool unwritten).completeBytes ≤ 10 ∧ (stagedSpool unwritten).bytes = 8 := by
  have hstep : ∀ (op : SpoolOp Bytes) (w : SpoolWorld Bytes),
      CaptureSpool.harmlessStep id False op w (spoolAnswer id unwritten op w).1
        (spoolAnswer id unwritten op w).2 := by
    intro op w
    refine spoolAnswer_step fun hraises => ?_
    cases op <;> trivial
  have hopened : (openedSpool unwritten).1 = .ok () := by decide +kernel
  have hopen : Returns (CaptureSpool.harmlessStep id False)
      (CaptureSpool.init 10 : SpoolProg Bytes Bytes Unit) emptySpool (openedSpool unwritten).1
      (openedSpool unwritten).2 := Prog.run_returns hstep
  rw [hopened] at hopen
  obtain ⟨hcounted, hbounded⟩ := CaptureSpool.pending_bytes_accounted hopen
    (SpoolCall.runAll_run id 10 hstep stagedTwice _)
  exact ⟨hcounted, hbounded, by decide +kernel⟩

end MiniLakehouse
