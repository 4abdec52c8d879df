import MiniLakehouse.Library.Sql

/-!
# Revisioned tables

A table that is never updated: content that is not stored yet for its key is
appended under the next revision of the key.  The revisions of a key number its
rows (`numbered_publishAll`), and the row of the highest revision is the one
that was appended last.  It is the last published one exactly as long as no key
goes back to content that it had before (`heads_follow_iff`).
-/

namespace MiniLakehouse

variable {C κ σ : Type} [DecidableEq κ] [DecidableEq σ]

/-- What a row of content is about, and the fingerprint that tells contents apart. -/
structure RevisionScheme (C κ σ : Type) where
  key : C → κ
  fingerprint : C → σ

/-- A row under its revision. -/
structure Revision (C : Type) where
  revision : Nat
  row : C
  deriving DecidableEq

namespace RevisionScheme

variable (s : RevisionScheme C κ σ)

/-- The stored revisions of a key, in the order they were appended. -/
def revisionsOf (table : List (Revision C)) (k : κ) : List (Revision C) :=
  table.filter fun stored => s.key stored.row = k

/-- `coalesce(max(revision) + 1, 0)` -/
def nextRevision (table : List (Revision C)) (k : κ) : Nat :=
  (((s.revisionsOf table k).map (·.revision)).max?).elim 0 (· + 1)

/-- Whether a row's content is stored under its key. -/
def stores (table : List (Revision C)) (candidate : C) : Bool :=
  table.any fun stored => s.key stored.row = s.key candidate &&
    s.fingerprint stored.row = s.fingerprint candidate

/-- `INSERT INTO target` of the candidates whose content is not stored. -/
def publishNew (table : List (Revision C)) (candidates : List C) : List (Revision C) :=
  table ++ (candidates.filter fun candidate => !s.stores table candidate).map fun candidate =>
    ⟨s.nextRevision table (s.key candidate), candidate⟩

/-- Publications, one after another. -/
def publishAll (publications : List (List C)) : List (Revision C) :=
  publications.foldl s.publishNew []

/-- The row of the highest revision of a key. -/
def head (table : List (Revision C)) (k : κ) : Option (Revision C) :=
  (s.revisionsOf table k).argmax (·.revision)

/-- The row of a key in the last publication that has one. -/
def latest (publications : List (List C)) (k : κ) : Option C :=
  publications.reverse.findSome? fun candidates => candidates.find? (s.key · = k)

/-- One candidate at most for each key. -/
def OnePerKey (candidates : List C) : Prop := (candidates.map s.key).Nodup

/-- The rows of a key are numbered in the order they were appended. -/
def Numbered (table : List (Revision C)) : Prop :=
  ∀ k, (s.revisionsOf table k).map (·.revision) = List.range (s.revisionsOf table k).length

variable {s}

theorem stores_iff {table : List (Revision C)} {candidate : C} :
    s.stores table candidate = true ↔ ∃ stored ∈ table,
      s.key stored.row = s.key candidate ∧ s.fingerprint stored.row = s.fingerprint candidate := by
  simp [stores]

theorem publishAll_snoc {publications : List (List C)} {candidates : List C} :
    s.publishAll (publications ++ [candidates]) =
      s.publishNew (s.publishAll publications) candidates := by
  simp [publishAll]

omit [DecidableEq σ] in
theorem Numbered.nextRevision {table : List (Revision C)} (h : s.Numbered table) (k : κ) :
    s.nextRevision table k = (s.revisionsOf table k).length := by
  rw [RevisionScheme.nextRevision, h k]
  cases (s.revisionsOf table k).length with
  | zero => rfl
  | succ n =>
      have hmax : (List.range (n + 1)).max? = some n := by
        rw [List.max?_eq_some_iff]
        exact ⟨by simp, fun m hm => Nat.lt_succ_iff.mp (List.mem_range.mp hm)⟩
      rw [hmax, Option.elim_some]

/-- What a publication appends under a key: the key's candidate, where its content is new. -/
theorem revisionsOf_publishNew {table : List (Revision C)} {candidates : List C}
    (hone : s.OnePerKey candidates) (k : κ) :
    s.revisionsOf (s.publishNew table candidates) k = s.revisionsOf table k ++
      ((candidates.find? (s.key · = k)).filter fun candidate =>
        !s.stores table candidate).toList.map fun candidate =>
          ⟨s.nextRevision table k, candidate⟩ := by
  have hnew : ∀ rest : List C, s.OnePerKey rest →
      ((rest.filter fun candidate => !s.stores table candidate).map fun candidate =>
        (⟨s.nextRevision table (s.key candidate), candidate⟩ : Revision C)).filter
          (fun stored => s.key stored.row = k) =
        ((rest.find? (s.key · = k)).filter fun candidate =>
          !s.stores table candidate).toList.map fun candidate =>
            ⟨s.nextRevision table k, candidate⟩ := by
    intro rest hrest
    induction rest with
    | nil => rfl
    | cons candidate rest ih =>
        obtain ⟨hnot, hrest⟩ := List.nodup_cons.mp hrest
        by_cases hkey : s.key candidate = k
        · -- No other candidate has the key.
          have hnone : rest.find? (s.key · = k) = none := by
            rw [List.find?_eq_none]
            intro other hother hsame
            refine hnot (List.mem_map.mpr ⟨other, hother, ?_⟩)
            exact (of_decide_eq_true hsame).trans hkey.symm
          have hothers := ih hrest
          rw [hnone] at hothers
          by_cases hstored : s.stores table candidate
          · rw [List.filter_cons_of_neg (by simp [hstored]), hothers]
            simp [hkey, hstored, Option.filter]
          · rw [List.filter_cons_of_pos (by simp [hstored]), List.map_cons,
              List.filter_cons_of_pos (by simp [hkey]), hothers]
            simp [hkey, hstored, Option.filter]
        · rw [List.find?_cons_of_neg (by simp [hkey]), ← ih hrest]
          by_cases hstored : s.stores table candidate
          · rw [List.filter_cons_of_neg (by simp [hstored])]
          · rw [List.filter_cons_of_pos (by simp [hstored]), List.map_cons,
              List.filter_cons_of_neg (by simp [hkey])]
  rw [revisionsOf, publishNew, List.filter_append, hnew candidates hone]
  rfl

theorem Numbered.publishNew {table : List (Revision C)} (h : s.Numbered table)
    {candidates : List C} (hone : s.OnePerKey candidates) :
    s.Numbered (s.publishNew table candidates) := by
  intro k
  rw [revisionsOf_publishNew hone k, h.nextRevision]
  cases (candidates.find? (s.key · = k)).filter fun candidate => !s.stores table candidate with
  | none => simpa using h k
  | some candidate => simp [h k, List.range_succ]

/-- **The revisions of a key are 0, 1, …, n** after any publications. -/
theorem numbered_publishAll {publications : List (List C)}
    (h : ∀ candidates ∈ publications, s.OnePerKey candidates) :
    s.Numbered (s.publishAll publications) := by
  induction publications using List.reverseRecOn with
  | nil => exact fun k => rfl
  | append_singleton before candidates ih =>
      rw [publishAll_snoc]
      exact (ih fun earlier hearlier => h earlier (by simp [hearlier])).publishNew
        (h candidates (by simp))

theorem stores_publishNew_iff {table : List (Revision C)} {candidates : List C} {row : C} :
    s.stores (s.publishNew table candidates) row = true ↔ s.stores table row = true ∨
      ∃ candidate ∈ candidates,
        s.key candidate = s.key row ∧ s.fingerprint candidate = s.fingerprint row := by
  constructor
  · intro h
    obtain ⟨stored, hmem, hsame⟩ := stores_iff.mp h
    rcases List.mem_append.mp hmem with hmem | hmem
    · exact .inl (stores_iff.mpr ⟨stored, hmem, hsame⟩)
    · obtain ⟨candidate, hcandidate, rfl⟩ := List.mem_map.mp hmem
      exact .inr ⟨candidate, List.mem_of_mem_filter hcandidate, hsame⟩
  · rintro (h | ⟨candidate, hcandidate, hsame⟩)
    · obtain ⟨stored, hmem, hsame⟩ := stores_iff.mp h
      exact stores_iff.mpr ⟨stored, List.mem_append_left _ hmem, hsame⟩
    · by_cases hstores : s.stores table candidate = true
      · obtain ⟨stored, hmem, hkey, hprint⟩ := stores_iff.mp hstores
        exact stores_iff.mpr ⟨stored, List.mem_append_left _ hmem, hkey.trans hsame.1,
          hprint.trans hsame.2⟩
      · refine stores_iff.mpr ⟨_, List.mem_append_right _ (List.mem_map_of_mem ?_), hsame⟩
        exact List.mem_filter.mpr ⟨hcandidate, by simpa using hstores⟩

/-- Published contents stay stored. -/
theorem stores_publishAll_iff {publications : List (List C)} {row : C} :
    s.stores (s.publishAll publications) row = true ↔
      ∃ candidates ∈ publications, ∃ candidate ∈ candidates,
        s.key candidate = s.key row ∧ s.fingerprint candidate = s.fingerprint row := by
  induction publications using List.reverseRecOn with
  | nil => simp [publishAll, stores]
  | append_singleton before candidates ih =>
      rw [publishAll_snoc, stores_publishNew_iff, ih]
      simp [or_and_right, exists_or]

/-- **A publication stores its contents**, so that publishing it again adds no row. -/
theorem publishNew_again {table : List (Revision C)} {candidates : List C} :
    s.publishNew (s.publishNew table candidates) candidates = s.publishNew table candidates := by
  have hnone : candidates.filter (fun candidate =>
      !s.stores (s.publishNew table candidates) candidate) = [] := by
    rw [List.filter_eq_nil_iff]
    intro candidate hcandidate
    have hstored : s.stores (s.publishNew table candidates) candidate = true :=
      stores_publishNew_iff.mpr (.inr ⟨candidate, hcandidate, rfl, rfl⟩)
    simp [hstored]
  rw [RevisionScheme.publishNew, hnone, List.map_nil, List.append_nil]

omit [DecidableEq σ] in
/-- The row of the highest revision is the one that was appended last. -/
theorem Numbered.head {table : List (Revision C)} (h : s.Numbered table) (k : κ) :
    s.head table k = (s.revisionsOf table k).getLast? := by
  have hnumbers := h k
  unfold RevisionScheme.head
  rcases List.eq_nil_or_concat' (s.revisionsOf table k) with hnil | ⟨before, last, hlast⟩
  · rw [hnil]
    rfl
  · rw [hlast, List.getLast?_concat]
    rw [hlast, List.map_append, List.length_append, List.length_singleton, List.range_succ] at hnumbers
    obtain ⟨hbefore, hrevision⟩ := List.append_inj' hnumbers rfl
    have hlastRevision : last.revision = before.length := by simpa using hrevision
    rw [List.argmax_concat]
    cases hmax : before.argmax (·.revision) with
    | none => rfl
    | some best =>
        have hbest : best.revision < last.revision := by
          have hmem : best.revision ∈ before.map (·.revision) :=
            List.mem_map_of_mem (List.argmax_mem hmax)
          rw [hbefore] at hmem
          rw [hlastRevision]
          exact List.mem_range.mp hmem
        exact if_pos hbest

/-- The highest revision of a key after a publication. -/
theorem Numbered.head_publishNew {table : List (Revision C)} (h : s.Numbered table)
    {candidates : List C} (hone : s.OnePerKey candidates) (k : κ) :
    (s.head (s.publishNew table candidates) k).map (·.row) =
      ((candidates.find? (s.key · = k)).filter fun candidate => !s.stores table candidate).or
        ((s.head table k).map (·.row)) := by
  rw [(h.publishNew hone).head k, h.head k, revisionsOf_publishNew hone k]
  cases (candidates.find? (s.key · = k)).filter fun candidate => !s.stores table candidate with
  | none => simp
  | some candidate => simp

/-! ## The head of a key -/

variable (s) in
/-- Every key's highest revision carries the content that was published last. -/
def HeadsFollow (publications : List (List C)) : Prop :=
  ∀ k candidate, s.latest publications k = some candidate →
    ∃ stored ∈ s.head (s.publishAll publications) k,
      s.fingerprint stored.row = s.fingerprint candidate

variable (s) in
/-- A publication brings a key back to content that is stored below its highest revision. -/
def Reverts (table : List (Revision C)) (candidates : List C) : Prop :=
  ∃ candidate ∈ candidates, s.stores table candidate = true ∧
    ∀ stored ∈ s.head table (s.key candidate),
      s.fingerprint stored.row ≠ s.fingerprint candidate

omit [DecidableEq σ] in
theorem latest_snoc {publications : List (List C)} {candidates : List C} {k : κ} :
    s.latest (publications ++ [candidates]) k =
      (candidates.find? (s.key · = k)).or (s.latest publications k) := by
  simp only [latest, List.reverse_append, List.reverse_singleton, List.singleton_append,
    List.findSome?_cons]
  cases candidates.find? (s.key · = k) <;> rfl

omit [DecidableEq σ] in
/-- The candidate of its own key. -/
theorem OnePerKey.find? {candidates : List C} (h : s.OnePerKey candidates) {candidate : C}
    (hcandidate : candidate ∈ candidates) :
    candidates.find? (s.key · = s.key candidate) = some candidate := by
  cases hfind : candidates.find? (s.key · = s.key candidate) with
  | none =>
      have := List.find?_eq_none.mp hfind candidate hcandidate
      simp at this
  | some found =>
      have hkey : s.key found = s.key candidate := by simpa using List.find?_some hfind
      rw [List.inj_on_of_nodup_map h (List.mem_of_find?_eq_some hfind) hcandidate hkey]

/-- **One publication** leaves the heads right exactly where it does not revert. -/
theorem headsFollow_snoc {publications : List (List C)} {candidates : List C}
    (hone : ∀ earlier ∈ publications ++ [candidates], s.OnePerKey earlier)
    (h : s.HeadsFollow publications) :
    s.HeadsFollow (publications ++ [candidates]) ↔
      ¬s.Reverts (s.publishAll publications) candidates := by
  have hnumbered := numbered_publishAll (s := s) fun earlier hearlier =>
    hone earlier (List.mem_append_left _ hearlier)
  have hnow := hone candidates (by simp)
  have hhead := fun k => hnumbered.head_publishNew hnow k
  constructor
  · rintro hfollow ⟨candidate, hcandidate, hstored, hdiffers⟩
    obtain ⟨stored, hmem, hsame⟩ := hfollow (s.key candidate) candidate (by
      rw [latest_snoc, hnow.find? hcandidate]
      rfl)
    have hkept := hhead (s.key candidate)
    rw [hnow.find? hcandidate] at hkept
    rw [publishAll_snoc, Option.mem_def] at hmem
    rw [hmem, show (some candidate).filter (fun candidate =>
      !s.stores (s.publishAll publications) candidate) = none by
        simp [Option.filter, hstored]] at hkept
    obtain ⟨before, hbefore, hrow⟩ := Option.map_eq_some_iff.mp hkept.symm
    refine hdiffers before hbefore ?_
    rw [hrow]
    exact hsame
  · intro hnot k candidate hlatest
    rw [latest_snoc] at hlatest
    rw [publishAll_snoc]
    have hkept := hhead k
    cases hfind : candidates.find? (s.key · = k) with
    | none =>
        rw [hfind] at hlatest hkept
        obtain ⟨stored, hmem, hsame⟩ := h k candidate hlatest
        rw [Option.mem_def.mp hmem] at hkept
        obtain ⟨after, hafter, hrow⟩ := Option.map_eq_some_iff.mp hkept
        exact ⟨after, hafter, by rw [hrow]; exact hsame⟩
    | some found =>
        rw [hfind] at hlatest hkept
        obtain rfl : found = candidate := Option.some_inj.mp hlatest
        have hmem := List.mem_of_find?_eq_some hfind
        have hkey : s.key found = k := by simpa using List.find?_some hfind
        by_cases hstored : s.stores (s.publishAll publications) found = true
        · have hcurrent : ∃ stored ∈ s.head (s.publishAll publications) (s.key found),
              s.fingerprint stored.row = s.fingerprint found := by
            by_contra hnone
            exact hnot ⟨found, hmem, hstored, fun stored hstored' hsame =>
              hnone ⟨stored, hstored', hsame⟩⟩
          obtain ⟨stored, hhead, hsame⟩ := hcurrent
          rw [hkey, Option.mem_def] at hhead
          rw [hhead, show (some found).filter (fun candidate =>
            !s.stores (s.publishAll publications) candidate) = none by
              simp [Option.filter, hstored]] at hkept
          obtain ⟨after, hafter, hrow⟩ := Option.map_eq_some_iff.mp hkept
          exact ⟨after, hafter, by rw [hrow]; exact hsame⟩
        · rw [show (some found).filter (fun candidate =>
            !s.stores (s.publishAll publications) candidate) = some found by
              simp [Option.filter, hstored]] at hkept
          obtain ⟨after, hafter, hrow⟩ := Option.map_eq_some_iff.mp hkept
          exact ⟨after, hafter, by rw [hrow]⟩

theorem headsFollow_nil : s.HeadsFollow [] := by
  intro k candidate hlatest
  simp [latest] at hlatest

variable (s) in
/-- A publication brings a key back to content that it had in an earlier publication, but not in
the last one that has the key. -/
def GoesBack (before : List (List C)) (candidates : List C) : Prop :=
  ∃ candidate ∈ candidates,
    (∃ earlier ∈ before, ∃ other ∈ earlier,
      s.key other = s.key candidate ∧ s.fingerprint other = s.fingerprint candidate) ∧
    ∀ last ∈ s.latest before (s.key candidate), s.fingerprint last ≠ s.fingerprint candidate

omit [DecidableEq σ] in
theorem exists_latest {publications : List (List C)} {earlier : List C}
    (hearlier : earlier ∈ publications) {candidate : C} (hcandidate : candidate ∈ earlier) :
    ∃ last, s.latest publications (s.key candidate) = some last := by
  rw [← Option.isSome_iff_exists, latest, List.findSome?_isSome_iff]
  refine ⟨earlier, List.mem_reverse.mpr hearlier, ?_⟩
  rw [List.find?_isSome]
  exact ⟨candidate, hcandidate, by simp⟩

/-- Where the heads follow, what a publication reverts is told from the publications alone. -/
theorem HeadsFollow.reverts_iff {publications : List (List C)} (h : s.HeadsFollow publications)
    {candidates : List C} :
    s.Reverts (s.publishAll publications) candidates ↔ s.GoesBack publications candidates := by
  constructor
  · rintro ⟨candidate, hcandidate, hstored, hdiffers⟩
    refine ⟨candidate, hcandidate, stores_publishAll_iff.mp hstored, ?_⟩
    intro last hlast hsame
    obtain ⟨stored, hhead, hfollows⟩ := h _ last hlast
    exact hdiffers stored hhead (hfollows.trans hsame)
  · rintro ⟨candidate, hcandidate, hearlier, hdiffers⟩
    refine ⟨candidate, hcandidate, stores_publishAll_iff.mpr hearlier, ?_⟩
    intro stored hstored hsame
    obtain ⟨earlier, hmem, other, hother, hkey, -⟩ := hearlier
    obtain ⟨last, hlast⟩ := exists_latest (s := s) hmem hother
    rw [hkey] at hlast
    obtain ⟨head, hhead, hfollows⟩ := h _ last hlast
    obtain rfl : stored = head := Option.some_inj.mp (hstored.symm.trans hhead)
    exact hdiffers last hlast (hfollows.symm.trans hsame)

/-- **The heads follow the publications exactly where none goes back.** -/
theorem heads_follow_iff {publications : List (List C)}
    (hone : ∀ candidates ∈ publications, s.OnePerKey candidates) :
    (∀ before after, publications = before ++ after → s.HeadsFollow before) ↔
    ∀ before candidates after, publications = before ++ candidates :: after →
      ¬s.GoesBack before candidates := by
  constructor
  · intro hfollow before candidates after hsplit
    have hbefore := hfollow before (candidates :: after) hsplit
    rw [← hbefore.reverts_iff]
    refine (headsFollow_snoc ?_ hbefore).mp (hfollow _ after (by simp [hsplit]))
    intro earlier hearlier
    exact hone earlier (by rw [hsplit]; grind)
  · intro hnot before
    induction before using List.reverseRecOn with
    | nil => exact fun _ _ => headsFollow_nil
    | append_singleton before candidates ih =>
        intro after hsplit
        have hsplit' : publications = before ++ candidates :: after := by simpa using hsplit
        have hbefore := ih _ hsplit'
        refine (headsFollow_snoc ?_ hbefore).mpr ?_
        · intro earlier hearlier
          exact hone earlier (by rw [hsplit]; exact List.mem_append_left _ hearlier)
        · rw [hbefore.reverts_iff]
          exact hnot before candidates after hsplit'

/-! ## Content -/

variable (s) in
/-- Every key's highest revision carries, up to a relation, what was published last. -/
def HeadsCarry (Same : C → C → Prop) (table : List (Revision C)) (publications : List (List C)) :
    Prop :=
  ∀ k candidate, s.latest publications k = some candidate →
    ∃ stored ∈ s.head table k, Same stored.row candidate

/-- Stored rows were published. -/
theorem mem_publishAll {publications : List (List C)} {stored : Revision C}
    (h : stored ∈ s.publishAll publications) :
    ∃ candidates ∈ publications, stored.row ∈ candidates := by
  induction publications using List.reverseRecOn with
  | nil => cases h
  | append_singleton before candidates ih =>
      rw [publishAll_snoc] at h
      rcases List.mem_append.mp h with hbefore | hnew
      · obtain ⟨earlier, hearlier, hrow⟩ := ih hbefore
        exact ⟨earlier, List.mem_append_left _ hearlier, hrow⟩
      · obtain ⟨candidate, hcandidate, rfl⟩ := List.mem_map.mp hnew
        exact ⟨candidates, by simp, List.mem_of_mem_filter hcandidate⟩

omit [DecidableEq σ] in
theorem latest_eq_some {publications : List (List C)} {k : κ} {candidate : C}
    (h : s.latest publications k = some candidate) :
    s.key candidate = k ∧ ∃ candidates ∈ publications, candidate ∈ candidates := by
  obtain ⟨candidates, hcandidates, hfind⟩ := List.exists_of_findSome?_eq_some h
  exact ⟨by simpa using List.find?_some hfind, candidates, List.mem_reverse.mp hcandidates,
    List.mem_of_find?_eq_some hfind⟩

omit [DecidableEq σ] in
theorem head_eq_some {table : List (Revision C)} {k : κ} {stored : Revision C}
    (h : s.head table k = some stored) : s.key stored.row = k ∧ stored ∈ table := by
  have hmem := List.mem_filter.mp (List.argmax_mem h)
  exact ⟨of_decide_eq_true hmem.2, hmem.1⟩

/-- Where the fingerprint tells contents apart, heads that follow carry the content. -/
theorem headsCarry_iff {Same : C → C → Prop} {publications : List (List C)}
    (h : ∀ candidates ∈ publications, ∀ a ∈ candidates, ∀ others ∈ publications, ∀ b ∈ others,
      s.key a = s.key b → (s.fingerprint a = s.fingerprint b ↔ Same a b)) :
    s.HeadsCarry Same (s.publishAll publications) publications ↔ s.HeadsFollow publications := by
  have hsame : ∀ k candidate, s.latest publications k = some candidate →
      ∀ stored ∈ s.head (s.publishAll publications) k,
        (s.fingerprint stored.row = s.fingerprint candidate ↔ Same stored.row candidate) := by
    intro k candidate hlatest stored hstored
    obtain ⟨hkey, others, hothers, hcandidate⟩ := latest_eq_some hlatest
    obtain ⟨hstoredKey, hmem⟩ := head_eq_some hstored
    obtain ⟨candidates, hcandidates, hrow⟩ := mem_publishAll hmem
    exact h candidates hcandidates _ hrow others hothers _ hcandidate (hstoredKey.trans hkey.symm)
  constructor
  · intro hcarry k candidate hlatest
    obtain ⟨stored, hstored, hcontent⟩ := hcarry k candidate hlatest
    exact ⟨stored, hstored, (hsame k candidate hlatest stored hstored).mpr hcontent⟩
  · intro hfollow k candidate hlatest
    obtain ⟨stored, hstored, hprint⟩ := hfollow k candidate hlatest
    exact ⟨stored, hstored, (hsame k candidate hlatest stored hstored).mp hprint⟩

end RevisionScheme

end MiniLakehouse
