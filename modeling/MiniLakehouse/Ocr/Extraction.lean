import MiniLakehouse.Ocr.Output
import MiniLakehouse.Library.Splits

/-!
# Extraction

The loop of `_extract`, whatever members an archive delivers.  It leaves regular files and
directories strictly below the destination, each file written once and all of them within
the limit, also where it stops with an error; and it goes through exactly when every member
fits after the members before it.
-/

namespace MiniLakehouse.Ocr

/-! ## Names -/

/-- A name that an entry of a directory can have. -/
def IsName (part : String) : Prop :=
  part ≠ "" ∧ part ≠ "." ∧ part ≠ ".." ∧ '/' ∉ part.toList

/-- A path strictly below a directory. -/
def IsBelow (path : List String) : Prop := path ≠ [] ∧ ∀ part ∈ path, IsName part

theorem mem_of_mem_splitOn {text part : List Char} (hpart : part ∈ text.splitOn '/') {c : Char}
    (hc : c ∈ part) : c ∈ text := by
  induction text generalizing part with
  | nil =>
      rw [List.splitOn_nil, List.mem_singleton] at hpart
      rw [hpart] at hc
      exact absurd hc List.not_mem_nil
  | cons d rest ih =>
      rw [List.splitOn, List.splitOnP_cons_eq_if_modifyHead] at hpart
      by_cases hsep : (d == '/') = true
      · rw [if_pos hsep] at hpart
        rcases List.mem_cons.mp hpart with rfl | hpart
        · exact absurd hc List.not_mem_nil
        · exact List.mem_cons_of_mem _ (ih hpart hc)
      · rw [if_neg hsep] at hpart
        obtain ⟨first, parts, hparts⟩ :=
          List.exists_cons_of_ne_nil (List.splitOnP_ne_nil (· == '/') rest)
        rw [hparts, List.modifyHead_cons] at hpart
        have hrest : rest.splitOn '/' = first :: parts := hparts
        rcases List.mem_cons.mp hpart with rfl | hpart
        · rcases List.mem_cons.mp hc with rfl | hc
          · exact List.mem_cons_self
          · exact List.mem_cons_of_mem _ (ih (by rw [hrest]; exact List.mem_cons_self) hc)
        · exact List.mem_cons_of_mem _ (ih (by rw [hrest]; exact List.mem_cons_of_mem _ hpart) hc)

/-- A path without a null byte has none in its parts. -/
theorem hasNull_of_not_mem {path : String} (h : '\x00' ∉ path.toList) :
    hasNull (pathParts path) = false := by
  apply List.any_eq_false.mpr
  intro part hpart hcontains
  obtain ⟨hmem, -⟩ := List.mem_filter.mp hpart
  obtain ⟨chars, hchars, rfl⟩ := List.mem_map.mp hmem
  rw [String.toList_ofList, List.contains_iff_mem] at hcontains
  exact h (mem_of_mem_splitOn hchars hcontains)

/-- The parts of a normalized path are names. -/
theorem isName_of_normalized {name : String} (h : isNormalizedPath name = true) :
    ∀ part ∈ pathParts name, IsName part := by
  intro part hpart
  simp only [isNormalizedPath, Bool.and_eq_true, Bool.not_eq_true'] at h
  have hparent : part ≠ ".." := by
    rintro rfl
    have hcontains : (pathParts name).contains ".." = true := List.contains_iff_mem.mpr hpart
    rw [hcontains] at h
    exact absurd h.2 (by simp)
  obtain ⟨hmem, hreal⟩ := List.mem_filter.mp hpart
  obtain ⟨chars, hchars, rfl⟩ := List.mem_map.mp hmem
  simp only [Bool.and_eq_true, bne_iff_ne, ne_eq] at hreal
  refine ⟨hreal.1, hreal.2, hparent, ?_⟩
  rw [String.toList_ofList]
  exact separator_not_mem_splitOn _ chars hchars

/-! ## What is written -/

/-- The bytes of the files. -/
def ExtractedTree.written (tree : ExtractedTree) : Nat :=
  (tree.files.map fun file => file.2.length).sum

/-- Regular files and directories strictly below the destination, no path used twice. -/
structure ExtractedTree.Safe (tree : ExtractedTree) : Prop where
  files_below : ∀ file ∈ tree.files, IsBelow file.1
  directories_below : ∀ path ∈ tree.directories, path = [] ∨ IsBelow path
  written_once : (tree.files.map Prod.fst).Nodup
  apart : ∀ file ∈ tree.files, file.1 ∉ tree.directories
  destination : [] ∈ tree.directories

theorem ExtractedTree.safe_fresh : ExtractedTree.fresh.Safe where
  files_below := by simp [fresh]
  directories_below := by simp [fresh]
  written_once := List.nodup_nil
  apart := by simp [fresh]
  destination := List.mem_singleton.mpr rfl

theorem ExtractedTree.makeDirectory_ok {tree made : ExtractedTree} {path : List String}
    (h : tree.makeDirectory path = .ok made) :
    hasNull path = false ∧ (∀ file ∈ tree.files, ¬file.1 <+: path) ∧
      made = ⟨tree.files, tree.directories ++ path.inits⟩ := by
  unfold makeDirectory at h
  split at h
  · cases h
  · next hnull =>
      split at h
      · cases h
      · next hfree =>
          refine ⟨by simpa using hnull, ?_, (Except.ok.inj h).symm⟩
          intro file hfile hbegins
          exact hfree (List.any_eq_true.mpr ⟨file, hfile, List.isPrefixOf_iff_prefix.mpr hbegins⟩)

theorem ExtractedTree.createFile_ok {tree created : ExtractedTree} {path : List String}
    {body : Bytes} (h : tree.createFile path body = .ok created) :
    hasNull path = false ∧ path ∉ tree.files.map Prod.fst ∧ path ∉ tree.directories ∧
      created = ⟨tree.files ++ [(path, body)], tree.directories⟩ := by
  unfold createFile at h
  split at h
  · cases h
  · next hnull =>
      split at h
      · cases h
      · next hfree =>
          simp only [Bool.or_eq_true, List.any_eq_true, beq_iff_eq, List.contains_iff_mem,
            not_or, not_exists, not_and] at hfree
          refine ⟨by simpa using hnull, ?_, hfree.2, (Except.ok.inj h).symm⟩
          intro hmem
          obtain ⟨file, hfile, hpath⟩ := List.mem_map.mp hmem
          exact hfree.1 file hfile hpath

/-- Making a directory keeps a tree safe. -/
theorem ExtractedTree.Safe.makeDirectory {tree made : ExtractedTree} (h : tree.Safe)
    {path : List String} (hnames : ∀ part ∈ path, IsName part)
    (hmade : tree.makeDirectory path = .ok made) : made.Safe := by
  obtain ⟨-, hfree, rfl⟩ := makeDirectory_ok hmade
  refine ⟨h.files_below, ?_, h.written_once, ?_, List.mem_append_left _ h.destination⟩
  · intro directory hdirectory
    rcases List.mem_append.mp hdirectory with hdirectory | hdirectory
    · exact h.directories_below directory hdirectory
    · have hbegins := List.mem_inits _ _ |>.mp hdirectory
      by_cases hroot : directory = []
      · exact .inl hroot
      · exact .inr ⟨hroot, fun part hpart => hnames part (hbegins.subset hpart)⟩
  · intro file hfile hdirectory
    rcases List.mem_append.mp hdirectory with hdirectory | hdirectory
    · exact h.apart file hfile hdirectory
    · exact hfree file hfile (List.mem_inits _ _ |>.mp hdirectory)

/-- Creating a file keeps a tree safe. -/
theorem ExtractedTree.Safe.createFile {tree created : ExtractedTree} (h : tree.Safe)
    {path : List String} {body : Bytes} (hnames : ∀ part ∈ path, IsName part)
    (hcreated : tree.createFile path body = .ok created) :
    created.Safe ∧ created.written = tree.written + body.length := by
  obtain ⟨-, hfresh, hfree, rfl⟩ := createFile_ok hcreated
  have hroot : path ≠ [] := by
    intro hroot
    rw [hroot] at hfree
    exact hfree h.destination
  constructor
  · refine ⟨?_, h.directories_below, ?_, ?_, h.destination⟩
    · intro file hfile
      rcases List.mem_append.mp hfile with hfile | hfile
      · exact h.files_below file hfile
      · rw [List.mem_singleton.mp hfile]
        exact ⟨hroot, hnames⟩
    · rw [List.map_append]
      apply List.Nodup.append h.written_once (List.nodup_singleton _)
      intro other hother hpath
      rw [List.mem_singleton.mp hpath] at hother
      exact hfresh hother
    · intro file hfile
      rcases List.mem_append.mp hfile with hfile | hfile
      · exact h.apart file hfile
      · rw [List.mem_singleton.mp hfile]
        exact hfree
  · simp [written]

/-- A safe tree, and no more written than the sizes that were counted. -/
structure Extraction.Safe (maxBytes : Nat) (state : Extraction) : Prop where
  tree : state.tree.Safe
  counted : state.tree.written ≤ state.extractedBytes
  bounded : state.tree.written ≤ maxBytes

theorem Extraction.safe_start (maxBytes : Nat) : Extraction.start.Safe maxBytes where
  tree := ExtractedTree.safe_fresh
  counted := Nat.zero_le _
  bounded := Nat.zero_le _

/-- A regular file of a size within the limit. -/
theorem Extraction.Safe.extractFile {maxBytes : Nat} {state : Extraction} {path : List String}
    {size : Nat} (htree : state.tree.Safe) (hcounted : state.tree.written + size ≤ state.extractedBytes)
    (hbound : state.extractedBytes ≤ maxBytes) (hnames : ∀ part ∈ path, IsName part) (name : String)
    (body : Bytes) (failure : Option String) :
    (Ocr.extractFile state name path size body failure).1.Safe maxBytes := by
  have hcounted' : state.tree.written ≤ state.extractedBytes := by omega
  have hbounded : state.tree.written ≤ maxBytes := by omega
  unfold Ocr.extractFile
  split
  · exact ⟨htree, hcounted', hbounded⟩
  · next parents hparents =>
      have hsafe := htree.makeDirectory
        (fun part hpart => hnames part (List.dropLast_subset _ hpart)) hparents
      obtain ⟨-, -, rfl⟩ := ExtractedTree.makeDirectory_ok hparents
      have hsame : ExtractedTree.written
          ⟨state.tree.files, state.tree.directories ++ path.dropLast.inits⟩ = state.tree.written := rfl
      split
      · exact ⟨hsafe, by rw [hsame]; exact hcounted', by rw [hsame]; exact hbounded⟩
      · next created hcreated =>
          obtain ⟨hsafe', hwritten⟩ := hsafe.createFile hnames hcreated
          rw [hsame, List.length_take] at hwritten
          exact ⟨hsafe', by simp only [hwritten]; omega, by simp only [hwritten]; omega⟩

/-- Every member leaves what is safe, also one that is refused. -/
theorem Extraction.Safe.extractMember {maxBytes : Nat} {state : Extraction}
    (h : state.Safe maxBytes) (member : ArchiveMember) :
    (Ocr.extractMember maxBytes state member).1.Safe maxBytes := by
  unfold Ocr.extractMember
  split
  · exact h
  · split
    · exact h
    · next hnormalized =>
        have hnames := isName_of_normalized (by simpa using hnormalized)
        split
        · exact h
        · cases member.kind with
          | other => exact ⟨h.tree, h.counted, h.bounded⟩
          | directory =>
              dsimp only
              unfold Extraction.settle
              split
              · exact ⟨h.tree, h.counted, h.bounded⟩
              · next made hmade =>
                  have hsafe := h.tree.makeDirectory hnames hmade
                  obtain ⟨-, -, rfl⟩ := ExtractedTree.makeDirectory_ok hmade
                  exact ⟨hsafe, h.counted, h.bounded⟩
          | file size body failure =>
              dsimp only
              have hcounted := h.counted
              split
              · exact ⟨h.tree, hcounted.trans (Nat.le_add_right _ size), h.bounded⟩
              · next hfits =>
                  apply Extraction.Safe.extractFile
                  case htree => exact h.tree
                  case hcounted => exact Nat.add_le_add_right hcounted size
                  case hbound => exact not_lt.mp hfits
                  case hnames => exact hnames

theorem Extraction.Safe.extractMembers {maxBytes : Nat} {state : Extraction}
    (h : state.Safe maxBytes) (members : List ArchiveMember) :
    (Ocr.extractMembers maxBytes state members).1.Safe maxBytes := by
  induction members generalizing state with
  | nil => exact h
  | cons member members ih =>
      have hnext := h.extractMember member
      rw [Ocr.extractMembers]
      split
      · next stopped error hstopped =>
          rw [hstopped] at hnext
          exact hnext
      · next passed hpassed =>
          rw [hpassed] at hnext
          exact ih hnext

/-- **Extraction is safe.**  Whatever an archive delivers, the tree that is left holds regular
files and directories strictly below the destination, no path is written twice, and no more
than the limit is written. -/
theorem extract_safe [TarZst] (archive : Bytes) (maxBytes : Nat) :
    (extract archive maxBytes).1.Safe ∧ (extract archive maxBytes).1.written ≤ maxBytes := by
  have hsafe := (Extraction.safe_start maxBytes).extractMembers (TarZst.unpack archive).members
  exact ⟨hsafe.tree, hsafe.bounded⟩

/-! ## Which archives go through -/

def ArchiveMember.path (member : ArchiveMember) : List String := pathParts member.name

/-- The size that counts against the limit. -/
def ArchiveMember.size (member : ArchiveMember) : Nat :=
  match member.kind with
  | .file size _ _ => size
  | _ => 0

/-- The file that a member leaves. -/
def ArchiveMember.file (member : ArchiveMember) : Option (List String × Bytes) :=
  match member.kind with
  | .file size body _ => some (member.path, body.take size)
  | _ => none

/-- The directories that a member needs. -/
def ArchiveMember.directories (member : ArchiveMember) : List (List String) :=
  match member.kind with
  | .file _ _ _ => member.path.dropLast.inits
  | .directory => member.path.inits
  | .other => []

def declaredSize (members : List ArchiveMember) : Nat := (members.map ArchiveMember.size).sum

/-- The tree of members that went through. -/
def treeOf (members : List ArchiveMember) : ExtractedTree :=
  ⟨members.filterMap ArchiveMember.file, [] :: members.flatMap ArchiveMember.directories⟩

/-- Where the loop stands after them. -/
def stateAfter (members : List ArchiveMember) : Extraction :=
  ⟨members.length, declaredSize members, members.map ArchiveMember.path, treeOf members⟩

/-- No file of the tree is in the way of a directory. -/
def ExtractedTree.Admits (tree : ExtractedTree) (path : List String) : Prop :=
  ∀ file ∈ tree.files, ¬file.1 <+: path

/-- What is asked of every member: there are not too many, and its path is normalized and new. -/
def Named (before : List ArchiveMember) (member : ArchiveMember) : Prop :=
  before.length < maxMembers ∧ isNormalizedPath member.name = true ∧
    member.path ∉ before.map ArchiveMember.path

/-- A member that goes through after others. -/
def Fits (maxBytes : Nat) (before : List ArchiveMember) (member : ArchiveMember) : Prop :=
  Named before member ∧ hasNull member.path = false ∧
    match member.kind with
    | .directory => (treeOf before).Admits member.path
    | .file size body _ => declaredSize before + size ≤ maxBytes ∧
        (treeOf before).Admits member.path.dropLast ∧ member.path ∉ (treeOf before).directories ∧
        size ≤ body.length
    | .other => False

/-- A member whose path is handed to the operating system and has a null byte. -/
def MeetsNull (maxBytes : Nat) (before : List ArchiveMember) (member : ArchiveMember) : Prop :=
  Named before member ∧
    match member.kind with
    | .directory => hasNull member.path = true
    | .file size _ _ => declaredSize before + size ≤ maxBytes ∧ hasNull member.path = true ∧
        (hasNull member.path.dropLast = true ∨ (treeOf before).Admits member.path.dropLast)
    | .other => False

/-- Every member goes through after the members before it. -/
def AllFit (maxBytes : Nat) (members : List ArchiveMember) : Prop :=
  ∀ before member after, members = before ++ member :: after → Fits maxBytes before member

/-- The errors that the callers handle. -/
def Raised.isTyped : Raised → Bool
  | .invalidOcrArchive _ => true
  | .invalidPageMarkdownBundle _ => true
  | _ => false

theorem hasNull_dropLast {path : List String} (h : hasNull path = false) :
    hasNull path.dropLast = false := by
  simp only [hasNull, List.any_eq_false] at h ⊢
  exact fun part hpart => h part (List.dropLast_subset _ hpart)

theorem treeOf_files_paths {before : List ArchiveMember} {file : List String × Bytes}
    (h : file ∈ (treeOf before).files) : file.1 ∈ before.map ArchiveMember.path := by
  obtain ⟨member, hmember, hfile⟩ := List.mem_filterMap.mp h
  refine List.mem_map.mpr ⟨member, hmember, ?_⟩
  unfold ArchiveMember.file at hfile
  split at hfile
  · exact congrArg Prod.fst (Option.some.inj hfile)
  · cases hfile

theorem ExtractedTree.makeDirectory_of_null {tree : ExtractedTree} {path : List String}
    (h : hasNull path = true) : tree.makeDirectory path = .error embeddedNull := by
  rw [makeDirectory, if_pos h]

theorem ExtractedTree.makeDirectory_of_admits {tree : ExtractedTree} {path : List String}
    (hnull : hasNull path = false) (h : tree.Admits path) :
    tree.makeDirectory path = .ok ⟨tree.files, tree.directories ++ path.inits⟩ := by
  have hfree : ¬(tree.files.any fun file => file.1.isPrefixOf path) = true := by
    intro hany
    obtain ⟨file, hfile, hbegins⟩ := List.any_eq_true.mp hany
    exact h file hfile (List.isPrefixOf_iff_prefix.mp hbegins)
  rw [makeDirectory, if_neg (by simp [hnull]), if_neg hfree]

theorem ExtractedTree.makeDirectory_of_not_admits {tree : ExtractedTree} {path : List String}
    (hnull : hasNull path = false) (h : ¬tree.Admits path) :
    tree.makeDirectory path = .error fileExists := by
  have htaken : (tree.files.any fun file => file.1.isPrefixOf path) = true := by
    unfold Admits at h
    push Not at h
    obtain ⟨file, hfile, hbegins⟩ := h
    exact List.any_eq_true.mpr ⟨file, hfile, List.isPrefixOf_iff_prefix.mpr hbegins⟩
  rw [makeDirectory, if_neg (by simp [hnull]), if_pos htaken]

theorem ExtractedTree.createFile_of_null {tree : ExtractedTree} {path : List String} {body : Bytes}
    (h : hasNull path = true) : tree.createFile path body = .error embeddedNull := by
  rw [createFile, if_pos h]

/-- The file of a new path in a tree with its parents. -/
theorem ExtractedTree.createFile_fresh {before : List ArchiveMember} {path : List String}
    (hfresh : path ∉ before.map ArchiveMember.path) (hnull : hasNull path = false) (body : Bytes) :
    (ExtractedTree.createFile ⟨(treeOf before).files,
        (treeOf before).directories ++ path.dropLast.inits⟩ path body) =
      if path ∈ (treeOf before).directories then .error fileExists
      else .ok ⟨(treeOf before).files ++ [(path, body)],
        (treeOf before).directories ++ path.dropLast.inits⟩ := by
  have hfile : ((treeOf before).files.any fun file => file.1 == path) = false := by
    apply List.any_eq_false.mpr
    intro file hfile hsame
    rw [beq_iff_eq] at hsame
    exact hfresh (hsame ▸ treeOf_files_paths hfile)
  have hdirectory : path ∈ (treeOf before).directories ++ path.dropLast.inits ↔
      path ∈ (treeOf before).directories := by
    constructor
    · intro hmem
      rcases List.mem_append.mp hmem with hmem | hmem
      · exact hmem
      · have hlength := (List.mem_inits _ _ |>.mp hmem).length_le
        rw [List.length_dropLast] at hlength
        have hempty : path = [] := List.length_eq_zero_iff.mp (by omega)
        rw [hempty]
        exact List.mem_cons_self
    · exact List.mem_append_left _
  unfold createFile
  rw [if_neg (by simp [hnull])]
  simp only [hfile, Bool.false_or, List.contains_iff_mem, hdirectory]

/-- The loop goes on exactly after a member that fits. -/
theorem extractMember_of_fits {maxBytes : Nat} {before : List ArchiveMember}
    {member : ArchiveMember} (h : Fits maxBytes before member) :
    extractMember maxBytes (stateAfter before) member = (stateAfter (before ++ [member]), none) := by
  obtain ⟨⟨hcount, hnormalized, hfresh⟩, hnull, hkind⟩ := h
  have hseen : ¬(before.map ArchiveMember.path).contains (pathParts member.name) = true := by
    rw [List.contains_iff_mem]
    exact hfresh
  unfold extractMember stateAfter
  rw [if_neg (not_le.mpr hcount), if_neg (by simp [hnormalized]), if_neg hseen]
  have hpath : pathParts member.name = member.path := rfl
  unfold treeOf declaredSize at *
  cases hmember : member.kind with
  | other => simp [hmember] at hkind
  | directory =>
      simp only [hmember] at hkind
      have hmade := ExtractedTree.makeDirectory_of_admits hnull hkind
      simp only [hpath, hmade, Extraction.settle, Prod.mk.injEq, and_true]
      simp [ArchiveMember.file, ArchiveMember.size, ArchiveMember.directories, hmember]
  | file size body failure =>
      simp only [hmember] at hkind
      obtain ⟨hsize, hadmits, hfree, hwhole⟩ := hkind
      have hmade := ExtractedTree.makeDirectory_of_admits (hasNull_dropLast hnull) hadmits
      have hcreated := ExtractedTree.createFile_fresh hfresh hnull (body.take size)
      unfold treeOf at hcreated
      rw [if_neg hfree] at hcreated
      simp only [hpath, not_lt.mpr hsize, if_false, extractFile, hmade, hcreated, copyFailure, hwhole,
        if_true, Prod.mk.injEq, and_true]
      simp [ArchiveMember.file, ArchiveMember.size, ArchiveMember.directories, hmember]

/-- The loop stops at any other member, with an error that is not typed exactly where a null
byte is met. -/
theorem extractMember_of_not_fits {maxBytes : Nat} {before : List ArchiveMember}
    {member : ArchiveMember} (h : ¬Fits maxBytes before member) :
    ∃ state error, extractMember maxBytes (stateAfter before) member = (state, some error) ∧
      (error.isTyped = false ↔ MeetsNull maxBytes before member) := by
  by_cases hnamed : Named before member
  case neg =>
    have hnever : ¬MeetsNull maxBytes before member := fun hnull => hnamed hnull.1
    have htyped : ∀ message, (Raised.invalidOcrArchive message).isTyped = false ↔
        MeetsNull maxBytes before member := by
      intro message
      exact iff_of_false (by simp [Raised.isTyped]) hnever
    unfold extractMember stateAfter
    dsimp only
    split
    · exact ⟨_, _, rfl, htyped _⟩
    · next hcount =>
        split
        · exact ⟨_, _, rfl, htyped _⟩
        · next hnormalized =>
            split
            · exact ⟨_, _, rfl, htyped _⟩
            · next hseen =>
                refine absurd ⟨not_le.mp hcount, by simpa using hnormalized, ?_⟩ hnamed
                rw [List.contains_iff_mem] at hseen
                exact hseen
  case pos =>
    obtain ⟨hcount, hnormalized, hfresh⟩ := id hnamed
    have hseen : ¬(before.map ArchiveMember.path).contains (pathParts member.name) = true := by
      rw [List.contains_iff_mem]
      exact hfresh
    have hpath : pathParts member.name = member.path := rfl
    unfold extractMember stateAfter
    dsimp only
    rw [if_neg (not_le.mpr hcount), if_neg (by simp [hnormalized]), if_neg hseen]
    unfold Fits at h
    unfold MeetsNull
    cases hmember : member.kind with
    | other => exact ⟨_, _, rfl, by simp [Raised.isTyped]⟩
    | directory =>
        simp only [hmember, hpath] at h ⊢
        by_cases hnull : hasNull member.path = true
        · rw [ExtractedTree.makeDirectory_of_null hnull]
          exact ⟨_, _, rfl, by simp [embeddedNull, Raised.isTyped, hnamed, hnull]⟩
        · have hclean : hasNull member.path = false := by simpa using hnull
          have htaken : ¬(treeOf before).Admits member.path :=
            fun hadmits => h ⟨hnamed, hclean, hadmits⟩
          rw [ExtractedTree.makeDirectory_of_not_admits hclean htaken]
          exact ⟨_, _, rfl, by simp [fileExists, Raised.isTyped, hnull]⟩
    | file size body failure =>
        simp only [hmember, hpath] at h ⊢
        by_cases hsize : maxBytes < declaredSize before + size
        · rw [if_pos hsize]
          exact ⟨_, _, rfl, by simp [Raised.isTyped, hsize]⟩
        · rw [if_neg hsize]
          have hbound : declaredSize before + size ≤ maxBytes := not_lt.mp hsize
          unfold extractFile
          by_cases hparent : hasNull member.path.dropLast = true
          · have hnull : hasNull member.path = true := by
              by_contra hclean
              rw [hasNull_dropLast (by simpa using hclean)] at hparent
              exact absurd hparent (by simp)
            rw [ExtractedTree.makeDirectory_of_null hparent]
            exact ⟨_, _, rfl, by simp [embeddedNull, Raised.isTyped, hnamed, hbound, hnull, hparent]⟩
          · have hcleanParent : hasNull member.path.dropLast = false := by simpa using hparent
            by_cases hadmits : (treeOf before).Admits member.path.dropLast
            · rw [ExtractedTree.makeDirectory_of_admits hcleanParent hadmits]
              dsimp only
              by_cases hnull : hasNull member.path = true
              · rw [ExtractedTree.createFile_of_null hnull]
                exact ⟨_, _, rfl,
                  by simp [embeddedNull, Raised.isTyped, hnamed, hbound, hnull, hadmits]⟩
              · have hclean : hasNull member.path = false := by simpa using hnull
                rw [ExtractedTree.createFile_fresh hfresh hclean]
                by_cases hfree : member.path ∈ (treeOf before).directories
                · rw [if_pos hfree]
                  exact ⟨_, _, rfl, by simp [fileExists, Raised.isTyped, hnull]⟩
                · rw [if_neg hfree]
                  have hshort : ¬size ≤ body.length :=
                    fun hwhole => h ⟨hnamed, hclean, hbound, hadmits, hfree, hwhole⟩
                  simp only [copyFailure, if_neg hshort]
                  cases failure with
                  | some message => exact ⟨_, _, rfl, by simp [Raised.isTyped, hnull]⟩
                  | none => exact ⟨_, _, rfl, by simp [Raised.isTyped, hnull]⟩
            · rw [ExtractedTree.makeDirectory_of_not_admits hcleanParent hadmits]
              exact ⟨_, _, rfl, by simp [fileExists, Raised.isTyped, hparent, hadmits]⟩

theorem AllFit.snoc {maxBytes : Nat} {members : List ArchiveMember} {member : ArchiveMember}
    (h : AllFit maxBytes members) (hfits : Fits maxBytes members member) :
    AllFit maxBytes (members ++ [member]) := by
  intro before other after hsplit
  rcases List.eq_nil_or_concat after with rfl | ⟨init, last, rfl⟩
  · obtain ⟨rfl, hother⟩ := List.append_inj' hsplit rfl
    obtain rfl := List.head_eq_of_cons_eq hother
    exact hfits
  · have hsplit' : members ++ [member] = (before ++ other :: init) ++ [last] := by simpa using hsplit
    obtain ⟨hmembers, -⟩ := List.append_inj' hsplit' rfl
    exact h before other init hmembers

/-- The first member that does not fit, after members that do. -/
def StopsAt (maxBytes : Nat) (members before : List ArchiveMember) (member : ArchiveMember) : Prop :=
  (∃ after, members = before ++ member :: after) ∧ AllFit maxBytes before ∧
    ¬Fits maxBytes before member

/-- The loop from the members before on: it goes through, or stops at the first member that does
not fit. -/
theorem extractMembers_cases {maxBytes : Nat} (members before : List ArchiveMember)
    (h : AllFit maxBytes before) :
    (AllFit maxBytes (before ++ members) ∧
      extractMembers maxBytes (stateAfter before) members = (stateAfter (before ++ members), none)) ∨
    ∃ passed member, StopsAt maxBytes (before ++ members) passed member ∧
      ∃ state error, extractMembers maxBytes (stateAfter before) members = (state, some error) ∧
        (error.isTyped = false ↔ MeetsNull maxBytes passed member) := by
  induction members generalizing before with
  | nil => exact .inl ⟨by simpa using h, by simp [extractMembers]⟩
  | cons member members ih =>
      by_cases hfits : Fits maxBytes before member
      · have hnext := ih (before ++ [member]) (h.snoc hfits)
        rw [List.append_assoc, List.singleton_append] at hnext
        rw [extractMembers, extractMember_of_fits hfits]
        exact hnext
      · obtain ⟨state, error, hstopped, htyped⟩ := extractMember_of_not_fits hfits
        refine .inr ⟨before, member, ⟨⟨members, rfl⟩, h, hfits⟩, state, error, ?_, htyped⟩
        rw [extractMembers, hstopped]

/-- A list has one first member that does not fit. -/
theorem StopsAt.unique {maxBytes : Nat} {members before before' : List ArchiveMember}
    {member member' : ArchiveMember} (h : StopsAt maxBytes members before member)
    (h' : StopsAt maxBytes members before' member') : before = before' ∧ member = member' := by
  -- the shorter of two beginnings would end in a member that fits
  have hshort : ∀ {first second : List ArchiveMember} {one other : ArchiveMember},
      StopsAt maxBytes members first one → StopsAt maxBytes members second other →
      ¬first.length < second.length := by
    intro first second one other hfirst hsecond hlt
    obtain ⟨⟨after, hsplit⟩, -, hstops⟩ := hfirst
    obtain ⟨⟨after', hsplit'⟩, hall, -⟩ := hsecond
    have hone : first ++ [one] <+: members := ⟨after, by simp [hsplit]⟩
    have hother : second <+: members := ⟨other :: after', hsplit'.symm⟩
    obtain ⟨rest, hrest⟩ := List.prefix_of_prefix_length_le hone hother (by simpa using hlt)
    exact hstops (hall first one rest (by simp [← hrest]))
  have hlength : before.length = before'.length := by
    have hle := hshort h h'
    have hge := hshort h' h
    omega
  obtain ⟨⟨after, hsplit⟩, -, -⟩ := h
  obtain ⟨⟨after', hsplit'⟩, -, -⟩ := h'
  obtain ⟨hbefore, hrest⟩ := List.append_inj (hsplit.symm.trans hsplit') hlength
  exact ⟨hbefore, List.head_eq_of_cons_eq hrest⟩

theorem MeetsNull.not_fits {maxBytes : Nat} {before : List ArchiveMember} {member : ArchiveMember}
    (h : MeetsNull maxBytes before member) : ¬Fits maxBytes before member := by
  intro hfits
  obtain ⟨-, hclean, -⟩ := hfits
  obtain ⟨-, hkind⟩ := h
  split at hkind
  · rw [hclean] at hkind
    cases hkind
  · rw [hclean] at hkind
    cases hkind.2.1
  · exact hkind

/-- A member with a null byte is reached. -/
def ReachesNull (maxBytes : Nat) (members : List ArchiveMember) : Prop :=
  ∃ before member after, members = before ++ member :: after ∧ AllFit maxBytes before ∧
    MeetsNull maxBytes before member

theorem AllFit.not_reachesNull {maxBytes : Nat} {members : List ArchiveMember}
    (h : AllFit maxBytes members) : ¬ReachesNull maxBytes members := by
  intro hreaches
  obtain ⟨before, member, after, hsplit, -, hnull⟩ := hreaches
  exact hnull.not_fits (h before member after hsplit)

variable [TarZst]

/-- **What extraction comes to.**  It leaves all of an archive whose members all fit and that
ends as it should; otherwise it raises, with an error that is not typed exactly where a member
with a null byte is reached. -/
theorem extract_cases (archive : Bytes) (maxBytes : Nat) :
    (AllFit maxBytes (TarZst.unpack archive).members ∧ (TarZst.unpack archive).failure = none ∧
      extract archive maxBytes = (treeOf (TarZst.unpack archive).members, none)) ∨
    (¬(AllFit maxBytes (TarZst.unpack archive).members ∧ (TarZst.unpack archive).failure = none) ∧
      ∃ tree error, extract archive maxBytes = (tree, some error) ∧
        (error.isTyped = false ↔ ReachesNull maxBytes (TarZst.unpack archive).members)) := by
  have hempty : AllFit maxBytes [] := by
    intro before member after hsplit
    simp at hsplit
  have hstart : Extraction.start = stateAfter [] := rfl
  unfold extract
  dsimp only
  rw [hstart]
  rcases extractMembers_cases (TarZst.unpack archive).members [] hempty with
    ⟨hall, hrun⟩ | ⟨before, member, hstops, state, error, hrun, htyped⟩
  · rw [List.nil_append] at hall hrun
    rw [hrun]
    cases hfailure : (TarZst.unpack archive).failure with
    | none => exact .inl ⟨hall, rfl, rfl⟩
    | some message =>
        refine .inr ⟨fun hboth => by simp at hboth, _, _, rfl, ?_⟩
        exact iff_of_false (by simp [Raised.isTyped]) hall.not_reachesNull
  · rw [List.nil_append] at hstops
    obtain ⟨⟨after, hsplit⟩, hbefore, hnot⟩ := id hstops
    rw [hrun]
    refine .inr ⟨fun hboth => hnot (hboth.1 before member after hsplit), _, _, rfl, ?_⟩
    rw [htyped]
    constructor
    · exact fun hnull => ⟨before, member, after, hsplit, hbefore, hnull⟩
    · intro hreaches
      obtain ⟨before', member', after', hsplit', hbefore', hnull⟩ := hreaches
      have hstops' : StopsAt maxBytes (TarZst.unpack archive).members before' member' :=
        ⟨⟨after', hsplit'⟩, hbefore', hnull.not_fits⟩
      obtain ⟨rfl, rfl⟩ := hstops.unique hstops'
      exact hnull

end MiniLakehouse.Ocr
