import MiniLakehouse.Ocr.Rejections

/-!
# Committed documents

The texts, the elements, the files and the archive that the worker writes for a document: lines
of elements are read as the elements, positions and identities of elements are unique, the
directory keeps its two texts under the images that are moved into it, and the archive of such a
directory goes through unless it has too many members.
-/

namespace MiniLakehouse.Ocr

variable {D : Type} [ContentHash D]

/-! ## Texts -/

theorem require_bind_eq_ok {α : Type} {p : Prop} [Decidable p] {error : Raised}
    {rest : Unit → Except Raised α} {result : α} :
    (require p error >>= rest) = .ok result ↔ p ∧ rest () = .ok result := by
  rw [bind_eq_ok]
  constructor
  · exact fun ⟨_, hchecked, hrest⟩ => ⟨require_eq_ok.mp hchecked, hrest⟩
  · exact fun hboth => ⟨(), require_of hboth.1, hboth.2⟩

/-- A dumped value is validated as the value it spells. -/
theorem validateJson_dumps {α : Type} {validate : JsonValue → Except Raised α} {value : JsonValue}
    {style : JsonStyle} (hstyle : style.Blank) (hwell : value.WellFormed id) :
    validateJson validate (utf8 (value.dumps style)) = validate value := by
  simp [validateJson, loads_dumps hstyle hwell]

/-- The line of an element. -/
def elementLine (element : OcrElement D) : Bytes := utf8 (element.modelDump.dumps .compact) ++ [10]

theorem elementLines_eq (elements : List (OcrElement D)) :
    elementLines elements = elements.flatMap elementLine := rfl

theorem validateJson_elementLine (element : OcrElement D) :
    validateJson OcrElement.modelValidate (elementLine element) = .ok element := by
  have hspace : ∀ c ∈ ['\n'], isJsonSpace c = true := by simp [isJsonSpace]
  have hwell : element.modelDump.WellFormed id := element.modelDump_wellFormed
  have hloads := loads_dumps_append compact_blank hwell ['\n'] hspace
  have hline : elementLine element =
      utf8 (element.modelDump.dumps .compact ++ String.ofList ['\n']) := by
    rw [utf8_append]
    rfl
  rw [hline, validateJson, utf8Decode_utf8, Option.bind_some, hloads]
  exact element.modelValidate_modelDump

/-! ## Lines -/

theorem splitLines_append {line rest : Bytes} (h : 10 ∉ line) :
    splitLines (line ++ 10 :: rest) = (line ++ [10]) :: splitLines rest := by
  induction line with
  | nil => simp [splitLines]
  | cons byte line ih =>
      have hbyte : byte ≠ 10 := fun hsame => h (by simp [hsame])
      have hline : 10 ∉ line := fun hmem => h (List.mem_cons_of_mem _ hmem)
      rw [List.cons_append, splitLines, if_neg hbyte, ih hline]
      rfl

theorem splitLines_elementLines (elements : List (OcrElement D)) :
    splitLines (elementLines elements) = elements.map elementLine := by
  induction elements with
  | nil => rfl
  | cons element elements ih =>
      have hwell : element.modelDump.WellFormed id := element.modelDump_wellFormed
      have hfeed := lineFeed_not_mem_dumps hwell
      have hcons : elementLines (element :: elements) =
          utf8 (element.modelDump.dumps .compact) ++ 10 :: elementLines elements := by
        simp [elementLines]
      rw [hcons, splitLines_append hfeed, ih]
      rfl

/-- Lines of elements are read as the elements, within the limit. -/
theorem readElementLines_written (limit : Nat) (elements : List (OcrElement D))
    (number consumed : Nat)
    (h : consumed + ((elements.map elementLine).map List.length).sum ≤ limit) :
    readElementLines limit number consumed (elements.map elementLine) = .ok elements := by
  induction elements generalizing number consumed with
  | nil => rfl
  | cons element elements ih =>
      simp only [List.map_cons, List.sum_cons] at h
      have hline : consumed + (elementLine element).length ≤ limit := by omega
      have hrest := ih (number + 1) (consumed + (elementLine element).length) (by
        simp only [List.map_map] at h ⊢
        omega)
      rw [List.map_cons, readElementLines, require_of hline, ok_bind, validateJson_elementLine]
      simp [Except.mapError, hrest]

/-! ## Elements -/

/-- An element of a page and a reading order, identified by both. -/
def IdentifiedAt (processing : D) (pageNumber readingOrder : Nat) (element : OcrElement D) : Prop :=
  element.pageNumber = pageNumber ∧ element.readingOrder = readingOrder ∧
    element.elementId = elementIdentity processing pageNumber readingOrder

/-- Before another one in the order of pages and reading. -/
def ReadBefore (first second : OcrElement D) : Prop :=
  first.pageNumber < second.pageNumber ∨
    (first.pageNumber = second.pageNumber ∧ first.readingOrder < second.readingOrder)

theorem canonicalElement_identified {processing : D} {pageIndex readingOrder imageCounter : Nat}
    {block : Block} {made : OcrElement D × Nat}
    (h : canonicalElement processing pageIndex readingOrder imageCounter block = .ok made) :
    IdentifiedAt processing pageIndex readingOrder made.1 := by
  unfold canonicalElement at h
  simp only [bind_eq_ok, pure_eq_ok] at h
  obtain ⟨-, -, content, -, markdown, -, element, helement, rfl⟩ := h
  obtain ⟨-, rfl⟩ := validated_eq_ok.mp helement
  exact ⟨rfl, rfl, rfl⟩

/-- The elements of a page are numbered from a reading order on. -/
theorem pageElements_identified {processing : D} {pageIndex readingOrder imageCounter : Nat}
    {blocks : List Block} {made : List (OcrElement D) × Nat}
    (h : pageElements processing pageIndex readingOrder imageCounter blocks = .ok made) :
    (∀ element ∈ made.1, readingOrder ≤ element.readingOrder ∧
      IdentifiedAt processing pageIndex element.readingOrder element) ∧
    made.1.Pairwise ReadBefore := by
  induction blocks generalizing readingOrder imageCounter made with
  | nil =>
      obtain rfl := Except.ok.inj h
      exact ⟨by simp, .nil⟩
  | cons block blocks ih =>
      simp only [pageElements, bind_eq_ok, pure_eq_ok] at h
      obtain ⟨first, hfirst, rest, hrest, rfl⟩ := h
      obtain ⟨hpage, horder, hidentity⟩ := canonicalElement_identified hfirst
      obtain ⟨hlater, hordered⟩ := ih hrest
      constructor
      · intro element helement
        rcases List.mem_cons.mp helement with rfl | helement
        · exact ⟨horder.ge, hpage, rfl, by rw [horder]; exact hidentity⟩
        · obtain ⟨hle, hidentified⟩ := hlater element helement
          exact ⟨by omega, hidentified⟩
      · refine List.pairwise_cons.mpr ⟨?_, hordered⟩
        intro element helement
        obtain ⟨hle, hsame, -⟩ := hlater element helement
        exact .inr ⟨hpage.trans hsame.symm, by omega⟩

/-- The elements of a document are identified by their positions, in the order of reading. -/
theorem documentElements_identified {processing : D} {pageIndex imageCounter : Nat}
    {pages : List (List Block)} {elements : List (OcrElement D)}
    (h : documentElements processing pageIndex imageCounter pages = .ok elements) :
    (∀ element ∈ elements, pageIndex ≤ element.pageNumber ∧
      IdentifiedAt processing element.pageNumber element.readingOrder element) ∧
    elements.Pairwise ReadBefore := by
  induction pages generalizing pageIndex imageCounter elements with
  | nil =>
      obtain rfl := Except.ok.inj h
      exact ⟨by simp, .nil⟩
  | cons page pages ih =>
      simp only [documentElements, bind_eq_ok, pure_eq_ok] at h
      obtain ⟨first, hfirst, rest, hrest, rfl⟩ := h
      obtain ⟨hpage, hordered⟩ := pageElements_identified hfirst
      obtain ⟨hlater, hordered'⟩ := ih hrest
      constructor
      · intro element helement
        rcases List.mem_append.mp helement with helement | helement
        · obtain ⟨-, hnumber, -, hidentity⟩ := hpage element helement
          exact ⟨hnumber.ge, rfl, rfl, by rw [hnumber]; exact hidentity⟩
        · obtain ⟨hle, hidentified⟩ := hlater element helement
          exact ⟨by omega, hidentified⟩
      · refine List.pairwise_append.mpr ⟨hordered, hordered', ?_⟩
        intro element helement other hother
        obtain ⟨-, hnumber, -⟩ := hpage element helement
        obtain ⟨hle, -⟩ := hlater other hother
        exact .inl (by omega)

theorem elementIdentity_inj (hdistinct : DistinctDigests D) {processing : D}
    {page order page' order' : Nat}
    (h : elementIdentity processing page order = elementIdentity processing page' order') :
    page = page' ∧ order = order' := by
  have hwell : ∀ page order : Nat, (JsonValue.obj [("page_number", .int page),
      ("processing_id", hexValueOf processing), ("reading_order", .int order)]).WellFormed id := by
    intro page order
    simp [JsonValue.WellFormed, MembersWellFormed, hexValueOf]
  have hsorted := sortKeys_eq_of_canonicalJsonBytes (hwell page order) (hwell page' order')
    (hdistinct h)
  have hmembers := JsonValue.obj.inj hsorted
  have hpage : ("page_number", JsonValue.int page) ∈ sortOn Prod.fst (sortKeysMembers
      [("page_number", .int page'), ("processing_id", hexValueOf processing),
        ("reading_order", .int order')]) := by
    rw [← hmembers, mem_sortOn]
    simp [sortKeysMembers, JsonValue.sortKeys]
  have horder : ("reading_order", JsonValue.int order) ∈ sortOn Prod.fst (sortKeysMembers
      [("page_number", .int page'), ("processing_id", hexValueOf processing),
        ("reading_order", .int order')]) := by
    rw [← hmembers, mem_sortOn]
    simp [sortKeysMembers, JsonValue.sortKeys]
  rw [mem_sortOn] at hpage horder
  simp only [sortKeysMembers, JsonValue.sortKeys, List.mem_cons, Prod.mk.injEq] at hpage horder
  simpa using And.intro hpage horder

/-- The positions and the identities of ordered elements are unique. -/
theorem elements_unique (hdistinct : DistinctDigests D) {processing : D}
    {elements : List (OcrElement D)} (hidentified : ∀ element ∈ elements,
      IdentifiedAt processing element.pageNumber element.readingOrder element)
    (hordered : elements.Pairwise ReadBefore) :
    (elements.map fun element => element.elementId).Nodup ∧
      (elements.map fun element => (element.pageNumber, element.readingOrder)).Nodup := by
  have hpositions : ∀ {first second : OcrElement D}, ReadBefore first second →
      ¬(first.pageNumber = second.pageNumber ∧ first.readingOrder = second.readingOrder) := by
    intro first second hbefore hsame
    rcases hbefore with hpage | ⟨-, horder⟩
    · omega
    · omega
  constructor
  · apply List.pairwise_map.mpr
    apply hordered.imp_of_mem
    intro first second hfirst hsecond hbefore hsame
    obtain ⟨-, -, hid⟩ := hidentified first hfirst
    obtain ⟨-, -, hid'⟩ := hidentified second hsecond
    rw [hid, hid'] at hsame
    exact hpositions hbefore (elementIdentity_inj hdistinct hsame)
  · apply List.pairwise_map.mpr
    apply hordered.imp
    intro first second hbefore hsame
    exact hpositions hbefore (Prod.mk.inj hsame)

/-! ## The files of a document -/

/-- No name has a null byte, and no path stands twice. -/
def Directory.Named (directory : Directory) : Prop :=
  (directory.map Prod.fst).Nodup ∧ ∀ file ∈ directory, '\x00' ∉ file.1.toList

theorem Directory.Named.put {directory : Directory} (h : directory.Named) {path : String}
    (hpath : '\x00' ∉ path.toList) (body : Bytes) : (directory.put path body).Named := by
  unfold Directory.put
  constructor
  · rw [List.map_append]
    apply List.Nodup.append
    · exact h.1.sublist (List.filter_sublist.map Prod.fst)
    · exact List.nodup_singleton _
    · intro name hname hsame
      obtain ⟨file, hfile, rfl⟩ := List.mem_map.mp hname
      have hother := (List.mem_filter.mp hfile).2
      rw [decide_eq_true_eq] at hother
      exact hother (List.mem_singleton.mp hsame)
  · intro file hfile
    rcases List.mem_append.mp hfile with hfile | hfile
    · exact h.2 file (List.mem_filter.mp hfile).1
    · rw [List.mem_singleton.mp hfile]
      exact hpath

theorem Directory.mem_put {directory : Directory} {file : String × Bytes} (h : file ∈ directory)
    {path : String} (hother : file.1 ≠ path) (body : Bytes) : file ∈ directory.put path body :=
  List.mem_append_left _ (List.mem_filter.mpr ⟨h, by simpa using hother⟩)

/-- The two files of the text stay in a directory that images are moved into. -/
structure Directory.Keeps (directory : Directory) (pages elements : Bytes) : Prop where
  named : directory.Named
  pages : (pageMarkdownBundlePath, pages) ∈ directory
  elements : (elementsPath, elements) ∈ directory

theorem Directory.Keeps.put {directory : Directory} {pages elements : Bytes}
    (h : directory.Keeps pages elements) {path : String} (hpath : '\x00' ∉ path.toList)
    (hpages : pageMarkdownBundlePath ≠ path) (helements : elementsPath ≠ path) (body : Bytes) :
    (directory.put path body).Keeps pages elements :=
  ⟨h.named.put hpath body, mem_put h.pages hpages body, mem_put h.elements helements body⟩

theorem first_char_ne {left right : String} (h : left.toList.head? ≠ right.toList.head?) :
    left ≠ right := fun hsame => h (by rw [hsame])

theorem head?_append {first rest : String} {c : Char} (h : first.toList.head? = some c) :
    (first ++ rest).toList.head? = some c := by
  rw [String.toList_append]
  cases hfirst : first.toList with
  | nil => simp [hfirst] at h
  | cons d chars => simpa [hfirst] using h

theorem null_not_mem_fourDigits (value : Nat) : '\x00' ∉ (fourDigits value).toList := by
  unfold fourDigits
  dsimp only
  rw [String.toList_ofList]
  intro hnull
  rcases List.mem_append.mp hnull with hnull | hnull
  · exact absurd (List.mem_replicate.mp hnull).2 (by decide)
  · have hdigit := Nat.isDigit_of_mem_toDigits (by decide) (by decide) hnull
    exact absurd hdigit (by decide)

theorem moveVisualizations_keeps {pages elements : Bytes} (sources : List (String × Bytes))
    (pageNumber : Nat) (directory : Directory) (h : directory.Keeps pages elements) :
    (moveVisualizations pageNumber sources directory).Keeps pages elements := by
  induction sources generalizing pageNumber directory with
  | nil => exact h
  | cons source sources ih =>
      apply ih
      have hhead : ("layout_vis/page-" ++ fourDigits pageNumber ++ ".jpg").toList.head? = some 'l' := by
        rw [String.append_assoc]
        exact head?_append rfl
      apply h.put
      case hpages => exact first_char_ne (by rw [hhead]; decide)
      case helements => exact first_char_ne (by rw [hhead]; decide)
      case hpath =>
        rw [String.toList_append, String.toList_append]
        intro hnull
        rcases List.mem_append.mp hnull with hnull | hnull
        · rcases List.mem_append.mp hnull with hnull | hnull
          · revert hnull
            decide
          · exact null_not_mem_fourDigits pageNumber hnull
        · revert hnull
          decide

theorem moveImages_keeps {pages elements : Bytes} {images : List (String × Option Bytes)}
    (hnamed : ∀ entry ∈ images, '\x00' ∉ entry.1.toList) {directory moved : Directory}
    (h : directory.Keeps pages elements) (hmoved : moveImages images directory = .ok moved) :
    moved.Keeps pages elements := by
  induction images generalizing directory with
  | nil =>
      obtain rfl := Except.ok.inj hmoved
      exact h
  | cons image images ih =>
      obtain ⟨name, body⟩ := image
      cases body with
      | none => cases hmoved
      | some body =>
          have hhead : ("imgs/" ++ name).toList.head? = some 'i' := head?_append rfl
          refine ih (fun entry hentry => hnamed entry (List.mem_cons_of_mem _ hentry)) ?_ hmoved
          apply h.put
          case hpages => exact first_char_ne (by rw [hhead]; decide)
          case helements => exact first_char_ne (by rw [hhead]; decide)
          case hpath =>
            rw [String.toList_append]
            intro hnull
            rcases List.mem_append.mp hnull with hnull | hnull
            · revert hnull
              decide
            · exact hnamed (name, some body) List.mem_cons_self hnull

theorem saveSdkArtifacts_keeps {pages elements : Bytes} {roots : List SdkRoot} {expectedPages : Nat}
    {directory saved : Directory} (h : directory.Keeps pages elements)
    (hsaved : saveSdkArtifacts roots expectedPages directory = .ok saved) :
    saved.Keeps pages elements := by
  unfold saveSdkArtifacts at hsaved
  split at hsaved
  · next root =>
      simp only [bind_eq_ok] at hsaved
      obtain ⟨-, -, hmoved⟩ := hsaved
      refine moveImages_keeps ?_ (moveVisualizations_keeps _ _ _ h) hmoved
      intro entry hentry
      cases himages : root.images with
      | none => simp [himages] at hentry
      | some images =>
          rw [himages] at hentry
          exact root.images_named images himages entry hentry
  · cases hsaved

/-! ## Their manifest -/

/-- A file as the manifest describes it. -/
def Describes (entry : String × Bytes) (file : ArtifactFile D) : Prop :=
  file.relativePath = entry.1 ∧ file.sha256 = ContentHash.digest entry.2 ∧
    file.sizeBytes = entry.2.length

def bytesOf (directory : Directory) : Nat := (directory.map fun file => file.2.length).sum

theorem describeFiles_ok {maximumBytes total : Nat} {directory : Directory}
    {files : List (ArtifactFile D)} (h : describeFiles maximumBytes total directory = .ok files)
    (htotal : total ≤ maximumBytes) :
    List.Forall₂ Describes directory files ∧ total + bytesOf directory ≤ maximumBytes := by
  induction directory generalizing total files with
  | nil =>
      obtain rfl := Except.ok.inj h
      exact ⟨.nil, by simpa [bytesOf] using htotal⟩
  | cons entry directory ih =>
      simp only [describeFiles, bind_eq_ok, require_eq_ok, pure_eq_ok] at h
      obtain ⟨-, hsize, file, hfile, rest, hrest, rfl⟩ := h
      obtain ⟨-, rfl⟩ := validated_eq_ok.mp hfile
      obtain ⟨hdescribed, hbound⟩ := ih hrest hsize
      refine ⟨.cons ⟨rfl, rfl, rfl⟩ hdescribed, ?_⟩
      simp only [bytesOf, List.map_cons, List.sum_cons] at hbound ⊢
      omega

/-- The parts of a path that a document may have. -/
def IsDocumentPath (parts : List String) : Prop :=
  parts = [pageMarkdownBundlePath] ∨ parts = [elementsPath] ∨
    ∃ directory name, (directory = "layout_vis" ∨ directory = "imgs") ∧ parts = [directory, name]

theorem imageIn_parts {directory value : String} (h : imageIn directory value = true) :
    ∃ name, pathParts value = [directory, name] := by
  unfold imageIn at h
  split at h
  · next first name hparts =>
      rw [Bool.and_eq_true, beq_iff_eq] at h
      exact ⟨name, by rw [hparts, h.1]⟩
  · cases h

theorem isDocumentPath_of_supported {value : String} (h : isSupportedPath value = true) :
    IsDocumentPath (pathParts value) := by
  simp only [isSupportedPath, Bool.or_eq_true, requiredPaths, List.contains_iff_mem, List.mem_cons,
    List.not_mem_nil, or_false] at h
  rcases h with ((rfl | rfl) | hvisualization) | himage
  · exact .inl (by decide)
  · exact .inr (.inl (by decide))
  · obtain ⟨name, hparts⟩ := imageIn_parts hvisualization
    exact .inr (.inr ⟨"layout_vis", name, .inl rfl, hparts⟩)
  · obtain ⟨name, hparts⟩ := imageIn_parts himage
    exact .inr (.inr ⟨"imgs", name, .inr rfl, hparts⟩)

/-- The files of a manifest have such paths. -/
theorem OcrDocumentManifest.isDocumentPath (manifest : OcrDocumentManifest D)
    {artifact : ArtifactFile D} (h : artifact ∈ manifest.files) :
    IsDocumentPath (pathParts artifact.relativePath) := by
  have hvalid := manifest.valid
  simp only [OcrDocumentManifestFields.checks, documentArtifactChecks, List.cons_append,
    List.nil_append, allHold_cons, Option.isNone_iff_eq_none, List.find?_eq_none] at hvalid
  have hsupported := hvalid.2.2.2.2.2.1 artifact.relativePath (List.mem_map_of_mem h)
  exact isDocumentPath_of_supported (by simpa using hsupported)

/-- The directory of a path of a document. -/
theorem IsDocumentPath.dropLast {parts : List String} (h : IsDocumentPath parts) :
    parts.dropLast = [] ∨ parts.dropLast = ["layout_vis"] ∨ parts.dropLast = ["imgs"] := by
  rcases h with rfl | rfl | ⟨directory, name, hdirectory, rfl⟩
  · exact .inl rfl
  · exact .inl rfl
  · rcases hdirectory with rfl | rfl
    · exact .inr (.inl rfl)
    · exact .inr (.inr rfl)

/-- The files of a document and their directories are not in each other's way. -/
theorem IsDocumentPath.apart {parts directory : List String} (h : IsDocumentPath parts)
    (hdirectory : directory = [] ∨ directory = ["layout_vis"] ∨ directory = ["imgs"]) :
    ¬parts <+: directory := by
  rcases h with rfl | rfl | ⟨first, name, -, rfl⟩
  · rcases hdirectory with rfl | rfl | rfl
    · decide
    · decide
    · decide
  · rcases hdirectory with rfl | rfl | rfl
    · decide
    · decide
    · decide
  · intro hbegins
    have hlength := hbegins.length_le
    rcases hdirectory with rfl | rfl | rfl
    · simp at hlength
    · simp at hlength
    · simp at hlength

/-- A path that the archive of a document holds. -/
structure IsArtifactPath (path : String) : Prop where
  document : IsDocumentPath (pathParts path)
  normalized : isNormalizedPath path = true
  clean : hasNull (pathParts path) = false

theorem pathParts_inj {left right : String} (hleft : isNormalizedPath left = true)
    (hright : isNormalizedPath right = true) (h : pathParts left = pathParts right) :
    left = right := by
  simp only [isNormalizedPath, Bool.and_eq_true, beq_iff_eq] at hleft hright
  rw [hleft.1.2, hright.1.2, h]

/-! ## Their archive -/

/-- A member of an archive of whole files. -/
def wholeMember (file : String × Bytes) : ArchiveMember :=
  ⟨file.1, .file file.2.length file.2 none⟩

/-- Where a file goes. -/
def placed (file : String × Bytes) : List String × Bytes := (pathParts file.1, file.2)

theorem wholeMembers_files (files : List (String × Bytes)) :
    (treeOf (wholeMembers files)).files = files.map placed := by
  induction files with
  | nil => rfl
  | cons file files ih =>
      simp only [treeOf, wholeMembers, List.map_cons, List.filterMap_cons] at ih ⊢
      rw [ih]
      simp [ArchiveMember.file, ArchiveMember.path, placed]

theorem wholeMembers_directories (files : List (String × Bytes)) {directory : List String}
    (h : directory ∈ (treeOf (wholeMembers files)).directories) :
    directory = [] ∨ ∃ file ∈ files, directory <+: (pathParts file.1).dropLast := by
  rcases List.mem_cons.mp h with rfl | h
  · exact .inl rfl
  · obtain ⟨member, hmember, hdirectory⟩ := List.mem_flatMap.mp h
    obtain ⟨file, hfile, rfl⟩ := List.mem_map.mp hmember
    exact .inr ⟨file, hfile, (List.mem_inits _ _).mp hdirectory⟩

theorem declaredSize_wholeMembers (files : List (String × Bytes)) :
    declaredSize (wholeMembers files) = bytesOf files := by
  simp [declaredSize, wholeMembers, bytesOf, ArchiveMember.size, Function.comp_def]

theorem wholeMembers_paths (files : List (String × Bytes)) :
    (wholeMembers files).map ArchiveMember.path = files.map fun file => pathParts file.1 := by
  simp [wholeMembers, ArchiveMember.path, Function.comp_def]

/-- **The archive of a document goes through unless it has too many members.** -/
theorem allFit_wholeMembers {maxBytes : Nat} {files : List (String × Bytes)}
    (hpaths : ∀ file ∈ files, IsArtifactPath file.1) (hunique : (files.map Prod.fst).Nodup)
    (hsize : bytesOf files ≤ maxBytes) :
    AllFit maxBytes (wholeMembers files) ↔ files.length ≤ maxMembers := by
  constructor
  · intro hall
    rcases List.eq_nil_or_concat files with rfl | ⟨before, file, rfl⟩
    · exact Nat.zero_le _
    · obtain ⟨⟨hcount, -⟩, -⟩ := hall (wholeMembers before) (wholeMember file) [] (by
        simp [wholeMembers, wholeMember])
      simp only [wholeMembers, List.length_map] at hcount
      simpa using hcount
  · intro hcount before member after hsplit
    obtain ⟨first, rest, rfl, rfl, hrest⟩ := List.map_eq_append_iff.mp hsplit
    obtain ⟨file, last, rfl, rfl, rfl⟩ := List.map_eq_cons_iff.mp hrest
    have hfile := hpaths file (by simp)
    have hearlier : ∀ other ∈ first, IsArtifactPath other.1 := fun other hother =>
      hpaths other (List.mem_append_left _ hother)
    have hdirectory := hfile.document.dropLast
    have hnew : pathParts file.1 ∉ first.map fun other => pathParts other.1 := by
      intro hmem
      obtain ⟨other, hother, hsame⟩ := List.mem_map.mp hmem
      have hpath := pathParts_inj (hearlier other hother).normalized hfile.normalized hsame
      rw [List.map_append, List.map_cons] at hunique
      exact (List.nodup_append.mp hunique).2.2 other.1 (List.mem_map_of_mem hother) file.1
        List.mem_cons_self hpath
    have hwhole : (first.map fun file => wholeMember file) = wholeMembers first := rfl
    refine ⟨⟨?_, hfile.normalized, ?_⟩, hfile.clean, ?_, ?_, ?_, le_refl _⟩
    · simp only [List.length_append, List.length_cons, List.length_map] at hcount ⊢
      omega
    · rw [← wholeMembers_paths] at hnew
      exact hnew
    · have hbound : bytesOf first + file.2.length ≤ maxBytes := by
        simp only [bytesOf, List.map_append, List.map_cons, List.sum_append, List.sum_cons] at hsize ⊢
        omega
      rw [← declaredSize_wholeMembers] at hbound
      exact hbound
    · intro other hother
      have hplaced : other ∈ first.map placed := by
        rw [← wholeMembers_files]
        exact hother
      obtain ⟨source, hsource, rfl⟩ := List.mem_map.mp hplaced
      exact (hearlier source hsource).document.apart hdirectory
    · intro hmem
      rcases wholeMembers_directories first hmem with hroot | ⟨other, hother, hbegins⟩
      · exact hfile.document.apart (.inl rfl) (by rw [show pathParts file.1 = [] from hroot])
      · exact hfile.document.apart (hearlier other hother).document.dropLast hbegins

theorem ExtractedTree.read_of_mem {tree : ExtractedTree} (h : (tree.files.map Prod.fst).Nodup)
    {file : List String × Bytes} (hfile : file ∈ tree.files) : tree.read file.1 = some file.2 := by
  have hfind : tree.files.find? (fun entry => entry.1 == file.1) = some file := by
    have hkey := (find?_key_eq_some Prod.fst h).mpr ⟨hfile, rfl⟩
    simpa only [beq_eq_decide] using hkey
  rw [ExtractedTree.read, hfind]
  rfl

end MiniLakehouse.Ocr
