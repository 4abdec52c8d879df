import Mathlib

/-!
# Files by name

A directory of files is Mathlib's `AList`: at most one body under each name.  `total` is
what its files weigh together.  It changes by the weight of the one file that comes or
goes (`total_insert`, `total_erase`).
-/

namespace MiniLakehouse

variable {K B : Type} [DecidableEq K]

/-- Files by name. -/
abbrev Files (K B : Type) := AList fun _ : K => B

namespace Files

/-- What the files weigh together. -/
def total (weight : K → B → Nat) (files : Files K B) : Nat :=
  (files.entries.map fun file => weight file.1 file.2).sum

variable {weight : K → B → Nat} {files : Files K B} {name : K} {body : B}

/-- A file and the other files weigh what all of them do. -/
theorem total_erase (h : files.lookup name = some body) :
    files.total weight = weight name body + total weight (files.erase name) := by
  have hname : name ∈ files.entries.keys := by
    rw [← AList.keys, ← AList.mem_keys, ← AList.lookup_isSome, h]
    rfl
  obtain ⟨found, before, after, hbefore, hentries, hrest⟩ := List.exists_of_kerase hname
  obtain rfl : found = body := by
    have hmem : (⟨name, found⟩ : Sigma fun _ : K => B) ∈ files.entries := by simp [hentries]
    have hfound := (List.mem_dlookup_iff files.nodupKeys).mpr hmem
    exact Option.some.inj (hfound.symm.trans h)
  simp only [total, AList.erase, hrest]
  rw [hentries]
  simp only [List.map_append, List.map_cons, List.sum_append, List.sum_cons]
  omega

theorem erase_of_lookup_none (h : files.lookup name = none) : files.erase name = files := by
  apply AList.ext
  exact List.kerase_of_notMem_keys (AList.lookup_eq_none.mp h)

/-- A written file weighs its new weight, and the others what they did. -/
theorem total_insert :
    total weight (files.insert name body) = weight name body + total weight (files.erase name) :=
  List.sum_cons

/-- A new file adds its weight. -/
theorem total_create (h : files.lookup name = none) :
    total weight (files.insert name body) = weight name body + files.total weight := by
  rw [total_insert, erase_of_lookup_none h]

/-- A file without weight may go. -/
theorem total_erase_weightless (h : ∀ body, weight name body = 0) :
    total weight (files.erase name) = files.total weight := by
  cases hlookup : files.lookup name with
  | none => rw [erase_of_lookup_none hlookup]
  | some body => rw [total_erase hlookup, h body, Nat.zero_add]

/-- A file without weight may come. -/
theorem total_insert_weightless (h : ∀ body, weight name body = 0) :
    total weight (files.insert name body) = files.total weight := by
  rw [total_insert, h body, Nat.zero_add, total_erase_weightless h]

/-- The total is a sum over the names. -/
theorem total_eq_sum_keys : files.total weight =
    (files.keys.map fun name => (files.lookup name).elim 0 (weight name)).sum := by
  have hmap : files.keys.map (fun name => (files.lookup name).elim 0 (weight name)) =
      files.entries.map fun file => weight file.1 file.2 := by
    rw [AList.keys, List.keys, List.map_map]
    apply List.map_congr_left
    intro file hfile
    have hlookup : files.lookup file.1 = some file.2 :=
      (List.mem_dlookup_iff files.nodupKeys).mpr hfile
    simp only [Function.comp_apply, hlookup, Option.elim_some]
  rw [hmap]
  rfl

end Files

end MiniLakehouse
