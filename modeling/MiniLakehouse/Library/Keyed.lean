import Mathlib

/-!
# Lists with unique keys

A list whose members have pairwise distinct keys, read as a finite map.  Taking
one member out leaves the members with other keys (`perm_cons_without`),
replacing it keeps them (`map_replace_perm`), and a sum over the list changes by
what the one member changed by (`sum_map_exchange`).  `sortOn` is Python's
`sorted(values, key=…)`.
-/

namespace MiniLakehouse

variable {α κ : Type} [DecidableEq κ] (key : α → κ)

/-- The members whose key is not `k`. -/
def without (k : κ) (xs : List α) : List α :=
  xs.filter fun x => key x != k

theorem mem_without {key : α → κ} {k : κ} {xs : List α} {x : α} :
    x ∈ without key k xs ↔ x ∈ xs ∧ key x ≠ k := by
  simp [without]

omit [DecidableEq κ] in
/-- Equal keys of members are equal members. -/
theorem eq_of_key_eq {xs : List α} {x y : α} (h : (xs.map key).Nodup)
    (hx : x ∈ xs) (hy : y ∈ xs) (hkey : key x = key y) : x = y :=
  List.inj_on_of_nodup_map h hx hy hkey

/-- A member and the members with other keys are the whole list. -/
theorem perm_cons_without {xs : List α} {x : α} (h : (xs.map key).Nodup)
    (hx : x ∈ xs) : xs.Perm (x :: without key (key x) xs) := by
  induction xs with
  | nil => cases hx
  | cons a xs ih =>
      obtain ⟨ha, hxs⟩ := List.nodup_cons.mp h
      rcases List.mem_cons.mp hx with rfl | hx'
      · have hkeep : xs.filter (fun y => key y != key x) = xs := by
          refine List.filter_eq_self.mpr fun y hy => ?_
          have hne : key y ≠ key x := by
            intro heq
            exact ha (heq ▸ List.mem_map_of_mem hy)
          simpa using hne
        simp [without, hkeep]
      · have hne : key a ≠ key x := by
          intro heq
          exact ha (heq ▸ List.mem_map_of_mem hx')
        have hstep : without key (key x) (a :: xs) = a :: without key (key x) xs := by
          simp [without, hne]
        rw [hstep]
        exact ((ih hxs hx').cons a).trans (List.Perm.swap x a _)

/-- Replacing a member keeps the members with other keys. -/
theorem map_replace_perm {xs : List α} {x z : α} (h : (xs.map key).Nodup)
    (hx : x ∈ xs) :
    (xs.map fun y => if key y = key x then z else y).Perm
      (z :: without key (key x) xs) := by
  have hrest : (without key (key x) xs).map (fun y => if key y = key x then z else y) =
      without key (key x) xs := by
    calc (without key (key x) xs).map (fun y => if key y = key x then z else y)
        = (without key (key x) xs).map id :=
          List.map_congr_left fun y hy => if_neg (mem_without.mp hy).2
      _ = without key (key x) xs := List.map_id _
  have hperm := (perm_cons_without key h hx).map fun y => if key y = key x then z else y
  simpa [hrest] using hperm

/-- A lookup by key finds exactly the member with the key. -/
theorem find?_key_eq_some {xs : List α} {x : α} {k : κ} (h : (xs.map key).Nodup) :
    xs.find? (fun y => key y == k) = some x ↔ x ∈ xs ∧ key x = k := by
  constructor
  · intro hfind
    exact ⟨List.mem_of_find?_eq_some hfind, by simpa using List.find?_some hfind⟩
  · rintro ⟨hx, rfl⟩
    cases hfind : xs.find? (fun y => key y == key x) with
    | none =>
        have hno := List.find?_eq_none.mp hfind x hx
        simp at hno
    | some y =>
        have hy := List.mem_of_find?_eq_some hfind
        have hkey : key y = key x := by simpa using List.find?_some hfind
        rw [eq_of_key_eq key h hy hx hkey]

/-- A lookup by a unique key does not depend on the order. -/
theorem find?_key_perm {xs ys : List α} {k : κ} (hperm : xs.Perm ys)
    (h : (xs.map key).Nodup) :
    xs.find? (fun y => key y == k) = ys.find? (fun y => key y == k) := by
  have h' : (ys.map key).Nodup := (hperm.map key).nodup_iff.mp h
  refine Option.ext fun x => ?_
  rw [find?_key_eq_some key h, find?_key_eq_some key h', hperm.mem_iff]

section Sorting

variable {β : Type} [LinearOrder β]

/-- Stable sorting by a key. -/
def sortOn (key : α → β) (xs : List α) : List α :=
  xs.insertionSort fun a b => key a ≤ key b

theorem sortOn_perm (key : α → β) (xs : List α) : (sortOn key xs).Perm xs :=
  List.perm_insertionSort _ xs

@[simp] theorem mem_sortOn {key : α → β} {xs : List α} {x : α} :
    x ∈ sortOn key xs ↔ x ∈ xs :=
  (sortOn_perm key xs).mem_iff

theorem sortOn_pairwise (key : α → β) (xs : List α) :
    (sortOn key xs).Pairwise fun a b => key a ≤ key b := by
  have : Std.Total fun a b : α => key a ≤ key b := ⟨fun a b => le_total (key a) (key b)⟩
  have : IsTrans α fun a b => key a ≤ key b := ⟨fun _ _ _ => le_trans⟩
  exact List.pairwise_insertionSort (fun a b => key a ≤ key b) xs

/-- Lists related member by member, with equal keys, are related once sorted. -/
theorem sortOn_forall₂ {γ : Type} {R : α → γ → Prop} {key : α → β} {key' : γ → β}
    (hkey : ∀ x y, R x y → key x = key' y) {xs : List α} {ys : List γ}
    (h : List.Forall₂ R xs ys) : List.Forall₂ R (sortOn key xs) (sortOn key' ys) := by
  have hinsert : ∀ x y, R x y → ∀ us vs, List.Forall₂ R us vs →
      List.Forall₂ R (us.orderedInsert (fun a b => key a ≤ key b) x)
        (vs.orderedInsert (fun a b => key' a ≤ key' b) y) := by
    intro x y hxy us vs huv
    induction huv with
    | nil => exact .cons hxy .nil
    | cons hhead htail ih =>
        simp only [List.orderedInsert_cons, hkey _ _ hxy, hkey _ _ hhead]
        split
        · exact .cons hxy (.cons hhead htail)
        · exact .cons hhead ih
  induction h with
  | nil => exact .nil
  | cons hhead _ ih => exact hinsert _ _ hhead _ _ ih

/-- Sorting on unique keys orders them strictly. -/
theorem sortOn_keys_ascending {key : α → β} {xs : List α} (h : (xs.map key).Nodup) :
    ((sortOn key xs).map key).Pairwise (· < ·) := by
  have hle : ((sortOn key xs).map key).Pairwise (· ≤ ·) :=
    List.pairwise_map.mpr (sortOn_pairwise key xs)
  have hne : ((sortOn key xs).map key).Nodup :=
    ((sortOn_perm key xs).map key).nodup_iff.mpr h
  exact hle.imp₂ (fun _ _ hab hneq => lt_of_le_of_ne hab hneq) hne

/-- **Sorting on unique keys** forgets the order of its input. -/
theorem sortOn_eq_of_perm {key : α → β} {xs ys : List α} (hperm : xs.Perm ys)
    (h : (xs.map key).Nodup) : sortOn key xs = sortOn key ys := by
  have hsame : (sortOn key xs).Perm (sortOn key ys) :=
    (sortOn_perm key xs).trans (hperm.trans (sortOn_perm key ys).symm)
  refine hsame.eq_of_pairwise ?_ (sortOn_pairwise key xs) (sortOn_pairwise key ys)
  intro a b ha hb hab hba
  apply eq_of_key_eq key h (mem_sortOn.mp ha) ?_ (le_antisymm hab hba)
  exact hperm.mem_iff.mpr (mem_sortOn.mp hb)

theorem nodup_of_ascending {xs : List β} (h : xs.Pairwise (· < ·)) : xs.Nodup :=
  h.imp fun hab => ne_of_lt hab

end Sorting

variable {M : Type} [AddCommMonoid M]

/-- Pairs whose ranks ascend under each key are distinct. -/
theorem nodup_pairs_of_ascending {β : Type} [Preorder β] {rank : α → β} {xs : List α}
    (h : ∀ k, ((xs.filter fun x => key x == k).map rank).Pairwise (· < ·)) :
    (xs.map fun x => (key x, rank x)).Nodup := by
  induction xs with
  | nil => exact List.nodup_nil
  | cons x xs ih =>
      rw [List.map_cons, List.nodup_cons]
      constructor
      · intro hmem
        obtain ⟨y, hy, hpair⟩ := List.mem_map.mp hmem
        obtain ⟨hkey, hrank⟩ := Prod.mk.inj hpair
        have hascending := h (key x)
        rw [List.filter_cons_of_pos (by simp), List.map_cons, List.pairwise_cons] at hascending
        have hless := hascending.1 (rank y)
          (List.mem_map.mpr ⟨y, List.mem_filter.mpr ⟨hy, by simp [hkey]⟩, rfl⟩)
        rw [hrank] at hless
        exact lt_irrefl _ hless
      · apply ih
        intro k
        have hascending := h k
        by_cases hk : key x = k
        · rw [List.filter_cons_of_pos (by simp [hk]), List.map_cons] at hascending
          exact hascending.of_cons
        · rwa [List.filter_cons_of_neg (by simp [hk])] at hascending

/-- **Grouping** by all keys that occur loses no member and repeats none. -/
theorem groups_perm {ks : List κ} {xs : List α} (hunique : ks.Nodup)
    (hall : ∀ x ∈ xs, key x ∈ ks) : (ks.flatMap fun k => xs.filter (key · == k)).Perm xs := by
  induction ks generalizing xs with
  | nil =>
      have hnone : xs = [] := List.eq_nil_iff_forall_not_mem.mpr fun x hx => by simpa using hall x hx
      rw [hnone, List.flatMap_nil]
  | cons k ks ih =>
      obtain ⟨hnot, hrest⟩ := List.nodup_cons.mp hunique
      have hothers : ks.flatMap (fun other => xs.filter (key · == other)) =
          ks.flatMap fun other => (without key k xs).filter (key · == other) := by
        apply List.flatMap_congr
        intro other hother
        rw [without, List.filter_filter]
        apply List.filter_congr
        intro x _
        have hdiffer : key x = other → key x ≠ k := fun hx hk => hnot (hk ▸ hx ▸ hother)
        by_cases hx : key x = other <;> simp_all
      have hothersAll : ∀ x ∈ without key k xs, key x ∈ ks := by
        intro x hx
        obtain ⟨hmem, hne⟩ := mem_without.mp hx
        exact (List.mem_cons.mp (hall x hmem)).resolve_left hne
      have hgroups := ih hrest hothersAll
      rw [List.flatMap_cons, hothers]
      exact (hgroups.append_left _).trans (List.filter_append_perm _ xs)

/-- Of values looked up for unique keys, those under one key are that key's own. -/
theorem filter_filterMap_lookup {γ : Type} {lookup : κ → Option γ} {keyOf : γ → κ}
    {ks : List κ} (hunique : ks.Nodup) (hkey : ∀ k, ∀ x ∈ lookup k, keyOf x = k) {k : κ}
    (hk : k ∈ ks) : (ks.filterMap lookup).filter (keyOf · == k) = (lookup k).toList := by
  induction ks with
  | nil => simp at hk
  | cons first rest ih =>
      obtain ⟨hnot, hrest⟩ := List.nodup_cons.mp hunique
      have hothers : ∀ x ∈ rest.filterMap lookup, keyOf x ∈ rest := by
        intro x hx
        obtain ⟨other, hother, hlookup⟩ := List.mem_filterMap.mp hx
        rw [hkey other x hlookup]
        exact hother
      by_cases hfirst : first = k
      · subst hfirst
        have hnone : (rest.filterMap lookup).filter (keyOf · == first) = [] := by
          rw [List.filter_eq_nil_iff]
          intro x hx heq
          exact hnot (beq_iff_eq.mp heq ▸ hothers x hx)
        cases hlookup : lookup first with
        | none => rw [List.filterMap_cons_none hlookup, hnone, Option.toList_none]
        | some x =>
            rw [List.filterMap_cons_some hlookup,
              List.filter_cons_of_pos (by simp [hkey first x hlookup]), hnone, Option.toList_some]
      · have htail := ih hrest ((List.mem_cons.mp hk).resolve_left (Ne.symm hfirst))
        cases hlookup : lookup first with
        | none => rw [List.filterMap_cons_none hlookup, htail]
        | some x =>
            rw [List.filterMap_cons_some hlookup,
              List.filter_cons_of_neg (by simp [hkey first x hlookup, hfirst]), htail]

/-- Two weights that agree off one member have sums that differ by it. -/
theorem sum_map_exchange {xs : List α} {x : α} {f g : α → M}
    (h : (xs.map key).Nodup) (hx : x ∈ xs)
    (hagree : ∀ y ∈ xs, key y ≠ key x → f y = g y) :
    (xs.map f).sum + g x = (xs.map g).sum + f x := by
  have hperm := perm_cons_without key h hx
  have hrest : (without key (key x) xs).map f = (without key (key x) xs).map g :=
    List.map_congr_left fun y hy =>
      hagree y (mem_without.mp hy).1 (mem_without.mp hy).2
  have hf : (xs.map f).sum = f x + ((without key (key x) xs).map g).sum := by
    rw [(hperm.map f).sum_eq, List.map_cons, List.sum_cons, hrest]
  have hg : (xs.map g).sum = g x + ((without key (key x) xs).map g).sum := by
    rw [(hperm.map g).sum_eq, List.map_cons, List.sum_cons]
  rw [hf, hg, add_right_comm, add_comm (f x) (g x)]
  exact add_right_comm _ _ _

omit [DecidableEq κ] in
/-- A sum over the members that satisfy a predicate. -/
theorem sum_filter_map {xs : List α} {p : α → Bool} {f : α → M} :
    ((xs.filter p).map f).sum = (xs.map fun x => if p x then f x else 0).sum := by
  induction xs with
  | nil => rfl
  | cons x xs ih => cases hp : p x <;> simp [hp, ih]

end MiniLakehouse
