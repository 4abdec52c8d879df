import MiniLakehouse.Library.Keyed

/-!
# Batches in order

Members in batches under ascending keys.  Taken apart again by their keys they are the same
batches (`Batched.groups`), and sorted on a finer key they stay in their batches
(`Batched.sortOn`).
-/

namespace MiniLakehouse

variable {α κ β : Type} [LinearOrder κ] [LinearOrder β] {key : α → κ}

/-- Batches under ascending keys, each of members of its own key. -/
structure Batched (key : α → κ) (batches : List (κ × List α)) : Prop where
  ascending : (batches.map Prod.fst).Pairwise (· < ·)
  nonempty : ∀ batch ∈ batches, batch.2 ≠ []
  own_key : ∀ batch ∈ batches, ∀ x ∈ batch.2, key x = batch.1

namespace Batched

variable {batches : List (κ × List α)}

theorem tail {batch : κ × List α} (h : Batched key (batch :: batches)) : Batched key batches where
  ascending := (List.pairwise_cons.mp h.ascending).2
  nonempty := fun later hlater => h.nonempty later (List.mem_cons_of_mem _ hlater)
  own_key := fun later hlater => h.own_key later (List.mem_cons_of_mem _ hlater)

theorem mem {x : α} (h : Batched key batches) (hx : x ∈ batches.flatMap Prod.snd) :
    key x ∈ batches.map Prod.fst := by
  obtain ⟨batch, hbatch, hmem⟩ := List.mem_flatMap.mp hx
  exact List.mem_map.mpr ⟨batch, hbatch, (h.own_key batch hbatch x hmem).symm⟩

/-- The keys of the members, each once and in order, are those of the batches. -/
theorem keys (h : Batched key batches) :
    sortOn id ((batches.flatMap Prod.snd).map key).dedup = batches.map Prod.fst := by
  have hsame : ((batches.flatMap Prod.snd).map key).dedup.Perm (batches.map Prod.fst) := by
    apply (List.perm_ext_iff_of_nodup (List.nodup_dedup _) (nodup_of_ascending h.ascending)).mpr
    intro k
    rw [List.mem_dedup, List.mem_map]
    constructor
    · intro hmem
      obtain ⟨x, hx, rfl⟩ := hmem
      exact h.mem hx
    · intro hmem
      obtain ⟨batch, hbatch, rfl⟩ := List.mem_map.mp hmem
      obtain ⟨x, hx⟩ := List.exists_mem_of_ne_nil _ (h.nonempty batch hbatch)
      exact ⟨x, List.mem_flatMap.mpr ⟨batch, hbatch, hx⟩, h.own_key batch hbatch x hx⟩
  have hunique : (((batches.flatMap Prod.snd).map key).dedup.map id).Nodup := by
    rw [List.map_id]
    exact List.nodup_dedup _
  rw [sortOn_eq_of_perm hsame hunique]
  exact List.Pairwise.insertionSort_eq (h.ascending.imp le_of_lt)

/-- The members of a key that no batch has are none. -/
theorem filter_absent {k : κ} (h : Batched key batches) (hk : k ∉ batches.map Prod.fst) :
    (batches.flatMap Prod.snd).filter (key · = k) = [] := by
  rw [List.filter_eq_nil_iff]
  intro x hx heq
  exact hk (of_decide_eq_true heq ▸ h.mem hx)

/-- The members of a key are its batch. -/
theorem filter (h : Batched key batches) {batch : κ × List α} (hbatch : batch ∈ batches) :
    (batches.flatMap Prod.snd).filter (key · = batch.1) = batch.2 := by
  induction batches with
  | nil => cases hbatch
  | cons first rest ih =>
      have hnot : first.1 ∉ rest.map Prod.fst :=
        (List.nodup_cons.mp (nodup_of_ascending h.ascending)).1
      rw [List.flatMap_cons, List.filter_append]
      by_cases hfirst : batch.1 = first.1
      · have hsame : batch = first := by
          refine (List.mem_cons.mp hbatch).resolve_right fun hmem => hnot ?_
          exact hfirst ▸ List.mem_map.mpr ⟨batch, hmem, rfl⟩
        subst hsame
        have hall : batch.2.filter (key · = batch.1) = batch.2 := by
          rw [List.filter_eq_self]
          intro x hx
          exact decide_eq_true (h.own_key batch List.mem_cons_self x hx)
        rw [hall, h.tail.filter_absent hnot, List.append_nil]
      · have hmem : batch ∈ rest :=
          (List.mem_cons.mp hbatch).resolve_left fun heq => hfirst (by rw [heq])
        have hnone : first.2.filter (key · = batch.1) = [] := by
          rw [List.filter_eq_nil_iff]
          intro x hx heq
          exact hfirst ((of_decide_eq_true heq).symm.trans (h.own_key first List.mem_cons_self x hx))
        rw [hnone, List.nil_append, ih h.tail hmem]

/-- **Grouping** the members by their keys gives the batches back. -/
theorem groups (h : Batched key batches) :
    (sortOn id ((batches.flatMap Prod.snd).map key).dedup).map
      (fun k => (k, (batches.flatMap Prod.snd).filter (key · = k))) = batches := by
  rw [h.keys, List.map_map]
  refine (List.map_congr_left fun batch hbatch => ?_).trans (List.map_id batches)
  show (batch.1, (batches.flatMap Prod.snd).filter (key · = batch.1)) = batch
  rw [h.filter hbatch]

/-- The members are in the order of their keys. -/
theorem ordered (h : Batched key batches) :
    (batches.flatMap Prod.snd).Pairwise fun x y => key x ≤ key y := by
  induction batches with
  | nil => exact .nil
  | cons first rest ih =>
      rw [List.flatMap_cons, List.pairwise_append]
      refine ⟨?_, ih h.tail, ?_⟩
      · refine List.pairwise_iff_forall_sublist.mpr fun {x y} hsub => ?_
        have hmem := hsub.subset
        rw [h.own_key first List.mem_cons_self x (hmem List.mem_cons_self),
          h.own_key first List.mem_cons_self y (hmem (List.mem_cons_of_mem _ List.mem_cons_self))]
      · intro x hx y hy
        have hless : first.1 < key y :=
          (List.pairwise_cons.mp h.ascending).1 _ (h.tail.mem hy)
        rw [h.own_key first List.mem_cons_self x hx]
        exact hless.le

/-- **Sorting** on a key that refines the one of the batches sorts each batch. -/
theorem sortOn {fine : α → β} (h : Batched key batches)
    (hfine : ∀ x y, key x < key y → fine x ≤ fine y)
    (hunique : ((batches.flatMap Prod.snd).map fine).Nodup) :
    MiniLakehouse.sortOn fine (batches.flatMap Prod.snd) =
      batches.flatMap fun batch => MiniLakehouse.sortOn fine batch.2 := by
  have hperm : (batches.flatMap Prod.snd).Perm
      (batches.flatMap fun batch => MiniLakehouse.sortOn fine batch.2) :=
    List.Perm.flatMap_left _ fun batch _ => (sortOn_perm fine batch.2).symm
  rw [sortOn_eq_of_perm hperm hunique]
  refine List.Pairwise.insertionSort_eq (r := fun a b => fine a ≤ fine b) ?_
  clear hperm hunique
  induction batches with
  | nil => exact .nil
  | cons first rest ih =>
      rw [List.flatMap_cons, List.pairwise_append]
      refine ⟨sortOn_pairwise fine first.2, ih h.tail, ?_⟩
      intro x hx y hy
      obtain ⟨later, hlater, hmem⟩ := List.mem_flatMap.mp hy
      have hless : first.1 < later.1 :=
        (List.pairwise_cons.mp h.ascending).1 _ (List.mem_map.mpr ⟨later, hlater, rfl⟩)
      rw [← h.own_key first List.mem_cons_self x (mem_sortOn.mp hx),
        ← h.tail.own_key later hlater y (mem_sortOn.mp hmem)] at hless
      exact hfine x y hless

end Batched

end MiniLakehouse
