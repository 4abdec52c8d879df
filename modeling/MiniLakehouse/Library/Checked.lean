import Mathlib

/-!
# Checked computations

A function that can raise returns `Except ε α`.  A guard that raises is
`require`, sequencing is the monad's own bind, and a loop that can raise is
`List.foldlM`.  `bind_eq_ok` takes a successful computation apart, and
`foldlM_prefix_invariant` is the loop rule: an invariant of the prefix
processed so far which every successful step extends holds of the whole list.
-/

namespace MiniLakehouse

variable {ε α β σ : Type}

/-- Raise `error` unless the condition holds. -/
def require (p : Prop) [Decidable p] (error : ε) : Except ε Unit :=
  if p then .ok () else .error error

@[simp] theorem require_eq_ok {p : Prop} [Decidable p] {error : ε} {u : Unit} :
    require p error = .ok u ↔ p := by
  by_cases hp : p <;> simp [require, hp]

theorem require_of {p : Prop} [Decidable p] {error : ε} (hp : p) :
    require p error = .ok () := require_eq_ok.mpr hp

/-- Raise `error` unless the condition holds, and keep the proof that it does. -/
def ensure (p : Prop) [Decidable p] (error : ε) : Except ε (PLift p) :=
  if h : p then .ok ⟨h⟩ else .error error

theorem ensure_of {p : Prop} [Decidable p] {error : ε} (h : p) : ensure p error = .ok ⟨h⟩ :=
  dif_pos h

theorem require_congr {p q : Prop} [Decidable p] [Decidable q] {error : ε} (h : p ↔ q) :
    require p error = require q error := by
  simp [require, h]

/-- A successful bind is a successful first part and a successful rest. -/
@[simp] theorem bind_eq_ok {x : Except ε α} {f : α → Except ε β} {b : β} :
    (x >>= f) = .ok b ↔ ∃ a, x = .ok a ∧ f a = .ok b := by
  cases x <;> simp [bind, Except.bind]

@[simp] theorem ok_bind {a : α} {f : α → Except ε β} :
    ((.ok a : Except ε α) >>= f) = f a := rfl

@[simp] theorem pure_eq_ok {a b : α} :
    (pure a : Except ε α) = .ok b ↔ a = b := by
  simp [pure, Except.pure]

@[simp] theorem throw_ne_ok {error : ε} {b : α} :
    (throw error : Except ε α) ≠ .ok b := by
  simp [throw, throwThe, MonadExceptOf.throw]

theorem toOption_eq_some {x : Except ε α} {a : α} : x.toOption = some a ↔ x = .ok a := by
  cases x <;> simp [Except.toOption]

/-- A loop that can raise, one step at its end. -/
theorem foldlM_snoc {step : σ → α → Except ε σ} {s : σ} {xs : List α} {x : α} :
    (xs ++ [x]).foldlM step s = xs.foldlM step s >>= fun t => step t x := by
  simp only [List.foldlM_append, List.foldlM_cons, List.foldlM_nil]
  cases xs.foldlM step s with
  | error e => rfl
  | ok t => exact bind_pure (m := Except ε) (step t x)

/-- **Loop rule.**  What holds of the empty prefix and is carried across every
successful step holds, after a successful loop, of the whole list. -/
theorem foldlM_prefix_invariant {step : σ → α → Except ε σ}
    {I : List α → σ → Prop} {s s' : σ} {xs : List α}
    (hinit : I [] s)
    (hstep : ∀ done x t t', I done t → step t x = .ok t' → I (done ++ [x]) t')
    (hrun : xs.foldlM step s = .ok s') : I xs s' := by
  induction xs using List.reverseRecOn generalizing s' with
  | nil =>
      obtain rfl : s = s' := by simpa using hrun
      exact hinit
  | append_singleton done x ih =>
      rw [foldlM_snoc, bind_eq_ok] at hrun
      obtain ⟨t, ht, hx⟩ := hrun
      exact hstep done x t s' (ih ht) hx

/-- **Lockstep rule.**  Two loops over related lists, from related states and by
steps that keep the relation wherever both succeed, end in related states. -/
theorem foldlM_lockstep {τ : Type} {step : σ → α → Except ε σ} {step' : τ → β → Except ε τ}
    {R : σ → τ → Prop} {E : α → β → Prop} {xs : List α} {ys : List β} {s s' : σ} {t t' : τ}
    (hstep : ∀ s t x y s' t', R s t → E x y → step s x = .ok s' → step' t y = .ok t' → R s' t')
    (hinit : R s t) (hlists : List.Forall₂ E xs ys)
    (hleft : xs.foldlM step s = .ok s') (hright : ys.foldlM step' t = .ok t') : R s' t' := by
  induction hlists generalizing s t with
  | nil =>
      obtain rfl : s = s' := by simpa using hleft
      obtain rfl : t = t' := by simpa using hright
      exact hinit
  | cons hhead _ ih =>
      rw [List.foldlM_cons, bind_eq_ok] at hleft hright
      obtain ⟨s₁, hs₁, hleft⟩ := hleft
      obtain ⟨t₁, ht₁, hright⟩ := hright
      exact ih (hstep _ _ _ _ _ _ hinit hhead hs₁ ht₁) hleft hright

/-- Every prefix of a successful loop is a successful loop. -/
theorem foldlM_append_ok {step : σ → α → Except ε σ} {s s' : σ} {xs ys : List α}
    (hrun : (xs ++ ys).foldlM step s = .ok s') :
    ∃ t, xs.foldlM step s = .ok t ∧ ys.foldlM step t = .ok s' := by
  rwa [List.foldlM_append, bind_eq_ok] at hrun

/-- A loop that checks and transforms every member. -/
theorem mapM_guarded {f : α → Except ε β} {p : α → Prop} {g : α → β}
    (hf : ∀ x y, f x = .ok y ↔ p x ∧ g x = y) {xs : List α} {ys : List β} :
    xs.mapM f = .ok ys ↔ (∀ x ∈ xs, p x) ∧ xs.map g = ys := by
  induction xs generalizing ys with
  | nil => simp
  | cons x xs ih =>
      simp only [List.mapM_cons, bind_eq_ok, pure_eq_ok, hf, ih, List.mem_cons,
        forall_eq_or_imp, List.map_cons]
      constructor
      · rintro ⟨_, ⟨hx, rfl⟩, _, ⟨hxs, rfl⟩, rfl⟩
        exact ⟨⟨hx, hxs⟩, rfl⟩
      · rintro ⟨⟨hx, hxs⟩, rfl⟩
        exact ⟨_, ⟨hx, rfl⟩, _, ⟨hxs, rfl⟩, rfl⟩

/-- A loop over a list relates every member to its result. -/
theorem mapM_eq_ok {f : α → Except ε β} {xs : List α} {ys : List β} :
    xs.mapM f = .ok ys ↔ List.Forall₂ (fun x y => f x = .ok y) xs ys := by
  induction xs generalizing ys with
  | nil =>
      simp only [List.mapM_nil, pure_eq_ok]
      exact ⟨fun h => h ▸ .nil, fun h => by cases h; rfl⟩
  | cons x xs ih =>
      simp only [List.mapM_cons, bind_eq_ok, pure_eq_ok, ih]
      constructor
      · rintro ⟨y, hy, rest, hrest, rfl⟩
        exact .cons hy hrest
      · rintro (_ | ⟨hy, hrest⟩)
        exact ⟨_, hy, _, hrest, rfl⟩

/-- A member of the right list has a partner on the left. -/
theorem exists_of_mem_forall₂ {R : α → β → Prop} {xs : List α} {ys : List β} {y : β}
    (h : List.Forall₂ R xs ys) (hy : y ∈ ys) : ∃ x ∈ xs, R x y := by
  induction h with
  | nil => simp at hy
  | @cons x y' xs ys hhead _ ih =>
      rcases List.mem_cons.mp hy with rfl | hy
      · exact ⟨x, by simp, hhead⟩
      · obtain ⟨x', hx', hrel⟩ := ih hy
        exact ⟨x', by simp [hx'], hrel⟩

/-- Two nested loops run over the pairs of their lists. -/
theorem forall₂_product {R : α × β → σ → Prop} {xs : List α} {ys : List β}
    {zss : List (List σ)}
    (h : List.Forall₂ (fun x zs => List.Forall₂ (fun y z => R (x, y) z) ys zs) xs zss) :
    List.Forall₂ R (xs ×ˢ ys) zss.flatten := by
  induction h with
  | nil => exact .nil
  | @cons x zs xs zss hhead _ ih =>
      rw [List.product_cons, List.flatten_cons]
      exact List.rel_append (List.forall₂_map_left_iff.mpr hhead) ih

/-- Partners with the same image have the same list of images. -/
theorem map_eq_of_forall₂ {f : α → σ} {g : β → σ} {xs : List α} {ys : List β}
    (h : List.Forall₂ (fun x y => g y = f x) xs ys) : ys.map g = xs.map f := by
  induction h with
  | nil => rfl
  | cons hhead _ ih => simp [hhead, ih]

/-- Loops that do the same for every member. -/
theorem mapM_congr {f g : α → Except ε β} {xs : List α} (h : ∀ x ∈ xs, f x = g x) :
    xs.mapM f = xs.mapM g := by
  induction xs with
  | nil => rfl
  | cons x xs ih =>
      rw [List.mapM_cons, List.mapM_cons, h x List.mem_cons_self,
        ih fun y hy => h y (List.mem_cons_of_mem x hy)]

/-- Of a loop over the members of lists, the loops over each. -/
theorem mapM_flatMap_ok {f : α → List β} {g : β → Except ε σ} {xs : List α}
    {ys : List σ} (h : (xs.flatMap f).mapM g = .ok ys) :
    ∃ yss, List.Forall₂ (fun x zs => (f x).mapM g = .ok zs) xs yss ∧ ys = yss.flatten := by
  induction xs generalizing ys with
  | nil =>
      obtain rfl : [] = ys := Except.ok.inj h
      exact ⟨[], .nil, rfl⟩
  | cons x xs ih =>
      rw [List.flatMap_cons, List.mapM_append] at h
      simp only [bind_eq_ok, pure_eq_ok] at h
      obtain ⟨zs, hzs, rest, hrest, rfl⟩ := h
      obtain ⟨yss, hyss, rfl⟩ := ih hrest
      exact ⟨zs :: yss, .cons hzs hyss, rfl⟩

/-- A loop whose members all succeed succeeds. -/
theorem mapM_total {f : α → Except ε β} {xs : List α} (h : ∀ x ∈ xs, ∃ y, f x = .ok y) :
    ∃ ys, xs.mapM f = .ok ys := by
  induction xs with
  | nil => exact ⟨[], rfl⟩
  | cons x xs ih =>
      obtain ⟨y, hy⟩ := h x (by simp)
      obtain ⟨ys, hys⟩ := ih fun z hz => h z (by simp [hz])
      exact ⟨y :: ys, by simp [hy, hys]⟩

/-- A loop that reads what was written of every member. -/
theorem mapM_written {read : α → Except ε β} {write : β → α} {xs : List β}
    (h : ∀ x ∈ xs, read (write x) = .ok x) : (xs.map write).mapM read = .ok xs := by
  induction xs with
  | nil => rfl
  | cons x xs ih =>
      have hx := h x (by simp)
      have hxs := ih fun y hy => h y (by simp [hy])
      simp [hx, hxs]

end MiniLakehouse
