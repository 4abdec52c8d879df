import Mathlib

/-!
# Canonical JSON values

A canonical serialisation writes every value in one way only, so for proofs the
text is replaced by the tree it spells.  An array or an object is a chain of
`cons` cells closed by `nil`; the names of an object's fields are fixed by the
type that is written, hence only their values are kept.  Digests are leaves of
their own type `D`.

A `Spelled` digest keeps the tree it was taken of.  Its order compares flattened
texts, of which `flatten_append_inj` shows that they are a prefix code.  It is the
concrete collision-free digest with which the abstract one can be instantiated.
-/

namespace MiniLakehouse

/-- A canonical JSON tree with digests of type `D` as leaves. -/
inductive Json (D : Type) where
  | null
  | bool (value : Bool)
  | num (value : Rat)
  | str (value : String)
  | sha (value : D)
  | nil
  | cons (head tail : Json D)
  deriving DecidableEq, Repr

namespace Json

variable {D : Type}

/-- An object or an array, written as the chain of its members. -/
def arr : List (Json D) → Json D
  | [] => nil
  | item :: rest => cons item (arr rest)

/-- An integer. -/
def int (value : Int) : Json D := num value

/-- A natural number. -/
def nat (value : Nat) : Json D := num value

/-- An optional member: `null` or a one-member array, so that a member which
is itself `null` stays apart from a missing one. -/
def opt {α : Type} (write : α → Json D) : Option α → Json D
  | none => null
  | some value => cons (write value) nil

/-- A list of members, all written by `write`. -/
def list {α : Type} (write : α → Json D) (values : List α) : Json D :=
  arr (values.map write)

@[simp] theorem arr_inj {xs ys : List (Json D)} : arr xs = arr ys ↔ xs = ys := by
  induction xs generalizing ys with
  | nil => cases ys <;> simp [arr]
  | cons x xs ih => cases ys <;> simp [arr, ih]

@[simp] theorem int_inj {a b : Int} : (int a : Json D) = int b ↔ a = b := by
  simp [int]

@[simp] theorem nat_inj {a b : Nat} : (nat a : Json D) = nat b ↔ a = b := by
  simp [nat]

theorem str_injective : Function.Injective (str : String → Json D) :=
  fun _ _ h => str.inj h

theorem num_injective : Function.Injective (num : Rat → Json D) :=
  fun _ _ h => num.inj h

theorem sha_injective : Function.Injective (sha : D → Json D) :=
  fun _ _ h => sha.inj h

theorem int_injective : Function.Injective (int : Int → Json D) :=
  fun _ _ h => int_inj.mp h

theorem opt_inj {α : Type} {write : α → Json D} (h : Function.Injective write) :
    Function.Injective (opt write) := by
  intro a b hab
  cases a <;> cases b <;> simp_all [opt, h.eq_iff]

theorem list_inj {α : Type} {write : α → Json D} (h : Function.Injective write) :
    Function.Injective (list write) := by
  intro a b hab
  exact h.list_map (arr_inj.mp hab)

end Json

/-! ## A collision-free digest -/

/-- A digest that is the hashed tree itself, digests inside it included. -/
inductive Spelled where
  | null
  | bool (value : Bool)
  | num (value : Rat)
  | str (value : String)
  | sha (value : Spelled)
  | nil
  | cons (head tail : Spelled)
  deriving DecidableEq, Repr

namespace Spelled

/-- The digest of a tree. -/
def ofJson : Json Spelled → Spelled
  | .null => null
  | .bool value => bool value
  | .num value => num value
  | .str value => str value
  | .sha value => sha value
  | .nil => nil
  | .cons head tail => cons (ofJson head) (ofJson tail)

/-- Distinct trees have distinct digests. -/
theorem ofJson_injective : Function.Injective ofJson := by
  intro a
  induction a with
  | cons x xs ihx ihxs =>
      intro b h
      cases b <;> simp [ofJson] at h ⊢
      exact ⟨ihx h.1, ihxs h.2⟩
  | _ => intro b h; cases b <;> simp [ofJson] at h ⊢ <;> exact h

/-- Length-prefixed spelling of a list of integers. -/
private def counted (xs : List Int) : List Int := (xs.length : Int) :: xs

private theorem counted_append_inj {xs ys r s : List Int}
    (h : counted xs ++ r = counted ys ++ s) : xs = ys ∧ r = s := by
  simp only [counted, List.cons_append, List.cons.injEq, Int.natCast_inj] at h
  exact List.append_inj h.2 h.1

/-- The characters of a string as integers. -/
private def charCodes (s : String) : List Int := s.toList.map fun c => (c.toNat : Int)

private theorem charCodes_injective : Function.Injective charCodes := by
  intro s t h
  have hinj : Function.Injective (fun c : Char => (c.toNat : Int)) := by
    intro a b hab
    exact Char.toNat_inj.mp (Int.natCast_inj.mp hab)
  exact String.toList_inj.mp (hinj.list_map h)

/-- A digest as a list of integers; every constructor opens with its own tag. -/
def flatten : Spelled → List Int
  | null => [0]
  | bool false => [1]
  | bool true => [2]
  | num q => [3, q.num, q.den]
  | str s => 4 :: counted (charCodes s)
  | sha d => 5 :: flatten d
  | nil => [6]
  | cons head tail => 7 :: (flatten head ++ flatten tail)

/-- **Prefix code.**  A flattened digest followed by anything determines both. -/
theorem flatten_append_inj (a b : Spelled) (r s : List Int)
    (h : flatten a ++ r = flatten b ++ s) : a = b ∧ r = s := by
  induction a generalizing b r s with
  | null =>
      cases b with
      | null => exact ⟨rfl, by simpa [flatten] using h⟩
      | bool w => cases w <;> simp [flatten] at h
      | _ => simp [flatten] at h
  | bool v =>
      cases b with
      | bool w => cases v <;> cases w <;> simp_all [flatten]
      | _ => cases v <;> simp [flatten] at h
  | num q =>
      cases b with
      | num p =>
          simp only [flatten, List.cons_append, List.nil_append, List.cons.injEq,
            Int.natCast_inj, true_and] at h
          exact ⟨congrArg num (Rat.ext h.1 h.2.1), h.2.2⟩
      | bool w => cases w <;> simp [flatten] at h
      | _ => simp [flatten] at h
  | str s =>
      cases b with
      | str t =>
          simp only [flatten, List.cons_append, List.cons.injEq, true_and] at h
          obtain ⟨hs, hr⟩ := counted_append_inj h
          exact ⟨congrArg str (charCodes_injective hs), hr⟩
      | bool w => cases w <;> simp [flatten] at h
      | _ => simp [flatten] at h
  | sha d ih =>
      cases b with
      | sha e =>
          simp only [flatten, List.cons_append, List.cons.injEq, true_and] at h
          obtain ⟨hd, hr⟩ := ih e _ _ h
          exact ⟨congrArg sha hd, hr⟩
      | bool w => cases w <;> simp [flatten] at h
      | _ => simp [flatten] at h
  | nil =>
      cases b with
      | nil => exact ⟨rfl, by simpa [flatten] using h⟩
      | bool w => cases w <;> simp [flatten] at h
      | _ => simp [flatten] at h
  | cons x xs ihx ihxs =>
      cases b with
      | cons y ys =>
          simp only [flatten, List.cons_append, List.append_assoc, List.cons.injEq,
            true_and] at h
          obtain ⟨hx, htail⟩ := ihx y _ _ h
          obtain ⟨hxs, hr⟩ := ihxs ys _ _ htail
          exact ⟨by rw [hx, hxs], hr⟩
      | bool w => cases w <;> simp [flatten] at h
      | _ => simp [flatten] at h

theorem flatten_injective : Function.Injective flatten := by
  intro a b h
  exact (flatten_append_inj a b [] [] (by rw [h])).1

/-- Digests are ordered as their flattened text is. -/
instance : LinearOrder Spelled where
  le a b := flatten a ≤ flatten b
  le_refl a := le_refl (flatten a)
  le_trans a b c := le_trans (a := flatten a)
  le_antisymm a b h h' := flatten_injective (le_antisymm h h')
  le_total a b := le_total (flatten a) (flatten b)
  toDecidableLE a b := inferInstanceAs (Decidable (flatten a ≤ flatten b))
  toDecidableEq := inferInstance

end Spelled

end MiniLakehouse
