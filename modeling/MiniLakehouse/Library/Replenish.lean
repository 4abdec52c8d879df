import Mathlib

/-!
# Replenished displays

A level that shows a quantity again and again offers the first quantity and
every later increase, `replenished`.  Whoever takes at most the increase since
the display taken from last, or at most the display itself, never takes more
than that over any number of displays (`Spent.display`).
-/

namespace MiniLakehouse

/-- The positive increases along a list, from a first value. -/
def increases : Nat → List Nat → Nat
  | _, [] => 0
  | last, next :: rest => (next - last) + increases next rest

/-- What successive displays of a level offer: the first and every increase. -/
def replenished : List Nat → Nat
  | [] => 0
  | first :: rest => first + increases first rest

theorem increases_snoc (last next : Nat) (displays : List Nat) :
    increases last (displays ++ [next]) =
      increases last displays + (next - displays.getLast?.getD last) := by
  induction displays generalizing last with
  | nil => simp [increases]
  | cons display rest ih =>
      simp only [List.cons_append, increases, ih, List.getLast?_cons, Option.getD_some]
      omega

theorem replenished_snoc (displays : List Nat) (next : Nat) :
    replenished (displays ++ [next]) =
      replenished displays + (next - displays.getLast?.getD 0) := by
  cases displays with
  | nil => simp [replenished, increases]
  | cons first rest =>
      simp only [List.cons_append, replenished, increases_snoc, List.getLast?_cons,
        Option.getD_some]
      omega

/-- What has been taken stays within what was offered, with the last display's
increase over the display `taken` from last still to spare. -/
def Spent (displays : List Nat) (taken spent : Nat) : Prop :=
  spent + (displays.getLast?.getD 0 - taken) ≤ replenished displays

theorem Spent.start : Spent [] 0 0 := by simp [Spent, replenished]

/-- A display nothing is taken from. -/
theorem Spent.skip {displays : List Nat} {taken spent : Nat} (h : Spent displays taken spent)
    (next : Nat) : Spent (displays ++ [next]) taken spent := by
  unfold Spent at *
  rw [replenished_snoc, List.getLast?_concat, Option.getD_some]
  omega

/-- A display of which at most the increase is taken. -/
theorem Spent.display {displays : List Nat} {taken spent more : Nat}
    (h : Spent displays taken spent) {next : Nat} (hmore : more ≤ next - taken) :
    Spent (displays ++ [next]) next (spent + more) := by
  unfold Spent at *
  rw [replenished_snoc, List.getLast?_concat, Option.getD_some]
  omega

theorem Spent.bounded {displays : List Nat} {taken spent : Nat}
    (h : Spent displays taken spent) : spent ≤ replenished displays :=
  (Nat.le_add_right _ _).trans h

end MiniLakehouse
