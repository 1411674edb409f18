import Mathlib.Data.List.Basic
import Mathlib.Algebra.BigOperators.Group.List.Basic
import Mathlib.Algebra.Order.BigOperators.Group.List
import Mathlib.Algebra.Ring.Nat

/-!
# Saturating unsigned arithmetic

Unsigned 64-bit addition and multiplication that clamp at the largest value. All
summands are nonnegative, so a saturating fold moves in one direction, saturates
at most once, and equals one clamp of the true sum (`foldl_add`). Order and
grouping therefore do not matter, and the fold is monotone.
-/

namespace Saturating

/-- `u64::MAX`. -/
def MAX : Nat := 2 ^ 64 - 1

/-- `saturating_add`. -/
def add (a b : Nat) : Nat := min (a + b) MAX

/-- `saturating_mul`. -/
def mul (a b : Nat) : Nat := min (a * b) MAX

/-- The saturating sum of a list. -/
def sum (l : List Nat) : Nat := l.foldl add 0

variable {a b c d : Nat} {l l' : List Nat}

theorem add_le_max : add a b ≤ MAX := Nat.min_le_right _ _

theorem add_eq_of_le (h : a + b ≤ MAX) : add a b = a + b := Nat.min_eq_left h

/-- **A saturating fold is one clamp of the true sum.** -/
theorem foldl_add (l : List Nat) (a : Nat) (ha : a ≤ MAX) :
    l.foldl add a = min (a + l.sum) MAX := by
  induction l generalizing a with
  | nil => simp only [List.foldl_nil, List.sum_nil]; omega
  | cons x l ih =>
      rw [List.foldl_cons, ih _ add_le_max, List.sum_cons]
      simp only [add]
      omega

theorem sum_eq (l : List Nat) : sum l = min l.sum MAX := by
  rw [sum, foldl_add l 0 (Nat.zero_le _), Nat.zero_add]

/-- Clamping the summands first makes no difference. -/
theorem min_sum_min (l : List Nat) : min (l.map fun x => min x MAX).sum MAX = min l.sum MAX := by
  induction l with
  | nil => rfl
  | cons x l ih =>
      rw [List.map_cons, List.sum_cons, List.sum_cons]
      omega

end Saturating
