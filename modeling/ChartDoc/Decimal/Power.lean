/-
  Powers of ten among the natural numbers, under a name of their own and with the few facts
  that decimal numbers need.
-/

namespace ChartDoc

/-- The power of ten with `k` zeros. -/
def tenPow (k : Nat) : Nat :=
  Nat.pow 10 k

theorem tenPow_zero : tenPow 0 = 1 := rfl

theorem tenPow_succ (k : Nat) : tenPow (k + 1) = tenPow k * 10 := rfl

theorem tenPow_pos (k : Nat) : 0 < tenPow k := by
  induction k with
  | zero => decide
  | succ k ih => rw [tenPow_succ]; omega

theorem tenPow_add (j k : Nat) : tenPow (j + k) = tenPow j * tenPow k := by
  induction k with
  | zero => rw [Nat.add_zero, tenPow_zero, Nat.mul_one]
  | succ k ih => rw [← Nat.add_assoc, tenPow_succ, tenPow_succ, ih, Nat.mul_assoc]

end ChartDoc
