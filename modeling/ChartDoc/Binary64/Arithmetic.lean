/-
  Product and square root, each rounded once from the exact result, with the standard's rules
  for zeros, infinities and NaN.

  The square root of a number of units is irrational in general. It is rounded through twice
  its whole part, plus one when something is left over: the result lies on the same side of
  every place where rounding changes, because those places are whole numbers of units here.
-/
import ChartDoc.Binary64.Rounding

namespace ChartDoc

namespace Binary64

/-- The product of two finite values. -/
def Finite.mul (x y : Finite) : Binary64 :=
  ofRatio (xor x.negative y.negative) (x.ulps * y.ulps) unitsInOne

/-- The product of two numbers; zero times infinity is NaN. -/
def mul : Binary64 → Binary64 → Binary64
  | nan, _ => nan
  | _, nan => nan
  | infinite s, infinite t => infinite (xor s t)
  | infinite s, finite y => if y.isZero then nan else infinite (xor s y.negative)
  | finite x, infinite t => if x.isZero then nan else infinite (xor x.negative t)
  | finite x, finite y => x.mul y

instance : Mul Binary64 :=
  ⟨mul⟩

/-- The whole part of the square root of a natural number. -/
def wholeRoot (n : Nat) : Nat :=
  if n = 0 then 0
  else
    let root := 2 * wholeRoot (n / 4)
    if (root + 1) * (root + 1) ≤ n then root + 1 else root
termination_by n
decreasing_by omega

/-- The whole root is the greatest number whose square does not exceed the argument. -/
theorem wholeRoot_bounds (n : Nat) :
    wholeRoot n * wholeRoot n ≤ n ∧ n < (wholeRoot n + 1) * (wholeRoot n + 1) := by
  induction n using Nat.strongRecOn with
  | ind n ih =>
    rw [wholeRoot]
    split
    · rename_i h
      subst h
      decide
    · obtain ⟨hlow, hhigh⟩ := ih (n / 4) (by omega)
      generalize wholeRoot (n / 4) = r at hlow hhigh
      have hsq : 2 * r * (2 * r) = 4 * (r * r) := by
        rw [Nat.mul_mul_mul_comm]
      have hnext : (2 * r + 2) * (2 * r + 2) = 4 * ((r + 1) * (r + 1)) := by
        rw [show 2 * r + 2 = 2 * (r + 1) by omega, Nat.mul_mul_mul_comm]
      dsimp only
      split
      · refine ⟨by assumption, ?_⟩
        rw [show 2 * r + 1 + 1 = 2 * r + 2 by omega, hnext]
        omega
      · refine ⟨?_, by omega⟩
        rw [hsq]
        omega

/-- The square root of a finite value that is not below zero. -/
def Finite.root (x : Finite) : Binary64 :=
  let square := x.ulps * unitsInOne
  let whole := wholeRoot square
  ofRatio false (2 * whole + if whole * whole < square then 1 else 0) 2

/-- The square root of a number: each zero is its own root, and numbers below zero have none. -/
def sqrt : Binary64 → Binary64
  | nan => nan
  | infinite negative => if negative then nan else infinite false
  | finite x => if x.isZero then finite x else if x.negative then nan else x.root

end Binary64

end ChartDoc
