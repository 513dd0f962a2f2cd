/-
  The shortest decimal of a finite value: the fewest digits from which the value is read back,
  and among decimals of that length the nearest to the value. Which of two equally near ones
  is taken is left to the caller.

  For a number of digits it suffices to try the two neighbours of the value on the grid of
  decimals with that many digits: if any decimal of that length is read back, so is one of
  these two. Seventeen digits always suffice; should they not, the exact decimal is the
  answer, so the result is read back without any argument about seventeen.
-/
import ChartDoc.Binary64.Rounding

namespace ChartDoc

namespace Binary64

/-- A decimal number `coefficient * 10 ^ scale`. -/
structure Decimal where
  coefficient : Nat
  scale : Int
deriving DecidableEq

/-- Which of two equally near decimals is taken. -/
inductive Tie where
  /-- The one whose last digit is even. -/
  | toEven
  /-- The greater one. -/
  | up
deriving DecidableEq

/-- The number of decimal digits of a natural number. -/
def digitCount (n : Nat) : Nat :=
  if n < 10 then 1 else digitCount (n / 10) + 1

/-- The count is the length of the written digits. -/
theorem length_ofNat (n : Nat) : (Digit.ofNat n).length = digitCount n := by
  induction n using Nat.strongRecOn with
  | ind n ih =>
    rw [Digit.ofNat, digitCount]
    split
    · rfl
    · rw [List.length_append, ih (n / 10) (by omega)]
      rfl

namespace Decimal

/-- The decimal without trailing zeros in its coefficient. -/
def trim (d : Decimal) : Decimal :=
  if h : d.coefficient ≠ 0 ∧ d.coefficient % 10 = 0 then
    trim ⟨d.coefficient / 10, d.scale + 1⟩
  else d
termination_by d.coefficient
decreasing_by
  show d.coefficient / 10 < d.coefficient
  omega

end Decimal

namespace Finite

/-- Whether a value is the nearest number to a decimal with its sign. -/
def isReadFrom (x : Finite) (d : Decimal) : Bool :=
  match ofDecimal x.negative d.coefficient d.scale with
  | finite y => y = x
  | _ => false

/-- The exact magnitude of a value as a decimal: a unit of `2 ^ (-1074)` is `5 ^ 1074` at the
    scale `-1074`. -/
def exact (x : Finite) : Decimal :=
  ⟨x.ulps * Nat.pow 5 1074, -1074⟩

/-- Of two decimals one that the value is read back from; `preferBelow` decides between both. -/
def pick? (x : Finite) (preferBelow : Bool) (below above : Decimal) : Option Decimal :=
  match x.isReadFrom below, x.isReadFrom above with
  | true, true => some (if preferBelow then below else above)
  | true, false => some below
  | false, true => some above
  | false, false => none

/-- Whether the lower neighbour is taken when the value is read back from both: it is nearer,
    or it is as near and the choice between equally near decimals falls on it. -/
def preferBelow (tie : Tie) (below rest grid : Nat) : Bool :=
  2 * rest < grid || (2 * rest == grid && tie == .toEven && below % 2 == 0)

/-- The nearer of the two neighbours of a value on a grid, or the only one of them that the
    value is read back from. The grid keeps all but the last `dropped` digits of `exact`. -/
def onGrid? (tie : Tie) (x : Finite) (dropped : Nat) : Option Decimal :=
  let grid := tenPow dropped
  let below := x.exact.coefficient / grid
  let scale := x.exact.scale + dropped
  x.pick? (preferBelow tie below (x.exact.coefficient % grid) grid) ⟨below, scale⟩
    ⟨below + 1, scale⟩

/-- The most digits that are tried before the exact decimal is taken. -/
def mostDigits : Nat := 17

/-- The shortest decimal of a finite value. -/
def shortest (tie : Tie) (x : Finite) : Decimal :=
  if x.isZero then ⟨0, 0⟩
  else
    let count := digitCount x.exact.coefficient
    let found := (List.range mostDigits).findSome? fun n => x.onGrid? tie (count - (n + 1))
    (found.getD x.exact).trim

theorem isReadFrom_iff {x : Finite} {d : Decimal} :
    x.isReadFrom d = true ↔ ofDecimal x.negative d.coefficient d.scale = finite x := by
  unfold isReadFrom
  split
  · rename_i y hy
    simp [hy]
  · rename_i hne
    simp only [Bool.false_eq_true, false_iff]
    exact fun h => hne x h

/-- A decimal is only picked when the value is read back from it. -/
theorem isReadFrom_of_pick? {x : Finite} {preferBelow : Bool} {below above d : Decimal}
    (h : x.pick? preferBelow below above = some d) : x.isReadFrom d = true := by
  unfold pick? at h
  split at h
  · rename_i hb ha
    cases preferBelow
    · simpa [← Option.some.inj h] using ha
    · simpa [← Option.some.inj h] using hb
  · rename_i hb _
    rwa [← Option.some.inj h]
  · rename_i _ ha
    rwa [← Option.some.inj h]
  · simp at h

theorem isReadFrom_of_onGrid? {tie : Tie} {x : Finite} {dropped : Nat} {d : Decimal}
    (h : x.onGrid? tie dropped = some d) : x.isReadFrom d = true :=
  isReadFrom_of_pick? h

end Finite

end Binary64

end ChartDoc
