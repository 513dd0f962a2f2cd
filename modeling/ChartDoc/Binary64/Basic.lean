/-
  Binary floating point with 64 bits, as an exact model on integers.

  Model. A finite value is a sign and the rank of its magnitude: the finite magnitudes are
  numbered from zero upwards without gaps, so rank 0 is zero, rank 1 the least positive
  magnitude and `rankCount - 1` the greatest. The rank is the low 63 bits of the usual bit
  pattern. Every finite magnitude is a whole number of units of `2 ^ (-1074)`; `ulps` gives
  that number. All NaNs are one value: nothing here can tell two of them apart.

  Equality. `==` is the comparison of the standard: NaN differs from itself and the two zeros
  are equal. `=` tells the two zeros apart. There is deliberately no decision procedure for
  `=` on the whole type, so `==` has one meaning wherever a value occurs; `Finite` has one.
-/

namespace ChartDoc

namespace Binary64

/-- The number of finite magnitudes. -/
def rankCount : Nat := 0x7FF0000000000000

/-- A finite value. -/
structure Finite where
  negative : Bool
  rank : Fin rankCount
deriving DecidableEq

/-- The number of ranks in a run of equally distant magnitudes, `2 ^ 52`. -/
def runLength : Nat := 0x10000000000000

/-- The units of `2 ^ (-1074)` in the magnitude of a rank. The ranks of the first run count
    units directly; each run after the second doubles the distance. -/
def ulps (rank : Nat) : Nat :=
  if rank < runLength then rank
  else (runLength + rank % runLength) <<< (rank / runLength - 1)

theorem ulps_of_lt {rank : Nat} (h : rank < runLength) : ulps rank = rank :=
  if_pos h

theorem ulps_of_ge {rank : Nat} (h : runLength ≤ rank) :
    ulps rank = (runLength + rank % runLength) <<< (rank / runLength - 1) :=
  if_neg (Nat.not_lt.mpr h)

theorem ulps_zero : ulps 0 = 0 := rfl

/-- Only rank 0 is zero. -/
theorem ulps_pos {rank : Nat} (h : 0 < rank) : 0 < ulps rank := by
  by_cases hr : rank < runLength
  · rwa [ulps_of_lt hr]
  · rw [ulps_of_ge (by omega), Nat.shiftLeft_eq]
    have : 0 < runLength := by decide
    exact Nat.mul_pos (by omega) (Nat.two_pow_pos _)

namespace Finite

/-- The units of `2 ^ (-1074)` in the magnitude of a value. -/
def ulps (x : Finite) : Nat :=
  Binary64.ulps x.rank

/-- Whether a value is one of the two zeros. -/
def isZero (x : Finite) : Bool :=
  x.rank.val = 0

/-- A place on the number line that orders finite values; both zeros have place 0. -/
def place (x : Finite) : Int :=
  if x.negative then -(x.rank.val : Int) else x.rank.val

/-- The zero of the given sign. -/
def zero (negative : Bool) : Finite :=
  ⟨negative, ⟨0, by decide⟩⟩

/-- Values at the same place are equal but for the sign of zero. -/
theorem eq_of_place_eq {x y : Finite} (h : x.place = y.place) (hx : x.rank.val ≠ 0) : x = y := by
  obtain ⟨nx, rx⟩ := x
  obtain ⟨ny, ry⟩ := y
  have hr : rx.val = ry.val ∧ nx = ny := by
    cases nx <;> cases ny <;>
      simp only [place, Bool.false_eq_true, if_true, if_false, reduceCtorEq, and_true,
        and_false] at h hx ⊢ <;> omega
  rw [Fin.ext hr.1, hr.2]

end Finite

end Binary64

/-- A binary floating point number with 64 bits. -/
inductive Binary64 where
  | nan
  | infinite (negative : Bool)
  | finite (value : Binary64.Finite)

namespace Binary64

/-- The finite value, if the number is finite. -/
def finite? : Binary64 → Option Finite
  | finite x => some x
  | _ => none

/-- Whether a number is finite. -/
def isFinite (x : Binary64) : Bool :=
  x.finite?.isSome

/-- Whether a number is NaN. -/
def isNaN : Binary64 → Bool
  | nan => true
  | _ => false

/-- The sign of a number; NaN counts as positive. -/
def negative : Binary64 → Bool
  | nan => false
  | infinite negative => negative
  | finite x => x.negative

/-- The place of a number on the line that orders all numbers but NaN: the infinities stand
    one place beyond the greatest finite values. -/
def place? : Binary64 → Option Int
  | nan => none
  | infinite negative => some (if negative then -(rankCount : Int) else rankCount)
  | finite x => some x.place

/-- Comparison of two places; it fails when either is missing. -/
def comparePlaces (test : Int → Int → Bool) (x y : Binary64) : Bool :=
  match x.place?, y.place? with
  | some a, some b => test a b
  | _, _ => false

instance : BEq Binary64 :=
  ⟨comparePlaces (· == ·)⟩

instance : LT Binary64 :=
  ⟨fun x y => comparePlaces (fun a b => decide (a < b)) x y = true⟩

instance : LE Binary64 :=
  ⟨fun x y => comparePlaces (fun a b => decide (a ≤ b)) x y = true⟩

instance (x y : Binary64) : Decidable (x < y) :=
  inferInstanceAs (Decidable (comparePlaces _ x y = true))

instance (x y : Binary64) : Decidable (x ≤ y) :=
  inferInstanceAs (Decidable (comparePlaces _ x y = true))

/-- The bit of the pattern that holds the sign. -/
def signBit : Nat := 0x8000000000000000

/-- The 64-bit pattern of a number; NaN has the quiet pattern without payload. -/
def bits : Binary64 → Nat
  | nan => 0x7FF8000000000000
  | infinite negative => (if negative then signBit else 0) + rankCount
  | finite x => (if x.negative then signBit else 0) + x.rank.val

theorem isFinite_iff {x : Binary64} : x.isFinite = true ↔ ∃ y, x = finite y := by
  cases x <;> simp [isFinite, finite?]

theorem beq_finite (x y : Finite) : (finite x == finite y) = (x.place == y.place) := rfl

/-- A number equals itself unless it is NaN. -/
theorem beq_self_iff {x : Binary64} : (x == x) = true ↔ x ≠ nan := by
  cases x <;> simp [BEq.beq, comparePlaces, place?]

theorem lt_iff {x y : Binary64} :
    x < y ↔ ∃ a b, x.place? = some a ∧ y.place? = some b ∧ a < b := by
  show comparePlaces _ x y = true ↔ _
  unfold comparePlaces
  cases x.place? <;> cases y.place? <;> simp

theorem le_iff {x y : Binary64} :
    x ≤ y ↔ ∃ a b, x.place? = some a ∧ y.place? = some b ∧ a ≤ b := by
  show comparePlaces _ x y = true ↔ _
  unfold comparePlaces
  cases x.place? <;> cases y.place? <;> simp

end Binary64

end ChartDoc
