/-
  JSON numbers as floats. A JSON number is a float or a whole number of at most 64 bits, and
  such a number is far below the greatest float, so every JSON number stands for a finite float
  (`toBinary64_isFinite`). Finite floats are ordered (`not_lt_iff`).
-/
import ChartDoc.Json.Basic
import Mathlib.Algebra.Group.Nat.Defs

namespace ChartDoc

namespace Binary64

theorem roundHalfEven_le (num den : Nat) : roundHalfEven num den ≤ num / den + 1 := by
  simp only [roundHalfEven]
  split
  · omega
  · split <;> omega

/-- A rank grows by a run whenever the quotient doubles. -/
theorem nearestRank_le {num den k : Nat} (h : num / den < 2 ^ k) :
    nearestRank num den ≤ (k - 53 + 2) * runLength := by
  simp only [nearestRank]
  generalize hshift : (num / den).log2 - 52 = shift
  have hround := roundHalfEven_le num (den <<< shift)
  rw [Nat.shiftLeft_eq, ← Nat.div_div_eq_div_mul] at hround
  have hbound : shift ≤ k - 53 := by
    by_cases hzero : num / den = 0
    · simp [← hshift, hzero]
    · have hlog := (Nat.log2_lt hzero).mpr h
      omega
  have hlt : num / den / 2 ^ shift < 2 ^ 53 := by
    rw [Nat.div_lt_iff_lt_mul (Nat.two_pow_pos shift), ← Nat.pow_add]
    calc num / den < 2 ^ ((num / den).log2 + 1) := Nat.lt_log2_self
      _ ≤ 2 ^ (53 + shift) := Nat.pow_le_pow_right (by omega) (by omega)
  have hmul := Nat.mul_le_mul_right runLength hbound
  have htwo : 2 * runLength = 2 ^ 53 := rfl
  rw [Nat.add_mul, Nat.shiftLeft_eq]
  omega

/-- A quotient far below the greatest magnitude is rounded to a finite number. -/
theorem ofRatio_isFinite (negative : Bool) {num den : Nat} (h : num / den < 2 ^ (1074 + 65)) :
    (ofRatio negative num den).isFinite = true := by
  have hrank : nearestRank num den < rankCount := Nat.lt_of_le_of_lt (nearestRank_le h) (by decide)
  unfold ofRatio
  rw [dif_pos hrank]
  rfl

/-- Whole numbers of at most 64 bits are finite as floats. -/
theorem ofInt_isFinite {n : Int} (h : n.natAbs ≤ 2 ^ 64) : (ofInt n).isFinite = true := by
  have hshift : ∀ k, 1 <<< k = 2 ^ k := Nat.one_shiftLeft
  have hmul : ∀ k, n.natAbs * 2 ^ k < 2 ^ (k + 65) := by
    intro k
    rw [Nat.pow_add, Nat.mul_comm]
    exact Nat.mul_lt_mul_of_pos_left (by omega) (Nat.two_pow_pos k)
  have hunits : n.natAbs * tenPow 0 * unitsInOne / 1 < 2 ^ (1074 + 65) := by
    rw [tenPow_zero, Nat.mul_one, Nat.div_one, unitsInOne, hshift]
    apply hmul
  unfold ofInt ofDecimal
  split
  · rfl
  · rw [if_neg (by omega)]
    split
    · rfl
    · rw [if_pos (by omega)]
      exact ofRatio_isFinite _ hunits

/-- Of two finite numbers one is at most the other. -/
theorem not_lt_iff {x y : Binary64} (hx : x.isFinite = true) (hy : y.isFinite = true) :
    ¬x < y ↔ y ≤ x := by
  obtain ⟨a, rfl⟩ := isFinite_iff.mp hx
  obtain ⟨b, rfl⟩ := isFinite_iff.mp hy
  simp [lt_iff, le_iff, place?]

end Binary64

/-- Every JSON number stands for a finite float. -/
theorem Json.Number.toBinary64_isFinite (n : Json.Number) : n.toBinary64.isFinite = true := by
  cases n with
  | whole n fits =>
    obtain ⟨hleast, hmost⟩ := fits
    exact Binary64.ofInt_isFinite (by omega)
  | float x => rfl

end ChartDoc
