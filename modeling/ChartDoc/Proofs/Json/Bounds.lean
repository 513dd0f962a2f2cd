/-
  Comparison with bounds. A schema compares numbers by their exact values, the walk by the floats
  they stand for. Floats are ordered as their values are (`Finite.units_le_iff`), but a whole
  number may be rounded onto a bound that it does not reach. That cannot happen with a bound that
  is a float itself and whose neighbours among the whole numbers are rounded to other floats
  (`Number.isSharp`): with such a bound both comparisons agree (`Number.le_toBinary64_iff`,
  `Number.toBinary64_le_iff`).
-/
import ChartDoc.Proofs.Binary64.Order
import ChartDoc.Proofs.Schema.Meaning

namespace ChartDoc

namespace Binary64

/-! ## Order -/

/-- Finite values are ordered as their places are. -/
theorem Finite.units_le_iff {x y : Finite} : x.units ≤ y.units ↔ x.place ≤ y.place := by
  have hle : Binary64.ulps x.rank ≤ Binary64.ulps y.rank ↔ x.rank.val ≤ y.rank.val := ulps_le_iff
  have hge : Binary64.ulps y.rank ≤ Binary64.ulps x.rank ↔ y.rank.val ≤ x.rank.val := ulps_le_iff
  have hx : Binary64.ulps x.rank ≤ Binary64.ulps 0 ↔ x.rank.val ≤ 0 := ulps_le_iff
  have hy : Binary64.ulps y.rank ≤ Binary64.ulps 0 ↔ y.rank.val ≤ 0 := ulps_le_iff
  rw [ulps_zero] at hx hy
  unfold units place ulps
  cases x.negative <;> cases y.negative <;>
    simp only [Bool.false_eq_true, if_true, if_false] <;> omega

/-! ## Whole numbers -/

/-- The rank of a whole number, or the count of ranks if the number is too great. -/
def wholeRank (n : Nat) : Nat :=
  min (nearestRank (decimalNum n 0) (decimalDen 0)) rankCount

theorem wholeRank_mono {m n : Nat} (h : m ≤ n) : wholeRank m ≤ wholeRank n := by
  have hnum : decimalNum m 0 ≤ decimalNum n 0 :=
    Nat.mul_le_mul_right _ (Nat.mul_le_mul_right _ h)
  have hrank := nearestRank_mono (decimalDen 0) hnum
  unfold wholeRank
  omega

theorem place?_ofRatio (negative : Bool) (num den : Nat) :
    (ofRatio negative num den).place? =
      some (if negative then -((min (nearestRank num den) rankCount : Nat) : Int)
        else (min (nearestRank num den) rankCount : Nat)) := by
  unfold ofRatio
  split
  · rename_i h
    rw [Nat.min_eq_left (Nat.le_of_lt h)]
    rfl
  · rename_i h
    rw [Nat.min_eq_right (Nat.not_lt.mp h)]
    rfl

theorem place?_ofInt (n : Int) : (ofInt n).place? =
    some (if n < 0 then -(wholeRank n.natAbs : Int) else wholeRank n.natAbs) := by
  rw [ofInt, ofDecimal_eq, place?_ofRatio]
  simp only [decide_eq_true_eq]
  rfl

/-- Rounding keeps the order of whole numbers. -/
theorem ofInt_mono {m n : Int} (h : m ≤ n) : ofInt m ≤ ofInt n := by
  refine le_iff.mpr ⟨_, _, place?_ofInt m, place?_ofInt n, ?_⟩
  by_cases hn : n < 0
  · have hrank := wholeRank_mono (show n.natAbs ≤ m.natAbs by omega)
    rw [if_pos hn, if_pos (show m < 0 by omega)]
    omega
  · rw [if_neg hn]
    split
    · omega
    · have hrank := wholeRank_mono (show m.natAbs ≤ n.natAbs by omega)
      omega

end Binary64

namespace Json.Number

open Binary64

/-- Whether a bound is a whole number that keeps its value as a float, and no other whole number
    is rounded to that float. -/
def isSharp : Number → Bool
  | whole k _ =>
    match ofInt k with
    | .finite y =>
      y.units == k * (unitsInOne : Int) && decide (ofInt (k - 1) < ofInt k) &&
        decide (ofInt k < ofInt (k + 1))
    | _ => false
  | float _ => false

/-- What a sharp bound is. -/
theorem exists_of_isSharp {bound : Number} (h : bound.isSharp = true) :
    ∃ k fits y, bound = whole k fits ∧ ofInt k = .finite y ∧ y.units = k * (unitsInOne : Int) ∧
      ofInt (k - 1) < ofInt k ∧ ofInt k < ofInt (k + 1) := by
  cases bound with
  | whole k fits =>
    unfold isSharp at h
    cases hk : ofInt k with
    | finite y =>
      simp only [hk, Bool.and_eq_true, beq_iff_eq, decide_eq_true_eq] at h
      obtain ⟨⟨hunits, hbelow⟩, habove⟩ := h
      exact ⟨k, fits, y, rfl, hk, hunits, hk ▸ hbelow, hk ▸ habove⟩
    | _ =>
      simp only [hk] at h
      cases h
  | float x => cases h

/-- A number reaches a sharp bound exactly when its float does. -/
theorem le_toBinary64_iff {bound : Number} (h : bound.isSharp = true) (n : Number) :
    bound.toBinary64 ≤ n.toBinary64 ↔ bound.units ≤ n.units := by
  obtain ⟨k, fits, y, rfl, hy, hunits, hbelow, -⟩ := exists_of_isSharp h
  cases n with
  | whole m _ =>
    show ofInt k ≤ ofInt m ↔ k * (unitsInOne : Int) ≤ m * unitsInOne
    rw [Schema.units_whole_le_iff]
    refine ⟨fun hle => ?_, ofInt_mono⟩
    by_contra hlt
    have hdown : ofInt m ≤ ofInt (k - 1) := ofInt_mono (by omega)
    exact not_le_of_lt hbelow (le_trans hle hdown)
  | float x =>
    show ofInt k ≤ .finite x ↔ k * (unitsInOne : Int) ≤ x.units
    rw [hy, ← hunits, Finite.units_le_iff]
    simp [le_iff, place?]

/-- A number stays within a sharp bound exactly when its float does. -/
theorem toBinary64_le_iff {bound : Number} (h : bound.isSharp = true) (n : Number) :
    n.toBinary64 ≤ bound.toBinary64 ↔ n.units ≤ bound.units := by
  obtain ⟨k, fits, y, rfl, hy, hunits, -, habove⟩ := exists_of_isSharp h
  cases n with
  | whole m _ =>
    show ofInt m ≤ ofInt k ↔ m * (unitsInOne : Int) ≤ k * unitsInOne
    rw [Schema.units_whole_le_iff]
    refine ⟨fun hle => ?_, ofInt_mono⟩
    by_contra hlt
    have hup : ofInt (k + 1) ≤ ofInt m := ofInt_mono (by omega)
    exact not_le_of_lt habove (le_trans hup hle)
  | float x =>
    show .finite x ≤ ofInt k ↔ x.units ≤ k * (unitsInOne : Int)
    rw [hy, ← hunits, Finite.units_le_iff]
    simp [le_iff, place?]

end Json.Number

end ChartDoc
