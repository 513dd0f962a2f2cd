/-
  Rounding keeps the order of what is rounded, and depends on nothing but the value.

  A greater quotient has no lesser rank (`nearestRank_mono`): when both are rounded with the same
  shift, the rounding of the quotient decides; with different shifts a whole run of ranks lies
  between. Ranks and magnitudes are therefore ordered alike (`ulps_le_iff`). A common factor of
  numerator and denominator does not matter (`ofRatio_mul_right`), nor do the shortcuts that
  `ofDecimal` takes for great and small exponents (`ofDecimal_eq`), so decimals of the same value
  are rounded to the same number (`ofDecimal_mul_tenPow`).
-/
import ChartDoc.Proofs.Json.Number
import Mathlib.Tactic.Ring

namespace ChartDoc

namespace Binary64

/-! ## Order -/

theorem div_le_roundHalfEven (num den : Nat) : num / den ≤ roundHalfEven num den := by
  simp only [roundHalfEven]
  split
  · exact Nat.le_refl _
  · split <;> omega

theorem roundHalfEven_mono {num num' : Nat} (den : Nat) (h : num ≤ num') :
    roundHalfEven num den ≤ roundHalfEven num' den := by
  have hquot : num / den ≤ num' / den := Nat.div_le_div_right h
  rcases Nat.eq_or_lt_of_le hquot with heq | hlt
  · have hsplit := Nat.div_add_mod num den
    have hsplit' := Nat.div_add_mod num' den
    rw [← heq] at hsplit'
    have hrest : num % den ≤ num' % den := by omega
    simp only [roundHalfEven, ← heq]
    split <;> split <;> (try split) <;> (try split) <;> omega
  · have hupper := roundHalfEven_le num den
    have hlower := div_le_roundHalfEven num' den
    omega

theorem log2_mono {m n : Nat} (h : m ≤ n) : m.log2 ≤ n.log2 := by
  by_cases hm : m = 0
  · rw [hm]
    exact Nat.zero_le _
  · have hn : n ≠ 0 := by omega
    exact (Nat.le_log2 hn).mpr (Nat.le_trans (Nat.log2_self_le hm) h)

/-- After its shift a quotient has 53 bits at most. -/
theorem roundHalfEven_shift_le (num den : Nat) :
    roundHalfEven num (den <<< ((num / den).log2 - 52)) ≤ 2 * runLength := by
  generalize hshift : (num / den).log2 - 52 = shift
  have hround := roundHalfEven_le num (den <<< shift)
  rw [Nat.shiftLeft_eq, ← Nat.div_div_eq_div_mul] at hround
  have hlt : num / den / 2 ^ shift < 2 ^ 53 := by
    rw [Nat.div_lt_iff_lt_mul (Nat.two_pow_pos shift), ← Nat.pow_add]
    calc num / den < 2 ^ ((num / den).log2 + 1) := Nat.lt_log2_self
      _ ≤ 2 ^ (53 + shift) := Nat.pow_le_pow_right (by omega) (by omega)
  have htwo : 2 * runLength = 2 ^ 53 := rfl
  rw [Nat.shiftLeft_eq]
  omega

/-- After a shift that is not zero a quotient has 53 bits at least. -/
theorem le_roundHalfEven_shift (num den : Nat) (h : 52 < (num / den).log2) :
    runLength ≤ roundHalfEven num (den <<< ((num / den).log2 - 52)) := by
  generalize hshift : (num / den).log2 - 52 = shift
  have hround := div_le_roundHalfEven num (den <<< shift)
  rw [Nat.shiftLeft_eq, ← Nat.div_div_eq_div_mul] at hround
  have hne : num / den ≠ 0 := by
    intro hzero
    rw [hzero] at h
    exact absurd h (by decide)
  have hge : runLength ≤ num / den / 2 ^ shift := by
    rw [Nat.le_div_iff_mul_le (Nat.two_pow_pos shift)]
    calc runLength * 2 ^ shift = 2 ^ (num / den).log2 := by
          rw [show runLength = 2 ^ 52 from rfl, ← Nat.pow_add]
          congr 1
          omega
      _ ≤ num / den := Nat.log2_self_le hne
  rw [Nat.shiftLeft_eq]
  omega

/-- A greater quotient has no lesser rank. -/
theorem nearestRank_mono {num num' : Nat} (den : Nat) (h : num ≤ num') :
    nearestRank num den ≤ nearestRank num' den := by
  have hlog := log2_mono (Nat.div_le_div_right (c := den) h)
  have hupper := roundHalfEven_shift_le num den
  simp only [nearestRank]
  rcases Nat.eq_or_lt_of_le (Nat.sub_le_sub_right hlog 52) with heq | hlt
  · rw [heq]
    exact Nat.add_le_add_left (roundHalfEven_mono _ h) _
  · -- The next shift adds a run of ranks, and the shifted quotient is another run at least.
    have hlower := le_roundHalfEven_shift num' den (by omega)
    have hruns := Nat.mul_le_mul_right runLength (Nat.succ_le_of_lt hlt)
    rw [Nat.succ_mul] at hruns
    omega

/-- Ranks are ordered as their magnitudes are. -/
theorem ulps_le_iff {rank rank' : Nat} : ulps rank ≤ ulps rank' ↔ rank ≤ rank' := by
  have hrank (k : Nat) : nearestRank (ulps k) 1 = k := by
    have hone := nearestRank_ulps k Nat.one_pos
    rwa [Nat.mul_one] at hone
  have hmono {j k : Nat} (h : ulps j ≤ ulps k) : j ≤ k := by
    have hle := nearestRank_mono 1 h
    rwa [hrank, hrank] at hle
  refine ⟨hmono, fun h => ?_⟩
  rcases Nat.le_total (ulps rank) (ulps rank') with hle | hge
  · exact hle
  · have heq : rank = rank' := Nat.le_antisymm h (hmono hge)
    rw [heq]

/-- A quotient of at least a magnitude has at least its rank. -/
theorem le_nearestRank {rank num den : Nat} (hden : 0 < den) (h : ulps rank * den ≤ num) :
    rank ≤ nearestRank num den := by
  have hmono := nearestRank_mono den h
  rwa [nearestRank_ulps rank hden] at hmono

/-- A quotient below one half is rounded to zero. -/
theorem nearestRank_eq_zero {num den : Nat} (h : 2 * num < den) : nearestRank num den = 0 := by
  have hquot : num / den = 0 := Nat.div_eq_of_lt (by omega)
  have hrest : num % den = num := Nat.mod_eq_of_lt (by omega)
  simp [nearestRank, roundHalfEven, hquot, hrest, h]

/-! ## Common factors -/

theorem roundHalfEven_mul_right (num den : Nat) {k : Nat} (h : 0 < k) :
    roundHalfEven (num * k) (den * k) = roundHalfEven num den := by
  have hbelow : 2 * (num % den * k) < den * k ↔ 2 * (num % den) < den := by
    rw [← Nat.mul_assoc]
    exact Nat.mul_lt_mul_right h
  have habove : den * k < 2 * (num % den * k) ↔ den < 2 * (num % den) := by
    rw [← Nat.mul_assoc]
    exact Nat.mul_lt_mul_right h
  simp only [roundHalfEven, Nat.mul_div_mul_right _ _ h, Nat.mul_mod_mul_right, hbelow, habove]

theorem nearestRank_mul_right (num den : Nat) {k : Nat} (h : 0 < k) :
    nearestRank (num * k) (den * k) = nearestRank num den := by
  have hshift (shift : Nat) : (den * k) <<< shift = den <<< shift * k := by
    rw [Nat.shiftLeft_eq, Nat.shiftLeft_eq, Nat.mul_right_comm]
  simp only [nearestRank, Nat.mul_div_mul_right _ _ h, hshift, roundHalfEven_mul_right _ _ h]

theorem ofRatio_mul_right (negative : Bool) (num den : Nat) {k : Nat} (h : 0 < k) :
    ofRatio negative (num * k) (den * k) = ofRatio negative num den := by
  simp only [ofRatio, nearestRank_mul_right num den h]

/-- Equal quotients are rounded alike. -/
theorem ofRatio_congr (negative : Bool) {num den num' den' : Nat} (hden : 0 < den)
    (hden' : 0 < den') (h : num * den' = num' * den) :
    ofRatio negative num den = ofRatio negative num' den' := by
  rw [← ofRatio_mul_right negative num den hden', h, Nat.mul_comm den den',
    ofRatio_mul_right negative num' den' hden]

/-! ## Decimals -/

theorem ofRatio_of_rank_eq_zero {num den : Nat} (negative : Bool) (h : nearestRank num den = 0) :
    ofRatio negative num den = finite (.zero negative) := by
  have hlt : nearestRank num den < rankCount := by
    rw [h]
    decide
  unfold ofRatio
  rw [dif_pos hlt]
  simp [h, Finite.zero]

theorem ofRatio_of_rankCount_le {num den : Nat} (negative : Bool)
    (h : rankCount ≤ nearestRank num den) : ofRatio negative num den = infinite negative :=
  dif_neg (Nat.not_lt.mpr h)

/-- The numerator of a decimal in units of `2 ^ (-1074)`; the negative part of its scale is left
    to the denominator. -/
def decimalNum (coefficient : Nat) (scale : Int) : Nat :=
  coefficient * tenPow scale.toNat * unitsInOne

/-- The denominator of a decimal. -/
def decimalDen (scale : Int) : Nat :=
  tenPow (-scale).toNat

/-- The binary exponent of the units in one. -/
def unitExponent : Nat := 1074

theorem unitsInOne_eq : unitsInOne = 2 ^ unitExponent :=
  Nat.one_shiftLeft unitExponent

theorem unitsInOne_pos : 0 < unitsInOne := by
  rw [unitsInOne_eq]
  exact Nat.two_pow_pos unitExponent

theorem two_pow_le_tenPow (k : Nat) : 2 ^ (3 * k) ≤ tenPow k := by
  rw [Nat.pow_mul]
  exact Nat.pow_le_pow_left (by omega) k

/-- The magnitude that follows the greatest one would be `2 ^ 1024`. -/
theorem ulps_rankCount : ∃ k, k = 1024 + unitExponent ∧ ulps rankCount = 2 ^ k := by
  have hrest : runLength + rankCount % runLength = 2 ^ 52 := by decide
  refine ⟨52 + (rankCount / runLength - 1), by decide, ?_⟩
  rw [ulps_of_ge (by decide), hrest, Nat.shiftLeft_eq, Nat.pow_add]

/-- A decimal beyond all numbers. -/
theorem rankCount_le_of_scale {coefficient : Nat} {scale : Int} (hne : coefficient ≠ 0)
    (h : 400 < scale) :
    rankCount ≤ nearestRank (decimalNum coefficient scale) (decimalDen scale) := by
  have hden : decimalDen scale = 1 := by
    rw [decimalDen, show (-scale).toNat = 0 by omega, tenPow_zero]
  have hcoefficient : 2 ^ (3 * scale.toNat) ≤ coefficient * tenPow scale.toNat :=
    Nat.le_trans (two_pow_le_tenPow _) (Nat.le_mul_of_pos_left _ (Nat.pos_of_ne_zero hne))
  obtain ⟨k, hk, hulps⟩ := ulps_rankCount
  rw [hden]
  refine le_nearestRank Nat.one_pos ?_
  rw [Nat.mul_one, decimalNum, unitsInOne_eq, hulps]
  calc 2 ^ k ≤ 2 ^ (3 * scale.toNat + unitExponent) := Nat.pow_le_pow_right (by omega) (by omega)
    _ = 2 ^ (3 * scale.toNat) * 2 ^ unitExponent := Nat.pow_add ..
    _ ≤ coefficient * tenPow scale.toNat * 2 ^ unitExponent := Nat.mul_le_mul_right _ hcoefficient

/-- A decimal below half of the least positive number. -/
theorem rank_eq_zero_of_scale {coefficient : Nat} {scale : Int}
    (h : (coefficient.log2 + 1076 : Int) ≤ 3 * -scale) :
    nearestRank (decimalNum coefficient scale) (decimalDen scale) = 0 := by
  have hnum : decimalNum coefficient scale = coefficient * 2 ^ unitExponent := by
    rw [decimalNum, show scale.toNat = 0 by omega, tenPow_zero, Nat.mul_one, unitsInOne_eq]
  have hexponent : unitExponent = 1074 := rfl
  apply nearestRank_eq_zero
  rw [hnum, decimalDen]
  calc 2 * (coefficient * 2 ^ unitExponent) <
        2 * (2 ^ (coefficient.log2 + 1) * 2 ^ unitExponent) :=
        Nat.mul_lt_mul_of_pos_left
          (Nat.mul_lt_mul_of_pos_right Nat.lt_log2_self (Nat.two_pow_pos unitExponent)) Nat.two_pos
    _ = 2 ^ (1 + (coefficient.log2 + 1 + unitExponent)) := by
        rw [Nat.pow_add 2 1, Nat.pow_add 2 (coefficient.log2 + 1), Nat.pow_one]
    _ ≤ 2 ^ (3 * (-scale).toNat) := Nat.pow_le_pow_right (by omega) (by omega)
    _ ≤ tenPow (-scale).toNat := two_pow_le_tenPow _

/-- A decimal is rounded from its exact value, whatever its scale is. -/
theorem ofDecimal_eq (negative : Bool) (coefficient : Nat) (scale : Int) :
    ofDecimal negative coefficient scale =
      ofRatio negative (decimalNum coefficient scale) (decimalDen scale) := by
  unfold ofDecimal
  split
  · rename_i hzero
    refine (ofRatio_of_rank_eq_zero negative (nearestRank_eq_zero ?_)).symm
    rw [hzero, decimalNum, Nat.zero_mul, Nat.zero_mul]
    exact tenPow_pos _
  · rename_i hne
    split
    · rename_i hgreat
      exact (ofRatio_of_rankCount_le negative (rankCount_le_of_scale hne hgreat)).symm
    · split
      · rename_i hsmall
        exact (ofRatio_of_rank_eq_zero negative (rank_eq_zero_of_scale hsmall)).symm
      · split
        · rw [decimalNum, decimalDen, show (-scale).toNat = 0 by omega, tenPow_zero]
        · rw [decimalNum, decimalDen, show scale.toNat = 0 by omega, tenPow_zero, Nat.mul_one]

/-- Decimals of the same value are rounded alike: zeros at the end of the coefficient count as
    the scale does. -/
theorem ofDecimal_mul_tenPow (negative : Bool) (coefficient k : Nat) (scale : Int) :
    ofDecimal negative (coefficient * tenPow k) scale =
      ofDecimal negative coefficient (scale + k) := by
  have hbalance : tenPow k * tenPow scale.toNat * tenPow (-(scale + k)).toNat =
      tenPow (scale + k).toNat * tenPow (-scale).toNat := by
    rw [← tenPow_add, ← tenPow_add, ← tenPow_add]
    congr 1
    omega
  rw [ofDecimal_eq, ofDecimal_eq]
  refine ofRatio_congr negative (tenPow_pos _) (tenPow_pos _) ?_
  rw [decimalNum, decimalNum, decimalDen, decimalDen]
  calc coefficient * tenPow k * tenPow scale.toNat * unitsInOne * tenPow (-(scale + k)).toNat =
        coefficient * unitsInOne *
          (tenPow k * tenPow scale.toNat * tenPow (-(scale + k)).toNat) := by ring
    _ = coefficient * unitsInOne * (tenPow (scale + k).toNat * tenPow (-scale).toNat) := by
        rw [hbalance]
    _ = coefficient * tenPow (scale + k).toNat * unitsInOne * tenPow (-scale).toNat := by ring

end Binary64

end ChartDoc
