/-
  Rounding to binary floating point: the nearest finite value, a tie to the even rank, and
  infinity beyond the greatest value. Quotients, decimal numbers and integers are rounded
  exactly once, from their exact value.

  `nearestRank` knows no bound; overflow is decided afterwards, by comparing the rank with
  `rankCount`. Ranks are even exactly when the last bit of the magnitude is, so one rule for
  ties serves all magnitudes.
-/
import ChartDoc.Binary64.Basic
import ChartDoc.Decimal.Literal

namespace ChartDoc

namespace Binary64

/-- The whole number nearest to a quotient, a tie to the even one. -/
def roundHalfEven (num den : Nat) : Nat :=
  let below := num / den
  let rest := num % den
  if 2 * rest < den then below
  else if den < 2 * rest then below + 1
  else below + below % 2

/-- A quotient without rest is its own rounding. -/
theorem roundHalfEven_mul (n : Nat) {den : Nat} (h : 0 < den) :
    roundHalfEven (n * den) den = n := by
  simp [roundHalfEven, Nat.mul_div_cancel n h, h]

/-- The rank of the magnitude nearest to `num / den` units of `2 ^ (-1074)`, as if there were
    no greatest magnitude. The shift leaves 53 significant bits, or fewer in the first run. -/
def nearestRank (num den : Nat) : Nat :=
  let shift := (num / den).log2 - 52
  shift * runLength + roundHalfEven num (den <<< shift)

/-- The nearest number of the given sign to `num / den` units of `2 ^ (-1074)`. -/
def ofRatio (negative : Bool) (num den : Nat) : Binary64 :=
  if h : nearestRank num den < rankCount then finite ⟨negative, ⟨nearestRank num den, h⟩⟩
  else infinite negative

/-- Shifting a positive number lengthens it by the shift. -/
theorem log2_shiftLeft {m : Nat} (h : m ≠ 0) (shift : Nat) :
    (m <<< shift).log2 = m.log2 + shift := by
  induction shift with
  | zero => rfl
  | succ shift ih =>
    have hne : m <<< shift ≠ 0 := by
      rw [Nat.shiftLeft_eq]
      exact Nat.mul_ne_zero h (Nat.ne_of_gt (Nat.two_pow_pos _))
    rw [Nat.shiftLeft_succ, Nat.log2_two_mul hne, ih]
    omega

/-- A magnitude that needs no rounding keeps its rank. -/
theorem nearestRank_ulps (rank : Nat) {den : Nat} (h : 0 < den) :
    nearestRank (ulps rank * den) den = rank := by
  by_cases hr : rank < runLength
  · have hlog : rank.log2 - 52 = 0 := by
      by_cases h0 : rank = 0
      · simp [h0]
      · have : rank.log2 < 52 := (Nat.log2_lt h0).mpr hr
        omega
    simp only [nearestRank, ulps_of_lt hr, Nat.mul_div_cancel _ h, hlog]
    simp [roundHalfEven_mul rank h]
  · have hge : runLength ≤ rank := Nat.not_lt.mp hr
    have hlen : 0 < runLength := by decide
    have hm : rank % runLength < runLength := Nat.mod_lt _ hlen
    have hne : runLength + rank % runLength ≠ 0 := by omega
    have hlog : (runLength + rank % runLength).log2 = 52 :=
      (Nat.log2_eq_iff hne).mpr ⟨Nat.le_add_right _ _, by
        show runLength + rank % runLength < runLength + runLength
        omega⟩
    have hmul : (runLength + rank % runLength) <<< (rank / runLength - 1) * den
        = (runLength + rank % runLength) * den <<< (rank / runLength - 1) := by
      simp only [Nat.shiftLeft_eq, Nat.mul_assoc, Nat.mul_comm den]
    have hden : 0 < den <<< (rank / runLength - 1) := by
      rw [Nat.shiftLeft_eq]
      exact Nat.mul_pos h (Nat.two_pow_pos _)
    simp only [nearestRank, ulps_of_ge hge, Nat.mul_div_cancel _ h, log2_shiftLeft hne, hlog]
    rw [Nat.add_sub_cancel_left, hmul, roundHalfEven_mul _ hden]
    have hdiv : 1 ≤ rank / runLength := by
      rw [Nat.le_div_iff_mul_le hlen]
      omega
    have hsplit := Nat.div_add_mod rank runLength
    rw [Nat.sub_mul]
    have hcomm : rank / runLength * runLength = runLength * (rank / runLength) :=
      Nat.mul_comm _ _
    have hle : runLength ≤ rank / runLength * runLength := Nat.le_mul_of_pos_left _ hdiv
    omega

/-- A finite value is the nearest number to itself. -/
theorem ofRatio_ulps (x : Finite) {den : Nat} (h : 0 < den) :
    ofRatio x.negative (x.ulps * den) den = finite x := by
  have hrank : nearestRank (x.ulps * den) den = x.rank.val := nearestRank_ulps _ h
  unfold ofRatio
  rw [dif_pos (by rw [hrank]; exact x.rank.isLt)]
  simp [hrank]

/-- The units of `2 ^ (-1074)` in the number one. -/
def unitsInOne : Nat := 1 <<< 1074

/-- The nearest number to `coefficient * 10 ^ scale` with the given sign. The first three
    cases are zero, too great by far and too small by far; they only avoid great powers. -/
def ofDecimal (negative : Bool) (coefficient : Nat) (scale : Int) : Binary64 :=
  if coefficient = 0 then finite (.zero negative)
  else if 400 < scale then infinite negative
  else if (coefficient.log2 + 1076 : Int) ≤ 3 * -scale then finite (.zero negative)
  else if 0 ≤ scale then ofRatio negative (coefficient * tenPow scale.toNat * unitsInOne) 1
  else ofRatio negative (coefficient * unitsInOne) (tenPow (-scale).toNat)

/-- The nearest number to an integer. -/
def ofInt (n : Int) : Binary64 :=
  ofDecimal (n < 0) n.natAbs 0

/-- The nearest number to a natural number. -/
def ofNat (n : Nat) : Binary64 :=
  ofDecimal false n 0

/-- Decimal literals in the text of this library stand for the nearest number. -/
instance : OfScientific Binary64 where
  ofScientific mantissa exponentNegative exponent :=
    ofDecimal false mantissa (if exponentNegative then -(exponent : Int) else exponent)

/-- Integer literals in the text of this library stand for the nearest number. -/
instance (n : Nat) : OfNat Binary64 n :=
  ⟨ofNat n⟩

end Binary64

/-- The number that a literal stands for. -/
def Literal.value (l : Literal) : Binary64 :=
  Binary64.ofDecimal l.negative l.coefficient l.scale

end ChartDoc
