/-
  Numbers are read back from their texts. The shortest decimal of a finite value is rounded to
  the value (`ofDecimal_shortest`): it was picked because it is, or it is the exact decimal, and
  dropping zeros at its end changes nothing. A style decides where the point stands and whether
  there is an exponent, not which decimal the literal stands for (`NumeralStyle.value_literal`).
  So every text of a finite value, in whatever style, stands for the value
  (`Finite.value_literal`).
-/
import ChartDoc.Binary64.Numeral
import ChartDoc.Proofs.Binary64.Rounding

namespace ChartDoc

namespace Digit

theorem number_replicate_zero (k : Nat) : number (List.replicate k 0) = 0 := by
  induction k with
  | zero => rfl
  | succ k ih =>
    rw [List.replicate_succ', number_append_singleton, ih]
    rfl

/-- Zeros behind the digits of a number multiply it by a power of ten. -/
theorem number_append_zeros (ds : List Digit) (k : Nat) :
    number (ds ++ List.replicate k 0) = number ds * tenPow k := by
  rw [number_append, number_replicate_zero, List.length_replicate, Nat.add_zero]

/-- Zeros before the digits of a number do not matter. -/
theorem number_zeros_append (ds : List Digit) (k : Nat) :
    number (List.replicate k 0 ++ ds) = number ds := by
  rw [number_append, number_replicate_zero, Nat.zero_mul, Nat.zero_add]

end Digit

namespace Binary64

/-! ## The shortest decimal -/

theorem ofDecimal_zero (negative : Bool) (scale : Int) :
    ofDecimal negative 0 scale = finite (.zero negative) :=
  if_pos rfl

theorem ofDecimal_trim (negative : Bool) (d : Decimal) :
    ofDecimal negative d.trim.coefficient d.trim.scale =
      ofDecimal negative d.coefficient d.scale := by
  induction d using Decimal.trim.induct with
  | case1 d h ih =>
    have hcoefficient : d.coefficient = d.coefficient / 10 * tenPow 1 := by
      show d.coefficient = d.coefficient / 10 * 10
      omega
    rw [Decimal.trim, dif_pos h, ih]
    conv_rhs => rw [hcoefficient]
    exact (ofDecimal_mul_tenPow negative (d.coefficient / 10) 1 d.scale).symm
  | case2 d h => rw [Decimal.trim, dif_neg h]

namespace Finite

theorem exact_eq (x : Finite) : x.exact = ⟨x.ulps * Nat.pow 5 unitExponent, -unitExponent⟩ := by
  -- With a variable for the exponent no power is evaluated.
  have hvariable : ∀ k, k = 1074 → Decimal.mk (x.ulps * Nat.pow 5 1074) (-1074) =
      ⟨x.ulps * Nat.pow 5 k, -(k : Int)⟩ := by
    rintro _ rfl
    rfl
  exact hvariable unitExponent rfl

/-- A value is the nearest number to its exact decimal. -/
theorem ofDecimal_exact (x : Finite) :
    ofDecimal x.negative x.exact.coefficient x.exact.scale = finite x := by
  have hunits (k : Nat) : Nat.pow 5 k * 2 ^ k = tenPow k := (Nat.mul_pow 5 2 k).symm
  have hnum : decimalNum (x.ulps * Nat.pow 5 unitExponent) (-unitExponent) =
      x.ulps * tenPow unitExponent := by
    rw [decimalNum, show (-(unitExponent : Int)).toNat = 0 by omega, tenPow_zero, Nat.mul_one,
      unitsInOne_eq, Nat.mul_assoc, hunits]
  have hden : decimalDen (-unitExponent) = tenPow unitExponent := by
    rw [decimalDen, show (-(-(unitExponent : Int))).toNat = unitExponent by omega]
  rw [exact_eq, ofDecimal_eq, hnum, hden]
  exact ofRatio_ulps x (tenPow_pos _)

/-- Whatever is found among the digits of a value, or else its exact decimal, is read back. -/
theorem ofDecimal_getD_exact {x : Finite} {found : Option Decimal}
    (h : ∀ d, found = some d → x.isReadFrom d = true) :
    ofDecimal x.negative (found.getD x.exact).coefficient (found.getD x.exact).scale =
      finite x := by
  cases found with
  | none => exact x.ofDecimal_exact
  | some d => exact isReadFrom_iff.mp (h d rfl)

theorem shortest_of_isZero (tie : Tie) {x : Finite} (h : x.isZero = true) :
    x.shortest tie = ⟨0, 0⟩ :=
  if_pos h

theorem shortest_of_not_isZero (tie : Tie) {x : Finite} (h : ¬x.isZero = true) :
    x.shortest tie = (((List.range mostDigits).findSome? fun n =>
      x.onGrid? tie (digitCount x.exact.coefficient - (n + 1))).getD x.exact).trim :=
  if_neg h

/-- A value is the nearest number to its shortest decimal. -/
theorem ofDecimal_shortest (tie : Tie) (x : Finite) :
    ofDecimal x.negative (x.shortest tie).coefficient (x.shortest tie).scale = finite x := by
  by_cases hzero : x.isZero = true
  · have hrank : x.rank.val = 0 := by simpa [isZero] using hzero
    have heq : Finite.zero x.negative = x := by
      obtain ⟨negative, rank⟩ := x
      exact congrArg (Finite.mk negative) (Fin.ext hrank.symm)
    rw [shortest_of_isZero tie hzero, ofDecimal_zero, heq]
  · rw [shortest_of_not_isZero tie hzero, ofDecimal_trim]
    refine ofDecimal_getD_exact fun d hfound => ?_
    obtain ⟨n, -, hgrid⟩ := List.exists_of_findSome?_eq_some hfound
    exact isReadFrom_of_onGrid? hgrid

end Finite

/-! ## Styles -/

namespace NumeralStyle

theorem value_exponent (style : NumeralStyle) (power : Int) :
    (style.exponent power).value = power := by
  have hdigits : Digit.number (Digit.ofNat power.natAbs) = power.natAbs := Digit.number_ofNat _
  unfold exponent Literal.Exponent.value
  simp only [hdigits]
  by_cases hneg : power < 0
  · rw [if_pos hneg, if_pos rfl]
    omega
  · have hsign : (if style.exponentPlus then some Sign.plus else none) ≠ some Sign.minus := by
      split <;> nofun
    rw [if_neg hneg, if_neg hsign]
    omega

/-- A literal of the digits of a number, with zeros behind them and the point behind those. -/
theorem value_of_zeros {l : Literal} {scale : Int} (digits : List Digit) (k : Nat)
    (hdigits : l.whole ++ l.fraction.getD [] = digits ++ List.replicate k 0)
    (hscale : l.scale + k = scale) :
    l.value = ofDecimal l.negative (Digit.number digits) scale := by
  rw [Literal.value, Literal.coefficient, hdigits, Digit.number_append_zeros,
    ofDecimal_mul_tenPow, hscale]

/-- The literal of some digits has their sign and stands for their decimal, wherever its point
    is. -/
theorem value_literal (style : NumeralStyle) (sign : Option Sign) (first : Digit)
    (rest : List Digit) (power : Int) :
    (style.literal sign first rest power).value =
      ofDecimal (decide (sign = some .minus)) (Digit.number (first :: rest))
        (power - rest.length) := by
  unfold literal
  split
  · split
    · -- The point stands before the first digit, and zeros between them.
      rename_i hneg
      have hnumber : Digit.number
          ([0] ++ (List.replicate (-power - 1).toNat 0 ++ first :: rest)) =
          Digit.number (first :: rest) := by
        rw [← List.append_assoc]
        exact Digit.number_zeros_append (first :: rest) ((-power - 1).toNat + 1)
      have hscale : (0 : Int) -
          (List.replicate (-power - 1).toNat 0 ++ first :: rest : List Digit).length =
          power - rest.length := by
        rw [List.length_append, List.length_replicate, List.length_cons]
        omega
      unfold Literal.value Literal.coefficient Literal.scale
      exact congrArg₂ _ hnumber hscale
    · split
      · -- The point stands behind the last digit, or there is none.
        rename_i hlength
        by_cases hpoint : style.wholePoint = true
        · have hbehind (k : Nat) : first :: (rest ++ List.replicate k 0) ++ [0] =
              first :: rest ++ List.replicate (k + 1) 0 := by
            simp [List.replicate_succ']
          refine value_of_zeros (first :: rest) ((power - rest.length).toNat + 1) ?_ ?_
          · simp only [hpoint]
            exact hbehind _
          · simp only [Literal.scale, hpoint]
            show (0 : Int) - 1 + _ = _
            omega
        · refine value_of_zeros (first :: rest) (power - rest.length).toNat ?_ ?_
          · simp [hpoint]
          · simp [Literal.scale, hpoint]
            omega
      · -- The point stands between two digits.
        rename_i hlength
        refine value_of_zeros (first :: rest) 0 ?_ ?_
        · simp
        · simp [Literal.scale]
          omega
  · refine value_of_zeros (first :: rest) 0 ?_ ?_
    · cases rest <;> simp
    · have hexponent := style.value_exponent power
      cases rest <;> simp [Literal.scale, hexponent]

end NumeralStyle

/-- Every text of a finite value is the text of a literal that stands for the value. -/
theorem Finite.value_literal (style : NumeralStyle) (x : Finite) :
    (x.literal style).value = finite x := by
  have hsign : decide ((if x.negative then some Sign.minus else none) = some Sign.minus) =
      x.negative := by
    cases x.negative <;> rfl
  unfold literal
  simp only []
  rw [NumeralStyle.value_literal, hsign]
  have hdigits : (Digit.ofNat (x.shortest style.tie).coefficient).headD 0 ::
      (Digit.ofNat (x.shortest style.tie).coefficient).tail =
      Digit.ofNat (x.shortest style.tie).coefficient := by
    cases hofNat : Digit.ofNat (x.shortest style.tie).coefficient with
    | nil => exact absurd hofNat (Digit.ofNat_ne_nil _)
    | cons d ds => rfl
  rw [hdigits, Digit.number_ofNat, add_sub_cancel_left]
  exact x.ofDecimal_shortest style.tie

end Binary64

end ChartDoc
