/-
  The order of floats. The places of finite values lie strictly between those of the infinities,
  so a number between two finite ones is finite.
-/
import ChartDoc.Binary64.Basic

namespace ChartDoc

namespace Binary64

/-- Finite values lie between the infinities. -/
theorem Finite.place_bounds (x : Finite) :
    -(rankCount : Int) < x.place ∧ x.place < (rankCount : Int) := by
  have hrank : x.rank.val < rankCount := x.rank.isLt
  unfold place
  split
  · omega
  · omega

theorem le_trans {x y z : Binary64} (h : x ≤ y) (h' : y ≤ z) : x ≤ z := by
  obtain ⟨a, b, ha, hb, hab⟩ := le_iff.mp h
  obtain ⟨b', c, hb', hc, hbc⟩ := le_iff.mp h'
  obtain rfl : b = b' := Option.some.inj (hb.symm.trans hb')
  exact le_iff.mpr ⟨a, c, ha, hc, Int.le_trans hab hbc⟩

theorem not_le_of_lt {x y : Binary64} (h : x < y) : ¬y ≤ x := by
  obtain ⟨a, b, ha, hb, hab⟩ := lt_iff.mp h
  rw [le_iff]
  rintro ⟨b', a', hb', ha', hba⟩
  obtain rfl : a = a' := Option.some.inj (ha.symm.trans ha')
  obtain rfl : b = b' := Option.some.inj (hb.symm.trans hb')
  omega

/-- NaN is not compared with anything. -/
theorem not_le_nan (x : Binary64) : ¬x ≤ nan := by
  rw [le_iff]
  rintro ⟨a, b, -, hb, -⟩
  cases hb

/-- Beyond a finite number there are finite ones and infinity. -/
theorem isFinite_of_le {a x : Binary64} (ha : a.isFinite = true) (h : a ≤ x)
    (hx : x ≠ infinite false) : x.isFinite = true := by
  obtain ⟨y, rfl⟩ := isFinite_iff.mp ha
  have hy := y.place_bounds
  cases x with
  | nan => exact absurd h (not_le_nan _)
  | infinite negative =>
    cases negative with
    | false => exact absurd rfl hx
    | true =>
      obtain ⟨p, q, hp, hq, hle⟩ := le_iff.mp h
      simp only [place?, Option.some.injEq, if_true] at hp hq
      omega
  | finite z => rfl

/-- A number between two finite ones is finite. -/
theorem isFinite_of_between {a b x : Binary64} (ha : a.isFinite = true) (hb : b.isFinite = true)
    (h : a ≤ x) (h' : x ≤ b) : x.isFinite = true := by
  refine isFinite_of_le ha h ?_
  rintro rfl
  obtain ⟨y, rfl⟩ := isFinite_iff.mp hb
  have hy := y.place_bounds
  obtain ⟨p, q, hp, hq, hle⟩ := le_iff.mp h'
  simp only [place?, Option.some.injEq, Bool.false_eq_true, if_false] at hp hq
  omega

end Binary64

end ChartDoc
