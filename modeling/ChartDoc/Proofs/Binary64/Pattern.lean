/-
  The bit patterns that numbers stand for. `Binary64.ofPattern` reads 64 bits: the first one is
  the sign, and the others are the rank of a finite magnitude, or the rank one beyond the greatest
  for an infinity, or anything above for NaN. A number that is not NaN has one pattern, the one
  that `Binary64.bits` gives. All patterns of NaN are read as the same number, so to be the same
  number is to have the same pattern or to be NaN both (`ofPattern_eq_iff`).
-/
import ChartDoc.Binary64.Basic

namespace ChartDoc

namespace Binary64

/-- The number that a pattern of 64 bits stands for. -/
def ofPattern (pattern : BitVec 64) : Binary64 :=
  let negative := decide (signBit ≤ pattern.toNat)
  if h : pattern.toNat % signBit < rankCount then .finite ⟨negative, ⟨_, h⟩⟩
  else if pattern.toNat % signBit = rankCount then .infinite negative
  else .nan

/-- A pattern is put together from its sign and its magnitude. -/
theorem sign_add_magnitude (pattern : BitVec 64) :
    (if decide (signBit ≤ pattern.toNat) then signBit else 0) + pattern.toNat % signBit =
      pattern.toNat := by
  have hlt := pattern.isLt
  by_cases hsign : signBit ≤ pattern.toNat
  · rw [if_pos (decide_eq_true hsign)]
    unfold signBit at hsign ⊢
    omega
  · rw [if_neg (by simpa using hsign)]
    unfold signBit at hsign ⊢
    omega

/-- The pattern of a number that is not NaN is the pattern that it was read from. -/
theorem bits_ofPattern {pattern : BitVec 64} (h : (ofPattern pattern).isNaN = false) :
    (ofPattern pattern).bits = pattern.toNat := by
  have hparts := sign_add_magnitude pattern
  unfold ofPattern at h ⊢
  split at h
  · rw [dif_pos ‹_›]
    exact hparts
  · split at h
    · rename_i hinfinite
      rw [dif_neg ‹_›, if_pos hinfinite]
      rwa [hinfinite] at hparts
    · cases h

/-- Every number is read from its pattern. -/
theorem ofPattern_bits (x : Binary64) : ofPattern (BitVec.ofNat 64 x.bits) = x := by
  cases x with
  | nan => rfl
  | infinite negative => cases negative <;> rfl
  | finite x =>
    have hx := x.rank.isLt
    have hmagnitude : (BitVec.ofNat 64 (finite x).bits).toNat % signBit = x.rank.val := by
      rw [BitVec.toNat_ofNat]
      unfold bits signBit
      unfold rankCount at hx
      dsimp only
      split <;> omega
    have hsign : decide (signBit ≤ (BitVec.ofNat 64 (finite x).bits).toNat) = x.negative := by
      rw [BitVec.toNat_ofNat]
      unfold bits signBit
      unfold rankCount at hx
      cases hneg : x.negative <;> simp [hneg] <;> omega
    unfold ofPattern
    rw [dif_pos (lt_of_eq_of_lt hmagnitude hx)]
    simp only [hmagnitude, hsign]

theorem isNaN_iff {x : Binary64} : x.isNaN = true ↔ x = nan := by
  cases x <;> simp [isNaN]

/-- Two patterns stand for the same number when they are the same or both are patterns of NaN. -/
theorem ofPattern_eq_iff {pattern pattern' : BitVec 64} :
    ofPattern pattern = ofPattern pattern' ↔ pattern = pattern' ∨
      (ofPattern pattern).isNaN = true ∧ (ofPattern pattern').isNaN = true := by
  constructor
  · intro h
    cases hnan : (ofPattern pattern).isNaN with
    | true => exact .inr ⟨rfl, h ▸ hnan⟩
    | false =>
      refine .inl (BitVec.eq_of_toNat_eq ?_)
      rw [← bits_ofPattern hnan, h, bits_ofPattern (h ▸ hnan)]
  · rintro (rfl | ⟨hnan, hnan'⟩)
    · rfl
    · rw [isNaN_iff.mp hnan, isNaN_iff.mp hnan']

end Binary64

end ChartDoc
