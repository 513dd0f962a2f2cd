/-
  Decimal digits, and the canonical decimal writing of natural numbers: most significant
  digit first, no leading zero except for zero itself.
-/
import ChartDoc.Decimal.Power

namespace ChartDoc

/-- A decimal digit. -/
abbrev Digit := Fin 10

namespace Digit

/-- The character of a digit. -/
def char (d : Digit) : Char :=
  Char.ofNat ('0'.toNat + d.val)

/-- The digit that a character stands for; only the ten ASCII digits are digits. -/
def ofChar? (c : Char) : Option Digit :=
  if h : '0'.toNat ≤ c.toNat ∧ c.toNat ≤ '9'.toNat then
    some ⟨c.toNat - '0'.toNat, by
      have h0 : '0'.toNat = 48 := rfl
      have h9 : '9'.toNat = 57 := rfl
      omega⟩
  else none

/-- The number that a list of digits stands for, most significant digit first. -/
def number (ds : List Digit) : Nat :=
  ds.foldl (fun total d => 10 * total + d.val) 0

/-- The digits of a number. -/
def ofNat (n : Nat) : List Digit :=
  if h : n < 10 then [⟨n, h⟩] else ofNat (n / 10) ++ [⟨n % 10, Nat.mod_lt _ (by decide)⟩]

/-- The digits of a list as text. -/
def chars (ds : List Digit) : List Char :=
  ds.map char

theorem ofChar?_char (d : Digit) : ofChar? d.char = some d := by
  revert d
  decide

theorem char_of_ofChar? {c : Char} {d : Digit} (h : ofChar? c = some d) : d.char = c := by
  unfold ofChar? at h
  split at h
  · rename_i hc
    have h0 : '0'.toNat = 48 := rfl
    simp only [Option.some.injEq] at h
    subst h
    simp only [char]
    rw [show '0'.toNat + (c.toNat - '0'.toNat) = c.toNat by omega]
    exact Char.ofNat_toNat c
  · simp at h

theorem char_injective {d e : Digit} (h : d.char = e.char) : d = e := by
  have := congrArg ofChar? h
  simpa [ofChar?_char] using this

theorem number_append_singleton (ds : List Digit) (d : Digit) :
    number (ds ++ [d]) = 10 * number ds + d.val := by
  simp [number]

/-- Zeros in front change nothing, and digits that follow weigh less. -/
theorem number_append (ds es : List Digit) :
    number (ds ++ es) = number ds * tenPow es.length + number es := by
  have go : ∀ (es : List Digit) (total : Nat),
      es.foldl (fun total d => 10 * total + d.val) total
        = total * tenPow es.length + es.foldl (fun total d => 10 * total + d.val) 0 := by
    intro es
    induction es with
    | nil => intro total; simp [tenPow_zero]
    | cons e es ih =>
      intro total
      simp only [List.foldl_cons, List.length_cons]
      rw [ih (10 * total + e.val), ih (10 * 0 + e.val), tenPow_succ]
      simp only [Nat.add_mul, Nat.mul_zero, Nat.zero_add]
      rw [Nat.mul_comm 10 total, Nat.mul_assoc, Nat.mul_comm 10, ← Nat.add_assoc]
  simp only [number, List.foldl_append]
  exact go es _

/-- The digits of a number stand for it. -/
theorem number_ofNat (n : Nat) : number (ofNat n) = n := by
  induction n using Nat.strongRecOn with
  | ind n ih =>
    rw [ofNat]
    split
    · simp [number]
    · rw [number_append_singleton, ih (n / 10) (by omega)]
      simp only
      omega

theorem ofNat_ne_nil (n : Nat) : ofNat n ≠ [] := by
  rw [ofNat]
  split <;> simp

/-- Different numbers have different digits. -/
theorem ofNat_injective {m n : Nat} (h : ofNat m = ofNat n) : m = n := by
  rw [← number_ofNat m, ← number_ofNat n, h]

end Digit

/-- The decimal text of a natural number. -/
def naturalText (n : Nat) : String :=
  String.ofList (Digit.chars (Digit.ofNat n))

/-- The decimal text of an integer: a minus sign before the negative ones. -/
def integerText (n : Int) : String :=
  if n < 0 then "-" ++ naturalText n.natAbs else naturalText n.natAbs

end ChartDoc
