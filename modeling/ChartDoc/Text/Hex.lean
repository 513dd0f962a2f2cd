/-
  Hexadecimal digits: reading in either case, writing in lower case, and byte strings written
  as two digits a byte.
-/

namespace ChartDoc.Text.Hex

/-- The value of a hexadecimal digit of either case. -/
def value? (c : Char) : Option Nat :=
  if '0' ≤ c ∧ c ≤ '9' then some (c.toNat - '0'.toNat)
  else if 'a' ≤ c ∧ c ≤ 'f' then some (c.toNat - 'a'.toNat + 10)
  else if 'A' ≤ c ∧ c ≤ 'F' then some (c.toNat - 'A'.toNat + 10)
  else none

/-- The number that a list of hexadecimal digits stands for, most significant digit first. -/
def number? (cs : List Char) : Option Nat :=
  cs.foldlM (fun total c => (value? c).map (16 * total + ·)) 0

/-- The lower-case digit of a value below sixteen. -/
def digit (n : Nat) : Char :=
  if n < 10 then Char.ofNat ('0'.toNat + n) else Char.ofNat ('a'.toNat + (n - 10))

/-- The last `width` hexadecimal digits of a number, most significant digit first. -/
def digits : (width : Nat) → (n : Nat) → List Char
  | 0, _ => []
  | width + 1, n => digits width (n / 16) ++ [digit (n % 16)]

/-- The bytes written as two digits each, unless a digit is bad or one is left over. -/
def bytes? : List Char → Option (List UInt8)
  | [] => some []
  | [_] => none
  | a :: b :: rest => do
    let byte ← number? [a, b]
    let bytes ← bytes? rest
    return byte.toUInt8 :: bytes

/-- A written digit is read back. -/
theorem value?_digit {n : Nat} (h : n < 16) : value? (digit n) = some n := by
  have all : ∀ m : Fin 16, value? (digit m) = some m.val := by decide
  exact all ⟨n, h⟩

end ChartDoc.Text.Hex
