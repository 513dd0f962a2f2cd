/-
  Decimal texts of binary floating point numbers. Every text of a finite number is the text of
  a literal with its shortest digits; a style says where the point stands, when an exponent is
  written, and how. The texts of NaN and of the infinities are words.
-/
import ChartDoc.Binary64.Shortest

namespace ChartDoc

namespace Binary64

/-- How the shortest digits of a number are written. -/
structure NumeralStyle where
  /-- The choice between two equally near decimals. -/
  tie : Tie
  /-- Whether a number whose first digit weighs this power of ten is written without exponent. -/
  positional : Int → Bool
  /-- Whether a whole number without exponent ends in `.0`. -/
  wholePoint : Bool
  /-- Whether an exponent that is not negative has a plus sign. -/
  exponentPlus : Bool

namespace NumeralStyle

/-- Plain numbers, as messages show them: never an exponent, and no point in whole numbers. -/
def plain : NumeralStyle where
  tie := .up
  positional _ := true
  wholePoint := false
  exponentPlus := false

/-- The exponent of a literal that stands for a power of ten. -/
def exponent (style : NumeralStyle) (power : Int) : Literal.Exponent where
  capital := false
  sign := if power < 0 then some .minus else if style.exponentPlus then some .plus else none
  digits := Digit.ofNat power.natAbs
  digits_ne_nil := Digit.ofNat_ne_nil _

/-- The literal with the digits `first :: rest`, the first of which weighs `power`. -/
def literal (style : NumeralStyle) (sign : Option Sign) (first : Digit) (rest : List Digit)
    (power : Int) : Literal :=
  if style.positional power then
    if power < 0 then
      { sign, whole := [0], fraction := some (List.replicate (-power - 1).toNat 0 ++ first :: rest),
        exponent := none, some_digit := by simp }
    else if rest.length ≤ power then
      { sign, whole := first :: (rest ++ List.replicate (power - rest.length).toNat 0),
        fraction := if style.wholePoint then some [0] else none,
        exponent := none, some_digit := by simp }
    else
      { sign, whole := first :: rest.take power.toNat, fraction := some (rest.drop power.toNat),
        exponent := none, some_digit := by simp }
  else
    { sign, whole := [first], fraction := if rest.isEmpty then none else some rest,
      exponent := some (style.exponent power), some_digit := by simp }

end NumeralStyle

namespace Finite

/-- The literal that a finite value is written as. -/
def literal (style : NumeralStyle) (x : Finite) : Literal :=
  let shortest := x.shortest style.tie
  let digits := Digit.ofNat shortest.coefficient
  style.literal (if x.negative then some .minus else none) (digits.headD 0) digits.tail
    (digits.tail.length + shortest.scale)

/-- The decimal text of a finite value. -/
def text (style : NumeralStyle) (x : Finite) : String :=
  String.ofList (x.literal style).text

end Finite

/-- The decimal text of a number. -/
def text (style : NumeralStyle) : Binary64 → String
  | nan => "NaN"
  | infinite negative => if negative then "-inf" else "inf"
  | finite x => x.text style

/-- The plain decimal text of a number. -/
def plain (x : Binary64) : String :=
  x.text .plain

end Binary64

end ChartDoc
