/-
  Decimal literals: an optional sign, digits with an optional point, and an optional exponent.
  A literal keeps how it was written, so `text` gives back exactly the characters that were
  read. `scan` takes the longest literal at the front of a text: an exponent mark without
  digits after it is left alone, and a point after digits belongs to the literal.

  What number a literal stands for in binary floating point is not decided here; see
  `ChartDoc.Binary64.Rounding`.
-/
import ChartDoc.Decimal.Digit

namespace ChartDoc

/-- A written sign. -/
inductive Sign where
  | plus
  | minus
deriving DecidableEq

namespace Sign

/-- The character of a sign. -/
def char : Sign → Char
  | plus => '+'
  | minus => '-'

/-- The text of a sign that may be absent. -/
def text (sign : Option Sign) : List Char :=
  (sign.map char).toList

/-- The sign at the front of a text, and what follows it. -/
def take : List Char → Option Sign × List Char
  | '+' :: cs => (some plus, cs)
  | '-' :: cs => (some minus, cs)
  | cs => (none, cs)

theorem text_take (cs : List Char) : text (take cs).1 ++ (take cs).2 = cs := by
  unfold take
  split <;> rfl

end Sign

namespace Digit

/-- The digits at the front of a text, and what follows them. -/
def take : List Char → List Digit × List Char
  | [] => ([], [])
  | c :: cs =>
    match ofChar? c with
    | some d => (d :: (take cs).1, (take cs).2)
    | none => ([], c :: cs)

theorem chars_take (cs : List Char) : chars (take cs).1 ++ (take cs).2 = cs := by
  induction cs with
  | nil => rfl
  | cons c cs ih =>
    cases h : ofChar? c with
    | none => simp [take, h, chars]
    | some d =>
      have := char_of_ofChar? h
      simp only [take, h, chars, List.map_cons, List.cons_append, this]
      exact congrArg (c :: ·) ih

end Digit

/-- The exponent of a literal: the mark, a sign if there is one, and at least one digit. -/
structure Literal.Exponent where
  capital : Bool
  sign : Option Sign
  digits : List Digit
  digits_ne_nil : digits ≠ []

/-- A decimal literal as it is written, with at least one digit around its point. -/
structure Literal where
  sign : Option Sign
  /-- The digits before the point. -/
  whole : List Digit
  /-- The digits after the point, or nothing when there is no point. -/
  fraction : Option (List Digit)
  exponent : Option Literal.Exponent
  some_digit : ¬(whole = [] ∧ fraction.getD [] = [])

namespace Literal

namespace Exponent

/-- The characters of an exponent. -/
def text (e : Exponent) : List Char :=
  (if e.capital then 'E' else 'e') :: (Sign.text e.sign ++ Digit.chars e.digits)

/-- The power of ten that an exponent stands for. -/
def value (e : Exponent) : Int :=
  if e.sign = some .minus then -(Digit.number e.digits : Int) else Digit.number e.digits

/-- The exponent at the front of a text: nothing is taken unless a digit follows the mark. -/
def take (cs : List Char) : Option Exponent × List Char :=
  match cs with
  | [] => (none, [])
  | c :: after =>
    if c = 'e' ∨ c = 'E' then
      let (sign, unsigned) := Sign.take after
      let (digits, rest) := Digit.take unsigned
      if h : digits = [] then (none, c :: after)
      else (some ⟨c = 'E', sign, digits, h⟩, rest)
    else (none, c :: after)

/-- Taking an exponent loses no character. -/
theorem text_take (cs : List Char) :
    ((take cs).1.map text).getD [] ++ (take cs).2 = cs := by
  cases cs with
  | nil => rfl
  | cons c after =>
    simp only [take]
    split
    · rename_i hc
      split
      · rfl
      · have hs := Sign.text_take after
        have hd := Digit.chars_take (Sign.take after).2
        have hmark : (if decide (c = 'E') = true then 'E' else 'e') = c := by
          rcases hc with rfl | rfl <;> decide
        simp only [Option.map_some, Option.getD_some, text, List.cons_append, List.append_assoc,
          hd, hs, hmark]
    · rfl

end Exponent

/-- The characters of the point and the digits after it. -/
def fractionText : Option (List Digit) → List Char
  | none => []
  | some ds => '.' :: Digit.chars ds

/-- The characters of an exponent that may be absent. -/
def exponentText (e : Option Exponent) : List Char :=
  (e.map Exponent.text).getD []

/-- The characters of a literal. -/
def text (l : Literal) : List Char :=
  Sign.text l.sign ++ (Digit.chars l.whole ++ (fractionText l.fraction ++ exponentText l.exponent))

/-- Whether a literal is written with a minus sign. -/
def negative (l : Literal) : Bool :=
  l.sign = some .minus

/-- The number that the digits around the point stand for when the point is left out. -/
def coefficient (l : Literal) : Nat :=
  Digit.number (l.whole ++ l.fraction.getD [])

/-- The power of ten that the coefficient is scaled by. -/
def scale (l : Literal) : Int :=
  (l.exponent.map Exponent.value).getD 0 - (l.fraction.getD []).length

/-- The point at the front of a text with the digits after it. -/
def takeFraction : List Char → Option (List Digit) × List Char
  | '.' :: cs => (some (Digit.take cs).1, (Digit.take cs).2)
  | cs => (none, cs)

theorem text_takeFraction (cs : List Char) :
    fractionText (takeFraction cs).1 ++ (takeFraction cs).2 = cs := by
  unfold takeFraction
  split
  · rename_i after
    exact congrArg ('.' :: ·) (Digit.chars_take after)
  · rfl

/-- The longest literal at the front of a text, and what follows it. -/
def scan (cs : List Char) : Option (Literal × List Char) :=
  let (sign, unsigned) := Sign.take cs
  let (whole, afterWhole) := Digit.take unsigned
  let (fraction, afterFraction) := takeFraction afterWhole
  if h : whole = [] ∧ fraction.getD [] = [] then none
  else
    let (exponent, rest) := Exponent.take afterFraction
    some (⟨sign, whole, fraction, exponent, h⟩, rest)

/-- Scanning splits a text and loses no character. -/
theorem text_append_of_scan {cs rest : List Char} {l : Literal} (h : scan cs = some (l, rest)) :
    l.text ++ rest = cs := by
  simp only [scan] at h
  split at h
  · simp at h
  · simp only [Option.some.injEq, Prod.mk.injEq] at h
    obtain ⟨rfl, rfl⟩ := h
    simp only [text, exponentText, List.append_assoc, Exponent.text_take, text_takeFraction,
      Digit.chars_take, Sign.text_take]

theorem text_ne_nil (l : Literal) : l.text ≠ [] := by
  intro h
  simp only [text, List.append_eq_nil_iff] at h
  obtain ⟨_, hw, hf, _⟩ := h
  refine l.some_digit ⟨?_, ?_⟩
  · simpa [Digit.chars] using hw
  · cases hfr : l.fraction with
    | none => rfl
    | some ds => simp [hfr, fractionText] at hf

/-- A scan consumes at least one character. -/
theorem length_lt_of_scan {cs rest : List Char} {l : Literal} (h : scan cs = some (l, rest)) :
    rest.length < cs.length := by
  have ht := text_append_of_scan h
  have hn : 0 < l.text.length := List.length_pos_iff.mpr l.text_ne_nil
  rw [← ht, List.length_append]
  omega

end Literal

end ChartDoc
