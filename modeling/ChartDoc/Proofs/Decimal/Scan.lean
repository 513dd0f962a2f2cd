/-
  Scanning the text of a literal. `scan` takes the longest literal at the front of a text; at
  the front of the text of a literal that is the literal itself, with nothing left
  (`scan_text`). Each part of a literal ends where the next one begins, because none of them
  begins with a character that could continue the part before it: no digit follows the digits
  (`Digit.Ends`), and an exponent begins neither with a digit nor with a point. Literals are
  written with a few characters (`alphabet`), none of which is blank, so a table cell that holds
  the text of a literal holds its value (`leadingNumber?_text`).
-/
import ChartDoc.Decimal.Literal
import ChartDoc.Table.Number

namespace ChartDoc

namespace Digit

/-- No digit stands at the front of a text. -/
def Ends (cs : List Char) : Prop :=
  ∀ c rest, cs = c :: rest → ofChar? c = none

theorem take_of_ends {cs : List Char} (h : Ends cs) : take cs = ([], cs) := by
  cases cs with
  | nil => rfl
  | cons c rest => rw [take, h c rest rfl]

/-- Digits in front of a text are taken, and then what is taken of the text. -/
theorem take_append (ds : List Digit) (cs : List Char) :
    take (chars ds ++ cs) = (ds ++ (take cs).1, (take cs).2) := by
  induction ds with
  | nil => rfl
  | cons d ds ih =>
    show take (d.char :: (chars ds ++ cs)) = _
    rw [take, ofChar?_char, ih]
    rfl

theorem take_chars (ds : List Digit) {cs : List Char} (h : Ends cs) :
    take (chars ds ++ cs) = (ds, cs) := by
  rw [take_append, take_of_ends h, List.append_nil]

theorem length_chars (ds : List Digit) : (chars ds).length = ds.length :=
  List.length_map _

theorem char_ne_plus (d : Digit) : d.char ≠ '+' := by
  revert d
  decide

theorem char_ne_minus (d : Digit) : d.char ≠ '-' := by
  revert d
  decide

end Digit

namespace Sign

/-- A text without a sign at its front. -/
theorem take_of_ne {cs : List Char} (hplus : ∀ rest, cs ≠ '+' :: rest)
    (hminus : ∀ rest, cs ≠ '-' :: rest) : take cs = (none, cs) := by
  unfold take
  split
  · exact absurd rfl (hplus _)
  · exact absurd rfl (hminus _)
  · rfl

theorem take_text {sign : Option Sign} {cs : List Char} (hplus : ∀ rest, cs ≠ '+' :: rest)
    (hminus : ∀ rest, cs ≠ '-' :: rest) : take (text sign ++ cs) = (sign, cs) := by
  cases sign with
  | none => exact take_of_ne hplus hminus
  | some s => cases s <;> rfl

/-- Digits have no sign at their front. -/
theorem take_text_chars_cons (sign : Option Sign) (d : Digit) (ds : List Digit)
    (cs : List Char) :
    take (text sign ++ (Digit.chars (d :: ds) ++ cs)) = (sign, Digit.chars (d :: ds) ++ cs) := by
  refine take_text (fun rest h => ?_) (fun rest h => ?_)
  · exact d.char_ne_plus (List.cons.inj h).1
  · exact d.char_ne_minus (List.cons.inj h).1

end Sign

namespace Literal

namespace Exponent

/-- The digits of an exponent go on into the text that follows it. -/
theorem take_text_append (e : Exponent) (cs : List Char) :
    take (e.text ++ cs) =
      (some ⟨e.capital, e.sign, e.digits ++ (Digit.take cs).1,
        fun h => e.digits_ne_nil (List.append_eq_nil_iff.mp h).1⟩, (Digit.take cs).2) := by
  obtain ⟨capital, sign, digits, hdigits⟩ := e
  have hsign : Sign.take (Sign.text sign ++ (Digit.chars digits ++ cs)) =
      (sign, Digit.chars digits ++ cs) := by
    obtain ⟨d, ds, rfl⟩ := List.exists_cons_of_ne_nil hdigits
    exact Sign.take_text_chars_cons sign d ds cs
  cases capital <;> simp [text, take, hsign, Digit.take_append, hdigits]

theorem take_text (e : Exponent) : take e.text = (some e, []) := by
  have htake := e.take_text_append []
  simpa [Digit.take] using htake

/-- What begins with an exponent begins with its mark. -/
theorem of_text_append_eq_cons {e : Exponent} {cs rest : List Char} {c : Char}
    (h : e.text ++ cs = c :: rest) : c = 'e' ∨ c = 'E' := by
  rw [text, List.cons_append] at h
  rw [← (List.cons.inj h).1]
  cases e.capital
  · exact .inl rfl
  · exact .inr rfl

end Exponent

theorem take_exponentText (e : Option Exponent) : Exponent.take (exponentText e) = (e, []) := by
  cases e with
  | none => rfl
  | some e => exact e.take_text

/-- The first character of an exponent that may be absent. -/
theorem of_exponentText_eq_cons {e : Option Exponent} {c : Char} {cs : List Char}
    (h : exponentText e = c :: cs) : c = 'e' ∨ c = 'E' := by
  cases e with
  | none => cases h
  | some e =>
    have htext : e.text ++ [] = c :: cs := (List.append_nil e.text).trans h
    exact e.of_text_append_eq_cons htext

/-- The point and its digits are taken from what goes on with neither. -/
theorem takeFraction_text_append (fraction : Option (List Digit)) {cs : List Char}
    (hends : Digit.Ends cs) (hpoint : ∀ rest, cs ≠ '.' :: rest) :
    takeFraction (fractionText fraction ++ cs) = (fraction, cs) := by
  cases fraction with
  | none =>
    show takeFraction cs = _
    unfold takeFraction
    split
    · exact absurd rfl (hpoint _)
    · rfl
  | some ds =>
    show (some (Digit.take (Digit.chars ds ++ cs)).1, (Digit.take (Digit.chars ds ++ cs)).2) = _
    rw [Digit.take_chars ds hends]

theorem ends_fraction_append {fraction : Option (List Digit)} {cs : List Char}
    (h : Digit.Ends cs) : Digit.Ends (fractionText fraction ++ cs) := by
  cases fraction with
  | none => exact h
  | some ds =>
    intro c rest hcons
    rw [← (List.cons.inj hcons).1]
    decide

theorem ends_exponentText (e : Option Exponent) : Digit.Ends (exponentText e) := by
  intro c cs h
  rcases of_exponentText_eq_cons h with rfl | rfl <;> decide

theorem takeFraction_text (fraction : Option (List Digit)) (e : Option Exponent) :
    takeFraction (fractionText fraction ++ exponentText e) = (fraction, exponentText e) := by
  refine takeFraction_text_append fraction (ends_exponentText e) fun rest h => ?_
  rcases of_exponentText_eq_cons h with hmark | hmark <;> cases hmark

/-- A scan takes the sign, the digits, the point with its digits, and the exponent. -/
theorem scan_of_phases {cs unsigned afterWhole afterFraction rest : List Char}
    {sign : Option Sign} {whole : List Digit} {fraction : Option (List Digit)}
    {exponent : Option Exponent} (hsign : Sign.take cs = (sign, unsigned))
    (hwhole : Digit.take unsigned = (whole, afterWhole))
    (hfraction : takeFraction afterWhole = (fraction, afterFraction))
    (hexponent : Exponent.take afterFraction = (exponent, rest))
    (some_digit : ¬(whole = [] ∧ fraction.getD [] = [])) :
    scan cs = some (⟨sign, whole, fraction, exponent, some_digit⟩, rest) := by
  unfold scan
  simp only [hsign, hwhole, hfraction, hexponent, dif_neg some_digit]

/-- At the front of a literal its own sign is taken, and none if it has none. -/
theorem take_sign_text_append (l : Literal) (cs : List Char) :
    Sign.take (l.text ++ cs) =
      (l.sign, Digit.chars l.whole ++
        (fractionText l.fraction ++ (exponentText l.exponent ++ cs))) := by
  obtain ⟨sign, whole, fraction, exponent, some_digit⟩ := l
  simp only [text, List.append_assoc]
  cases whole with
  | cons d ds => exact Sign.take_text_chars_cons sign d ds _
  | nil =>
    cases fraction with
    | none => exact absurd ⟨rfl, rfl⟩ some_digit
    | some ds =>
      exact Sign.take_text (fun rest h => by cases (List.cons.inj h).1)
        (fun rest h => by cases (List.cons.inj h).1)

/-- The text of a literal is scanned as the literal, and nothing is left. -/
theorem scan_text (l : Literal) : scan l.text = some (l, []) := by
  have hsign := l.take_sign_text_append []
  obtain ⟨sign, whole, fraction, exponent, some_digit⟩ := l
  simp only [List.append_nil] at hsign
  have hends : Digit.Ends (fractionText fraction ++ exponentText exponent) :=
    ends_fraction_append (ends_exponentText exponent)
  exact scan_of_phases hsign (Digit.take_chars whole hends) (takeFraction_text fraction exponent)
    (take_exponentText exponent) some_digit

/-! ## The characters of literals -/

/-- The characters that literals are written with. -/
def alphabet : List Char :=
  ['+', '-', '.', 'e', 'E', '0', '1', '2', '3', '4', '5', '6', '7', '8', '9']

theorem sign_subset_alphabet (sign : Option Sign) : Sign.text sign ⊆ alphabet := by
  rcases sign with _ | _ | _ <;> decide

theorem chars_subset_alphabet (ds : List Digit) : Digit.chars ds ⊆ alphabet := by
  have hall : ∀ d : Digit, d.char ∈ alphabet := by decide
  intro c hc
  obtain ⟨d, -, rfl⟩ := List.mem_map.mp hc
  exact hall d

theorem fraction_subset_alphabet (fraction : Option (List Digit)) :
    fractionText fraction ⊆ alphabet := by
  cases fraction with
  | none => exact List.nil_subset _
  | some ds => exact List.cons_subset.mpr ⟨by decide, chars_subset_alphabet ds⟩

theorem exponent_subset_alphabet (e : Option Exponent) : exponentText e ⊆ alphabet := by
  cases e with
  | none => exact List.nil_subset _
  | some e =>
    refine List.cons_subset.mpr ⟨?_, List.append_subset.mpr
      ⟨sign_subset_alphabet e.sign, chars_subset_alphabet e.digits⟩⟩
    cases e.capital <;> decide

theorem text_subset_alphabet (l : Literal) : l.text ⊆ alphabet := by
  refine List.append_subset.mpr ⟨sign_subset_alphabet _, ?_⟩
  refine List.append_subset.mpr ⟨chars_subset_alphabet _, ?_⟩
  exact List.append_subset.mpr ⟨fraction_subset_alphabet _, exponent_subset_alphabet _⟩

theorem not_isBlank_of_mem_alphabet {c : Char} (h : c ∈ alphabet) : Text.isBlank c = false := by
  have hall : alphabet.all (fun c => Text.isBlank c == false) = true := by decide
  exact beq_iff_eq.mp (List.all_eq_true.mp hall c h)

/-! ## Numbers in cells -/

theorem dropBlanks_text (l : Literal) : Text.dropBlanks l.text = l.text := by
  unfold Text.dropBlanks
  cases htext : l.text with
  | nil => rfl
  | cons c cs =>
    have hblank : Text.isBlank c = false :=
      not_isBlank_of_mem_alphabet (l.text_subset_alphabet (htext ▸ List.mem_cons_self))
    rw [List.dropWhile_cons, hblank]
    rfl

end Literal

/-- The number at the front of the text of a literal is the value of the literal, if that is
    finite. -/
theorem leadingNumber?_text (l : Literal) :
    leadingNumber? (String.ofList l.text) = l.value.finite? := by
  rw [leadingNumber?, String.toList_ofList, l.dropBlanks_text, l.scan_text]
  rfl

end ChartDoc
