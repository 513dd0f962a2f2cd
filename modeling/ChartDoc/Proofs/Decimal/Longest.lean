/-
  The longest literal at the front of a text. The literals are described here by a grammar of
  their texts that does not mention how a scan proceeds (`Grammar.Literal`); they are the texts of
  the structure `Literal` (`Grammar.literal_iff`).

  A scan that starts with the text of a literal goes at least to its end, whatever follows it
  (`scan_text_append`). Each phase of the scan takes at least what the literal has for it: where
  the literal has a point or an exponent, the phase before ends as it does in the literal, and in
  the last phase of the literal the scan may only go on. So a scan finds the longest prefix that
  is a literal, and it fails only if no prefix is one.
-/
import ChartDoc.Proofs.Decimal.Scan

namespace ChartDoc

/-! ## The grammar of literals -/

namespace Grammar

/-- A text of ASCII digits. -/
def Digits (cs : List Char) : Prop :=
  ∀ c ∈ cs, '0' ≤ c ∧ c ≤ '9'

/-- A sign that may be absent. -/
inductive OptionalSign : List Char → Prop where
  | absent : OptionalSign []
  | plus : OptionalSign ['+']
  | minus : OptionalSign ['-']

/-- Digits, digits with a point and perhaps digits behind it, or a point with digits behind it. -/
inductive Mantissa : List Char → Prop where
  | whole {ds : List Char} (digits : Digits ds) (some : ds ≠ []) : Mantissa ds
  | point {ds fs : List Char} (digits : Digits ds) (some : ds ≠ []) (fraction : Digits fs) :
    Mantissa (ds ++ '.' :: fs)
  | fraction {fs : List Char} (fraction : Digits fs) (some : fs ≠ []) : Mantissa ('.' :: fs)

/-- An exponent that may be absent: the mark, a sign that may be absent, and digits. -/
inductive OptionalExponent : List Char → Prop where
  | absent : OptionalExponent []
  | mark {c : Char} {s ds : List Char} (mark : c = 'e' ∨ c = 'E') (sign : OptionalSign s)
    (digits : Digits ds) (some : ds ≠ []) : OptionalExponent (c :: (s ++ ds))

/-- The decimal literals. -/
inductive Literal : List Char → Prop where
  | mk {s m e : List Char} (sign : OptionalSign s) (mantissa : Mantissa m)
    (exponent : OptionalExponent e) : Literal (s ++ (m ++ e))

theorem digit_iff {c : Char} : '0' ≤ c ∧ c ≤ '9' ↔ ∃ d : Digit, d.char = c := by
  constructor
  · intro h
    have hle : c.toNat ≤ 57 := h.2
    have hzero : '0'.toNat = 48 := rfl
    exact ⟨⟨c.toNat - '0'.toNat, by omega⟩, Digit.char_of_ofChar? (dif_pos h)⟩
  · rintro ⟨d, rfl⟩
    revert d
    decide

theorem digits_iff {cs : List Char} : Digits cs ↔ ∃ ds, Digit.chars ds = cs := by
  induction cs with
  | nil => exact ⟨fun _ => ⟨[], rfl⟩, fun _ => nofun⟩
  | cons c cs ih =>
    rw [Digits, List.forall_mem_cons, digit_iff]
    constructor
    · rintro ⟨⟨d, rfl⟩, hrest⟩
      obtain ⟨ds, rfl⟩ := ih.mp hrest
      exact ⟨d :: ds, rfl⟩
    · rintro ⟨ds, h⟩
      cases ds with
      | nil => cases h
      | cons d ds =>
        obtain ⟨hd, hds⟩ := List.cons.inj h
        exact ⟨⟨d, hd⟩, ih.mpr ⟨ds, hds⟩⟩

theorem digits_chars (ds : List Digit) : Digits (Digit.chars ds) :=
  digits_iff.mpr ⟨ds, rfl⟩

theorem chars_ne_nil {ds : List Digit} : Digit.chars ds ≠ [] ↔ ds ≠ [] := by
  rw [Digit.chars, ne_eq, List.map_eq_nil_iff]

theorem optionalSign_iff {cs : List Char} : OptionalSign cs ↔ ∃ sign, Sign.text sign = cs := by
  constructor
  · rintro (_ | _ | _)
    · exact ⟨none, rfl⟩
    · exact ⟨some .plus, rfl⟩
    · exact ⟨some .minus, rfl⟩
  · rintro ⟨_ | _ | _, rfl⟩
    · exact .absent
    · exact .plus
    · exact .minus

theorem mantissa_iff {cs : List Char} :
    Mantissa cs ↔ ∃ whole fraction, ¬(whole = [] ∧ Option.getD fraction [] = []) ∧
      Digit.chars whole ++ Literal.fractionText fraction = cs := by
  constructor
  · rintro (⟨hds, hne⟩ | ⟨hds, hne, hfs⟩ | ⟨hfs, hne⟩)
    · obtain ⟨whole, rfl⟩ := digits_iff.mp hds
      exact ⟨whole, none, fun h => chars_ne_nil.mp hne h.1, List.append_nil _⟩
    · obtain ⟨whole, rfl⟩ := digits_iff.mp hds
      obtain ⟨fraction, rfl⟩ := digits_iff.mp hfs
      exact ⟨whole, some fraction, fun h => chars_ne_nil.mp hne h.1, rfl⟩
    · obtain ⟨fraction, rfl⟩ := digits_iff.mp hfs
      exact ⟨[], some fraction, fun h => chars_ne_nil.mp hne h.2, rfl⟩
  · rintro ⟨whole, fraction, hsome, rfl⟩
    cases fraction with
    | none =>
      have hwhole : whole ≠ [] := fun h => hsome ⟨h, rfl⟩
      rw [Literal.fractionText, List.append_nil]
      exact .whole (digits_chars whole) (chars_ne_nil.mpr hwhole)
    | some fraction =>
      by_cases hwhole : whole = []
      · have hfraction : fraction ≠ [] := fun h => hsome ⟨hwhole, h⟩
        rw [hwhole]
        exact .fraction (digits_chars fraction) (chars_ne_nil.mpr hfraction)
      · exact .point (digits_chars whole) (chars_ne_nil.mpr hwhole) (digits_chars fraction)

theorem optionalExponent_iff {cs : List Char} :
    OptionalExponent cs ↔ ∃ e, Literal.exponentText e = cs := by
  constructor
  · rintro (_ | ⟨hmark, hsign, hds, hne⟩)
    · exact ⟨none, rfl⟩
    · obtain ⟨sign, rfl⟩ := optionalSign_iff.mp hsign
      obtain ⟨ds, rfl⟩ := digits_iff.mp hds
      rcases hmark with rfl | rfl
      · exact ⟨some ⟨false, sign, ds, chars_ne_nil.mp hne⟩, rfl⟩
      · exact ⟨some ⟨true, sign, ds, chars_ne_nil.mp hne⟩, rfl⟩
  · rintro ⟨_ | ⟨capital, sign, ds, hne⟩, rfl⟩
    · exact .absent
    · refine .mark ?_ (optionalSign_iff.mpr ⟨sign, rfl⟩) (digits_chars ds) (chars_ne_nil.mpr hne)
      cases capital
      · exact .inl rfl
      · exact .inr rfl

/-- The grammar describes the texts of literals. -/
theorem literal_iff {cs : List Char} : Literal cs ↔ ∃ l : ChartDoc.Literal, l.text = cs := by
  constructor
  · rintro ⟨hsign, hmantissa, hexponent⟩
    obtain ⟨sign, rfl⟩ := optionalSign_iff.mp hsign
    obtain ⟨whole, fraction, hsome, rfl⟩ := mantissa_iff.mp hmantissa
    obtain ⟨exponent, rfl⟩ := optionalExponent_iff.mp hexponent
    refine ⟨⟨sign, whole, fraction, exponent, hsome⟩, ?_⟩
    rw [ChartDoc.Literal.text, List.append_assoc]
  · rintro ⟨⟨sign, whole, fraction, exponent, hsome⟩, rfl⟩
    rw [ChartDoc.Literal.text, ← List.append_assoc (Digit.chars _)]
    exact ⟨optionalSign_iff.mpr ⟨sign, rfl⟩, mantissa_iff.mpr ⟨whole, fraction, hsome, rfl⟩,
      optionalExponent_iff.mpr ⟨exponent, rfl⟩⟩

end Grammar

/-! ## The phases of a scan -/

theorem Digit.length_take_le (cs : List Char) : (take cs).2.length ≤ cs.length := by
  have h := congrArg List.length (chars_take cs)
  rw [List.length_append] at h
  omega

namespace Literal

theorem Exponent.length_take_le (cs : List Char) : (take cs).2.length ≤ cs.length := by
  have h := congrArg List.length (text_take cs)
  rw [List.length_append] at h
  omega

theorem length_takeFraction_le (cs : List Char) : (takeFraction cs).2.length ≤ cs.length := by
  have h := congrArg List.length (text_takeFraction cs)
  rw [List.length_append] at h
  omega

/-- A scan that starts with the text of a literal goes at least to its end. -/
theorem scan_text_append (l : Literal) (cs : List Char) :
    ∃ m rest, scan (l.text ++ cs) = some (m, rest) ∧ rest.length ≤ cs.length := by
  have hsign := l.take_sign_text_append cs
  obtain ⟨sign, whole, fraction, exponent, some_digit⟩ := l
  cases exponent with
  | some e =>
    -- The mark ends all digits before it; the digits of the exponent may go on.
    have hends : Digit.Ends (e.text ++ cs) := by
      intro c rest h
      rcases e.of_text_append_eq_cons h with rfl | rfl <;> decide
    have hpoint : ∀ rest, e.text ++ cs ≠ '.' :: rest := by
      intro rest h
      rcases e.of_text_append_eq_cons h with hmark | hmark <;> cases hmark
    exact ⟨_, _, scan_of_phases hsign (Digit.take_chars whole (ends_fraction_append hends))
      (takeFraction_text_append fraction hends hpoint) (e.take_text_append cs) some_digit,
      Digit.length_take_le cs⟩
  | none =>
    cases fraction with
    | some ds =>
      -- The point ends the digits before it; those behind it may go on, into an exponent, too.
      have hends : Digit.Ends (fractionText (some ds) ++ cs) := by
        intro c rest h
        rw [← (List.cons.inj h).1]
        decide
      have hfraction : takeFraction (fractionText (some ds) ++ cs) =
          (some (ds ++ (Digit.take cs).1), (Digit.take cs).2) := by
        show (some (Digit.take (Digit.chars ds ++ cs)).1, (Digit.take (Digit.chars ds ++ cs)).2) = _
        rw [Digit.take_append]
      have hsome : ¬(whole = [] ∧ ds ++ (Digit.take cs).1 = []) :=
        fun h => some_digit ⟨h.1, (List.append_eq_nil_iff.mp h.2).1⟩
      refine ⟨_, _, scan_of_phases hsign (Digit.take_chars whole hends) hfraction rfl hsome, ?_⟩
      exact Nat.le_trans (Exponent.length_take_le _) (Digit.length_take_le cs)
    | none =>
      -- The digits may go on, into a point and an exponent, too.
      have hsome : whole ++ (Digit.take cs).1 ≠ [] :=
        fun h => some_digit ⟨(List.append_eq_nil_iff.mp h).1, rfl⟩
      refine ⟨_, _, scan_of_phases hsign (Digit.take_append whole cs) rfl rfl
        (fun h => hsome h.1), ?_⟩
      exact Nat.le_trans (Exponent.length_take_le _)
        (Nat.le_trans (length_takeFraction_le _) (Digit.length_take_le cs))

end Literal

/-! ## The longest prefix -/

/-- `LongestPrefix P cs lit`: the text `lit` is a prefix of `cs` with the property, and no prefix
    with the property is longer. -/
def LongestPrefix (P : List Char → Prop) (cs lit : List Char) : Prop :=
  lit <+: cs ∧ P lit ∧ ∀ other, other <+: cs → P other → other.length ≤ lit.length

namespace Literal

/-- A scan finds the longest literal at the front of a text. -/
theorem longest_of_scan {cs rest : List Char} {l : Literal} (h : scan cs = some (l, rest)) :
    LongestPrefix Grammar.Literal cs l.text := by
  have htext := text_append_of_scan h
  refine ⟨⟨rest, htext⟩, Grammar.literal_iff.mpr ⟨l, rfl⟩, ?_⟩
  rintro other ⟨after, hother⟩ hliteral
  obtain ⟨m, rfl⟩ := Grammar.literal_iff.mp hliteral
  obtain ⟨found, left, hscan, hle⟩ := m.scan_text_append after
  rw [hother, h] at hscan
  obtain ⟨-, rfl⟩ := Prod.mk.inj (Option.some.inj hscan)
  have hlength := congrArg List.length (htext.trans hother.symm)
  rw [List.length_append, List.length_append] at hlength
  omega

/-- A scan fails exactly when no prefix of the text is a literal. -/
theorem scan_eq_none_iff {cs : List Char} :
    scan cs = none ↔ ∀ lit, lit <+: cs → ¬Grammar.Literal lit := by
  constructor
  · rintro h lit ⟨after, hlit⟩ hliteral
    obtain ⟨l, rfl⟩ := Grammar.literal_iff.mp hliteral
    obtain ⟨m, rest, hscan, -⟩ := l.scan_text_append after
    rw [hlit, h] at hscan
    cases hscan
  · intro h
    cases hscan : scan cs with
    | none => rfl
    | some found =>
      obtain ⟨hfront, hliteral, -⟩ := longest_of_scan hscan
      exact absurd hliteral (h _ hfront)

end Literal

end ChartDoc
