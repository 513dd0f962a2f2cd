/-
  Numbers in cells, byte by byte. The number at the front of a cell can be found in the UTF-8 bytes
  of the text: `literalEnd?` moves a position over the bytes, past a sign, digits, a point with
  digits and an exponent, and gives the position where the literal ends. Only bytes of ASCII
  characters are moved over, and all bytes of other characters lie beyond ASCII; so where a
  position stands between two characters (`StandsAt`), it does so after every phase of the scan.
  Each phase moves past the bytes of what the scan of characters takes in that phase, and the two
  scans end at the same place (`literalEnd?_utf8`).

  The result is stated for whole cells (`leadingNumber?_longest`): the literal is the longest one
  at the front of the text, its end is a character boundary, and it can be read as a number.
-/
import ChartDoc.Proofs.Decimal.Longest

namespace ChartDoc

namespace Text

/-- The UTF-8 bytes of a list of characters. -/
def utf8 (cs : List Char) : List UInt8 :=
  cs.flatMap String.utf8EncodeChar

/-- The UTF-8 bytes of a text. -/
def bytes (text : String) : List UInt8 :=
  text.toUTF8.data.toList

/-- The byte of an ASCII character. -/
def byte (c : Char) : UInt8 :=
  UInt8.ofNat c.toNat

theorem bytes_ofList (cs : List Char) : bytes (String.ofList cs) = utf8 cs := by
  show (String.ofList cs).toByteArray.data.toList = _
  rw [String.toByteArray_ofList, List.utf8Encode, List.toList_data_toByteArray, utf8]

theorem length_bytes (text : String) : (bytes text).length = text.utf8ByteSize :=
  rfl

theorem utf8_append (cs ds : List Char) : utf8 (cs ++ ds) = utf8 cs ++ utf8 ds :=
  List.flatMap_append

/-- The bytes of an ASCII character in front. -/
theorem utf8_cons_of_ascii {c : Char} (h : c.toNat < 128) (cs : List Char) :
    utf8 (c :: cs) = byte c :: utf8 cs := by
  have hle : c.val.toNat ≤ 127 := Nat.le_of_lt_succ h
  show String.utf8EncodeChar c ++ utf8 cs = _
  rw [String.utf8EncodeChar, if_pos hle]
  rfl

/-- The first byte of a character beyond ASCII is beyond ASCII. -/
theorem utf8_cons_of_not_ascii {c : Char} (h : ¬c.toNat < 128) (cs : List Char) :
    ∃ b bs, utf8 (c :: cs) = b :: bs ∧ 128 ≤ b.toNat := by
  have hle : ¬c.val.toNat ≤ 127 := fun hle => h (Nat.lt_succ_of_le hle)
  have hbyte (n : Nat) (hlow : 128 ≤ n) (hhigh : n < 256) : 128 ≤ (UInt8.ofNat n).toNat := by
    rw [UInt8.toNat_ofNat', Nat.mod_eq_of_lt hhigh]
    exact hlow
  unfold utf8
  rw [List.flatMap_cons, String.utf8EncodeChar, if_neg hle]
  split
  · exact ⟨_, _, rfl, hbyte _ (by omega) (by omega)⟩
  · split
    · exact ⟨_, _, rfl, hbyte _ (by omega) (by omega)⟩
    · exact ⟨_, _, rfl, hbyte _ (by omega) (by omega)⟩

theorem toNat_byte {c : Char} (h : c.toNat < 128) : (byte c).toNat = c.toNat := by
  rw [byte, UInt8.toNat_ofNat', Nat.mod_eq_of_lt (by omega)]

/-- The first byte is that of an ASCII character when the first character is. -/
theorem head?_utf8_eq_iff {cs : List Char} {a : Char} (ha : a.toNat < 128) :
    (utf8 cs).head? = some (byte a) ↔ cs.head? = some a := by
  cases cs with
  | nil => exact ⟨nofun, nofun⟩
  | cons c cs =>
    by_cases hc : c.toNat < 128
    · rw [utf8_cons_of_ascii hc, List.head?_cons, List.head?_cons, Option.some.injEq,
        Option.some.injEq]
      constructor
      · intro h
        have hnat := congrArg UInt8.toNat h
        rw [toNat_byte hc, toNat_byte ha] at hnat
        exact Char.toNat_inj.mp hnat
      · rintro rfl
        rfl
    · obtain ⟨b, bs, hutf8, hb⟩ := utf8_cons_of_not_ascii hc cs
      rw [hutf8, List.head?_cons, List.head?_cons, Option.some.injEq, Option.some.injEq]
      constructor
      · rintro rfl
        rw [toNat_byte ha] at hb
        omega
      · rintro rfl
        exact absurd ha hc

theorem ascii_of_mem_alphabet {c : Char} (h : c ∈ Literal.alphabet) : c.toNat < 128 := by
  have hall : Literal.alphabet.all (fun c => c.toNat < 128) = true := by decide
  exact of_decide_eq_true (List.all_eq_true.mp hall c h)

/-- What literals are written with takes one byte a character. -/
theorem length_utf8 {cs : List Char} (h : cs ⊆ Literal.alphabet) :
    (utf8 cs).length = cs.length := by
  induction cs with
  | nil => rfl
  | cons c cs ih =>
    obtain ⟨hc, hcs⟩ := List.cons_subset.mp h
    rw [utf8_cons_of_ascii (ascii_of_mem_alphabet hc), List.length_cons, List.length_cons, ih hcs]

/-! ## Scanning bytes -/

/-- Whether a byte is an ASCII digit. -/
def isDigitByte (b : UInt8) : Bool :=
  byte '0' ≤ b && b ≤ byte '9'

/-- The position after the digits at a position. -/
def digitsEnd (bytes : List UInt8) (i : Nat) : Nat :=
  i + ((bytes.drop i).takeWhile isDigitByte).length

/-- The position after the sign at a position, if there is one. -/
def signEnd (bytes : List UInt8) (i : Nat) : Nat :=
  if bytes[i]? = some (byte '+') ∨ bytes[i]? = some (byte '-') then i + 1 else i

/-- The position after the point at a position and the digits behind it, if there is a point. -/
def fractionEnd (bytes : List UInt8) (i : Nat) : Nat :=
  if bytes[i]? = some (byte '.') then digitsEnd bytes (i + 1) else i

/-- The position after the exponent at a position, or the same position if no digit follows the
    mark and the sign. -/
def exponentEnd (bytes : List UInt8) (i : Nat) : Nat :=
  if bytes[i]? = some (byte 'e') ∨ bytes[i]? = some (byte 'E') then
    let start := signEnd bytes (i + 1)
    let stop := digitsEnd bytes start
    if start < stop then stop else i
  else i

/-- The position after the literal at the front of a text, if there is a digit in it. A point is
    between the two runs of digits and counts for neither. -/
def literalEnd? (bytes : List UInt8) : Option Nat :=
  let start := signEnd bytes 0
  let point := digitsEnd bytes start
  let stop := fractionEnd bytes point
  if (point - start) + (stop - (point + 1)) = 0 then none else some (exponentEnd bytes stop)

/-- `StandsAt bytes i cs`: from the position on, the bytes are those of the characters `cs`. -/
def StandsAt (bytes : List UInt8) (i : Nat) (cs : List Char) : Prop :=
  bytes.drop i = utf8 cs

namespace StandsAt

variable {bytes : List UInt8} {i : Nat} {cs : List Char}

theorem getElem?_eq_iff (h : StandsAt bytes i cs) {a : Char} (ha : a.toNat < 128) :
    bytes[i]? = some (byte a) ↔ cs.head? = some a := by
  rw [← head?_utf8_eq_iff ha, ← h, List.head?_drop]

/-- Behind characters that literals are written with one stands in front of the next character. -/
theorem advance {pre rest : List Char} (h : StandsAt bytes i cs) (hpre : pre ⊆ Literal.alphabet)
    (hcs : pre ++ rest = cs) : StandsAt bytes (i + pre.length) rest := by
  unfold StandsAt at h ⊢
  rw [← List.drop_drop, h, ← hcs, utf8_append, ← length_utf8 hpre, List.drop_left]

end StandsAt

theorem mark_mem_alphabet {c : Char} (h : c = 'e' ∨ c = 'E') : c ∈ Literal.alphabet := by
  rcases h with rfl | rfl <;> decide

/-- Digits are known by their bytes. -/
theorem isDigitByte_byte {c : Char} (h : c.toNat < 128) :
    isDigitByte (byte c) = (Digit.ofChar? c).isSome := by
  have hbyte : isDigitByte (byte c) = true ↔ 48 ≤ (byte c).toNat ∧ (byte c).toNat ≤ 57 := by
    rw [isDigitByte, Bool.and_eq_true, decide_eq_true_iff, decide_eq_true_iff]
    rfl
  rw [Bool.eq_iff_iff, hbyte, toNat_byte h, Digit.ofChar?]
  split
  · rename_i hc
    exact ⟨fun _ => rfl, fun _ => hc⟩
  · rename_i hc
    exact ⟨fun h => absurd h hc, nofun⟩

/-- The bytes of digits in front are the bytes of the digits that a scan of characters takes. -/
theorem length_takeWhile_isDigitByte (cs : List Char) :
    ((utf8 cs).takeWhile isDigitByte).length = (Digit.take cs).1.length := by
  induction cs with
  | nil => rfl
  | cons c cs ih =>
    by_cases hc : c.toNat < 128
    · rw [utf8_cons_of_ascii hc, List.takeWhile_cons, isDigitByte_byte hc, Digit.take]
      cases Digit.ofChar? c with
      | none => rfl
      | some d => exact congrArg (· + 1) ih
    · obtain ⟨b, bs, hutf8, hb⟩ := utf8_cons_of_not_ascii hc cs
      have hbyte : isDigitByte b = false := by
        rw [isDigitByte, Bool.and_eq_false_iff, decide_eq_false_iff_not, decide_eq_false_iff_not]
        exact .inr fun hle => absurd (Nat.le_trans hb hle) (by decide)
      have hnine : '9'.toNat = 57 := rfl
      have hchar : Digit.ofChar? c = none := dif_neg fun h => hc (by omega)
      rw [hutf8, List.takeWhile_cons, hbyte, Digit.take, hchar]
      rfl

/-! ## The phases of the scan -/

theorem head?_ne_some {cs : List Char} {a : Char} (h : ∀ rest, cs = a :: rest → False) :
    cs.head? ≠ some a := by
  intro hhead
  obtain ⟨rest, hcs⟩ := List.head?_eq_some_iff.mp hhead
  exact h rest hcs

namespace StandsAt

variable {bytes : List UInt8} {i : Nat} {cs : List Char}

theorem digitsEnd_eq (h : StandsAt bytes i cs) :
    digitsEnd bytes i = i + (Digit.take cs).1.length := by
  rw [digitsEnd, h, length_takeWhile_isDigitByte]

/-- Past the digits one stands in front of what is left after the digits. -/
theorem digits (h : StandsAt bytes i cs) :
    StandsAt bytes (digitsEnd bytes i) (Digit.take cs).2 := by
  rw [h.digitsEnd_eq, ← Digit.length_chars]
  exact h.advance (Literal.chars_subset_alphabet _) (Digit.chars_take cs)

theorem signEnd_eq (h : StandsAt bytes i cs) :
    signEnd bytes i = i + (Sign.text (Sign.take cs).1).length := by
  simp only [signEnd, h.getElem?_eq_iff (a := '+') (by decide),
    h.getElem?_eq_iff (a := '-') (by decide)]
  fun_cases Sign.take cs with
  | case1 => rfl
  | case2 => rfl
  | case3 cs hplus hminus =>
    exact if_neg (not_or.mpr ⟨head?_ne_some hplus, head?_ne_some hminus⟩)

/-- Past the sign one stands in front of what is left after the sign. -/
theorem sign (h : StandsAt bytes i cs) : StandsAt bytes (signEnd bytes i) (Sign.take cs).2 := by
  rw [h.signEnd_eq]
  exact h.advance (Literal.sign_subset_alphabet _) (Sign.text_take cs)

theorem tail {c : Char} (h : StandsAt bytes i (c :: cs)) (hc : c ∈ Literal.alphabet) :
    StandsAt bytes (i + 1) cs := by
  have hpre : [c] ⊆ Literal.alphabet := List.cons_subset.mpr ⟨hc, List.nil_subset _⟩
  exact h.advance hpre rfl

theorem fractionEnd_eq (h : StandsAt bytes i cs) :
    fractionEnd bytes i = i + (Literal.fractionText (Literal.takeFraction cs).1).length := by
  simp only [fractionEnd, h.getElem?_eq_iff (a := '.') (by decide)]
  fun_cases Literal.takeFraction cs with
  | case1 after =>
    have hdigits := (h.tail (by decide)).digitsEnd_eq
    rw [List.head?_cons, if_pos rfl, hdigits, Literal.fractionText, List.length_cons,
      Digit.length_chars, Nat.add_assoc, Nat.add_comm 1]
  | case2 cs hpoint => exact if_neg (head?_ne_some hpoint)

/-- Past the point and its digits one stands in front of what is left after them. -/
theorem fraction (h : StandsAt bytes i cs) :
    StandsAt bytes (fractionEnd bytes i) (Literal.takeFraction cs).2 := by
  rw [h.fractionEnd_eq]
  exact h.advance (Literal.fraction_subset_alphabet _) (Literal.text_takeFraction cs)

theorem exponentEnd_eq (h : StandsAt bytes i cs) :
    exponentEnd bytes i = i + (Literal.exponentText (Literal.Exponent.take cs).1).length := by
  simp only [exponentEnd, h.getElem?_eq_iff (a := 'e') (by decide),
    h.getElem?_eq_iff (a := 'E') (by decide)]
  fun_cases Literal.Exponent.take cs with
  | case1 => rfl
  | case2 c after hmark sign unsigned hsign rest hdigits =>
    -- No digit behind the mark and the sign: the mark is given back.
    have hstop := (h.tail (mark_mem_alphabet hmark)).sign.digitsEnd_eq
    simp only [hsign, hdigits, List.length_nil] at hstop
    have hstay : ¬signEnd bytes (i + 1) < digitsEnd bytes (signEnd bytes (i + 1)) := by omega
    simp only [List.head?_cons, Option.some.injEq, if_pos hmark, if_neg hstay]
    rfl
  | case3 c after hmark sign unsigned hsign digits rest hdigits hne =>
    have hafter := h.tail (mark_mem_alphabet hmark)
    have hstart := hafter.signEnd_eq
    have hstop := hafter.sign.digitsEnd_eq
    simp only [hsign, hdigits] at hstart hstop
    have hpos : 0 < digits.length := List.length_pos_iff.mpr hne
    have hgo : signEnd bytes (i + 1) < digitsEnd bytes (signEnd bytes (i + 1)) := by omega
    simp only [List.head?_cons, Option.some.injEq, if_pos hmark, if_pos hgo]
    rw [hstop, hstart]
    simp only [Literal.exponentText, Option.map_some, Option.getD_some, Literal.Exponent.text,
      List.length_cons, List.length_append, Digit.length_chars]
    omega
  | case4 c after hmark =>
    simp only [List.head?_cons, Option.some.injEq, if_neg hmark]
    rfl

end StandsAt

theorem length_fractionText (fraction : Option (List Digit)) :
    (Literal.fractionText fraction).length - 1 = (fraction.getD []).length := by
  cases fraction with
  | none => rfl
  | some ds => exact Digit.length_chars ds

/-- The scan of bytes ends behind the literal that the scan of characters finds. -/
theorem literalEnd?_utf8 (cs : List Char) :
    literalEnd? (utf8 cs) = (Literal.scan cs).map fun found => found.1.text.length := by
  have hfront : StandsAt (utf8 cs) 0 cs := rfl
  have hstart := hfront.signEnd_eq
  have hpoint := hfront.sign.digitsEnd_eq
  have hstop := hfront.sign.digits.fractionEnd_eq
  have hend := hfront.sign.digits.fraction.exponentEnd_eq
  simp only [literalEnd?]
  fun_cases Literal.scan cs with
  | case1 sign unsigned hsign whole afterWhole hwhole fraction afterFraction hfraction hnone =>
    simp only [hsign, hwhole, hfraction] at hpoint hstop
    have hlength := length_fractionText fraction
    rw [hnone.1, List.length_nil] at hpoint
    rw [hnone.2, List.length_nil] at hlength
    exact if_pos (by omega)
  | case2 sign unsigned hsign whole afterWhole hwhole fraction afterFraction hfraction hsome
      exponent rest hexponent =>
    simp only [hsign, hwhole, hfraction, hexponent] at hstart hpoint hstop hend
    have hlength := length_fractionText fraction
    have hdigits : whole.length ≠ 0 ∨ (fraction.getD []).length ≠ 0 := by
      rw [ne_eq, ne_eq, List.length_eq_zero_iff, List.length_eq_zero_iff]
      exact Classical.not_and_iff_not_or_not.mp hsome
    refine (if_neg (by omega)).trans (congrArg some ?_)
    simp only [Literal.text, List.length_append, Digit.length_chars]
    omega

/-- A mark and a sign without digits behind them are given back. -/
example : literalEnd? (bytes "+.5E-é") = some 3 := by decide

/-! ## The number in a cell -/

/-- A text without its leading blanks. -/
def trimStart (raw : String) : String :=
  String.ofList (dropBlanks raw.toList)

end Text

namespace Binary64

/-- The number that a text is read as when the whole text is a literal. -/
def ofText? (text : String) : Option Binary64 :=
  match Literal.scan text.toList with
  | some (l, []) => some l.value
  | _ => none

/-- Every literal is read as a number. -/
theorem ofText?_text (l : Literal) : ofText? (String.ofList l.text) = some l.value := by
  rw [ofText?, String.toList_ofList, l.scan_text]

theorem ofRatio_cases (negative : Bool) (num den : Nat) :
    (∃ x, ofRatio negative num den = finite x) ∨
      ofRatio negative num den = infinite negative := by
  unfold ofRatio
  split
  · exact .inl ⟨_, rfl⟩
  · exact .inr rfl

/-- A decimal number is rounded to a finite value or to an infinity. -/
theorem ofDecimal_cases (negative : Bool) (coefficient : Nat) (scale : Int) :
    (∃ x, ofDecimal negative coefficient scale = finite x) ∨
      ofDecimal negative coefficient scale = infinite negative := by
  unfold ofDecimal
  split
  · exact .inl ⟨_, rfl⟩
  · split
    · exact .inr rfl
    · split
      · exact .inl ⟨_, rfl⟩
      · split <;> exact ofRatio_cases _ _ _

end Binary64

/-- A cell is read up to the end of the longest literal behind its leading blanks. If no literal
    stands there, the scan of bytes finds none and the cell has no number. Otherwise the scan of
    bytes stops between two characters, what it passed over is that literal, the literal is read
    as a number, and this is the number of the cell unless it is infinite. -/
theorem leadingNumber?_longest (raw : String) :
    ((∀ lit, lit <+: (Text.trimStart raw).toList → ¬Grammar.Literal lit) ∧
      Text.literalEnd? (Text.bytes (Text.trimStart raw)) = none ∧ leadingNumber? raw = none) ∨
    ∃ (lit : String) (stop : Nat) (x : Binary64),
      LongestPrefix Grammar.Literal (Text.trimStart raw).toList lit.toList ∧
      Text.literalEnd? (Text.bytes (Text.trimStart raw)) = some stop ∧
      String.Pos.Raw.IsValid (Text.trimStart raw) ⟨stop⟩ ∧
      (Text.bytes (Text.trimStart raw)).take stop = Text.bytes lit ∧
      Binary64.ofText? lit = some x ∧
      ((∃ y, x = .finite y ∧ leadingNumber? raw = some y) ∨
        (∃ negative, x = .infinite negative ∧ leadingNumber? raw = none)) := by
  have hend := Text.literalEnd?_utf8 (Text.dropBlanks raw.toList)
  rw [Text.trimStart, String.toList_ofList, Text.bytes_ofList]
  cases hscan : Literal.scan (Text.dropBlanks raw.toList) with
  | none =>
    rw [hscan] at hend
    refine .inl ⟨Literal.scan_eq_none_iff.mp hscan, hend, ?_⟩
    rw [leadingNumber?, hscan]
    rfl
  | some found =>
    obtain ⟨l, rest⟩ := found
    rw [hscan] at hend
    have hnumber : leadingNumber? raw = l.value.finite? := by
      rw [leadingNumber?, hscan]
      rfl
    have htext := Literal.text_append_of_scan hscan
    have hlength : l.text.length = (Text.utf8 l.text).length :=
      (Text.length_utf8 l.text_subset_alphabet).symm
    refine .inr ⟨String.ofList l.text, l.text.length, l.value, ?_, hend, ?_, ?_,
      Binary64.ofText?_text l, ?_⟩
    · rw [String.toList_ofList]
      exact Literal.longest_of_scan hscan
    · refine String.Pos.Raw.isValid_ofList.mpr ⟨l.text.length, ?_⟩
      rw [← htext, List.take_left, ← Text.length_bytes, Text.bytes_ofList, ← hlength]
    · rw [Text.bytes_ofList, ← htext, Text.utf8_append, hlength, List.take_left]
    · rcases Binary64.ofDecimal_cases l.negative l.coefficient l.scale with ⟨y, hfinite⟩ | hinfinite
      · exact .inl ⟨y, hfinite, hnumber.trans (congrArg Binary64.finite? hfinite)⟩
      · exact .inr ⟨l.negative, hinfinite, hnumber.trans (congrArg Binary64.finite? hinfinite)⟩

end ChartDoc
