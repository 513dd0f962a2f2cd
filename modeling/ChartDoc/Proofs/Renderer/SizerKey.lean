/-
  The keys of square root sizers. A key contains both parameters in decimal form. It can be taken
  apart again, because no digit is a comma, and the text of a number says which number it is: the
  text of a finite number is scanned as a literal that stands for the number, and the words for
  the other numbers are not scanned as literals at all (`Binary64.text_injective`). So two such
  sizers have the same key exactly when they have the same parameters (`key_eq_iff`), the two
  zeros being two scales.

  Sizers are held through handles, and handles are compared by the keys of their sizers, unless
  they share one sizer and are equal at once. Told from the bit patterns of the scales, such
  handles are equal exactly when the patterns are the same or both of NaN, and then their sizers
  give every row the same size (`sizer_beq_iff_pattern`).
-/
import ChartDoc.Proofs.Binary64.Pattern
import ChartDoc.Proofs.Binary64.ReadBack
import ChartDoc.Proofs.Decimal.Scan
import ChartDoc.Proofs.Validation.Path
import ChartDoc.Renderer.SymbolSizer

namespace ChartDoc

namespace Binary64

/-! ## Texts of numbers -/

theorem scan_text_finite (style : NumeralStyle) (x : Finite) :
    Literal.scan ((finite x).text style).toList = some (x.literal style, []) := by
  show Literal.scan (String.ofList (x.literal style).text).toList = _
  rw [String.toList_ofList, Literal.scan_text]

/-- The words for NaN and the infinities do not begin with a literal. -/
theorem scan_text_of_not_isFinite (style : NumeralStyle) {x : Binary64} (h : ¬x.isFinite = true) :
    Literal.scan (x.text style).toList = none := by
  cases x with
  | nan =>
    show Literal.scan "NaN".toList = none
    decide
  | infinite negative =>
    cases negative with
    | false =>
      show Literal.scan "inf".toList = none
      decide
    | true =>
      show Literal.scan "-inf".toList = none
      decide
  | finite x => exact absurd rfl h

/-- Different numbers have different texts, in every style. -/
theorem text_injective (style : NumeralStyle) {x y : Binary64} (h : x.text style = y.text style) :
    x = y := by
  have hscan := congrArg (fun text => Literal.scan text.toList) h
  by_cases hx : x.isFinite = true <;> by_cases hy : y.isFinite = true
  · obtain ⟨x, rfl⟩ := isFinite_iff.mp hx
    obtain ⟨y, rfl⟩ := isFinite_iff.mp hy
    simp only [scan_text_finite] at hscan
    obtain ⟨hliteral, -⟩ := Prod.mk.inj (Option.some.inj hscan)
    rw [← x.value_literal style, hliteral, y.value_literal]
  · obtain ⟨x, rfl⟩ := isFinite_iff.mp hx
    simp only [scan_text_finite, scan_text_of_not_isFinite style hy] at hscan
    cases hscan
  · obtain ⟨y, rfl⟩ := isFinite_iff.mp hy
    simp only [scan_text_finite, scan_text_of_not_isFinite style hx] at hscan
    cases hscan
  · -- Three texts are left, and they are different words.
    cases x with
    | finite x => exact absurd rfl hx
    | nan =>
      cases y with
      | finite y => exact absurd rfl hy
      | nan => rfl
      | infinite negative => cases negative <;> simp [text] at h
    | infinite negative =>
      cases y with
      | finite y => exact absurd rfl hy
      | nan => cases negative <;> simp [text] at h
      | infinite negative' => cases negative <;> cases negative' <;> simp [text] at h ⊢

/-- Two finite numbers are the same when they are equal and have the same sign: numbers with a
    magnitude have the sign of their place, and the two zeros are told apart by their signs. -/
theorem eq_iff_beq_and_negative {x y : Binary64} (hx : x.isFinite = true) (hy : y.isFinite = true) :
    x = y ↔ (x == y) = true ∧ x.negative = y.negative := by
  obtain ⟨x, rfl⟩ := isFinite_iff.mp hx
  obtain ⟨y, rfl⟩ := isFinite_iff.mp hy
  rw [beq_finite, beq_iff_eq]
  constructor
  · rintro ⟨⟩
    exact ⟨rfl, rfl⟩
  · rintro ⟨hplace, hsign⟩
    congr 1
    by_cases hzero : x.rank.val = 0
    · obtain ⟨negative, rank⟩ := x
      obtain ⟨negative', rank'⟩ := y
      have hrank : rank = rank' := by
        refine Fin.ext ?_
        cases negative <;> cases negative' <;> simp [Finite.place] at hplace hzero ⊢ <;> omega
      exact congrArg₂ Finite.mk hsign hrank
    · exact Finite.eq_of_place_eq hplace hzero

end Binary64

namespace Renderer.RootSizing

/-! ## Keys -/

theorem naturalText_ne_comma (n : Nat) : ∀ c ∈ (naturalText n).toList, c ≠ ',' := by
  have hdigit : ∀ d : Digit, d.char ≠ ',' := by decide
  intro c hc
  obtain ⟨d, rfl⟩ := Location.exists_char_of_mem_naturalText hc
  exact hdigit d

theorem toList_key (s : RootSizing) :
    s.key.toList = "sqrt(dimension=".toList ++ ((naturalText s.dimension).toList ++
      (",scale=".toList ++ (s.scale.plain.toList ++ ")".toList))) := by
  unfold key
  rw [String.toList_append, String.toList_append, String.toList_append, String.toList_append,
    List.append_assoc, List.append_assoc, List.append_assoc]

/-- The key of a sizer says its parameters. -/
theorem key_eq_iff {s t : RootSizing} : s.key = t.key ↔ s = t := by
  constructor
  · intro h
    have hchars := congrArg String.toList h
    rw [toList_key, toList_key] at hchars
    have hstop (rest : List Char) : ∀ c, (",scale=".toList ++ rest).head? = some c → ¬c ≠ ',' := by
      intro c hc
      simp at hc
      simp [← hc]
    obtain ⟨hdimension, hrest⟩ := Location.append_inj_of_stop (naturalText_ne_comma s.dimension)
      (naturalText_ne_comma t.dimension) (hstop _) (hstop _) (List.append_cancel_left hchars)
    have hscale : s.scale.plain.toList = t.scale.plain.toList :=
      List.append_cancel_right (List.append_cancel_left hrest)
    obtain ⟨dimension, scale⟩ := s
    obtain ⟨dimension', scale'⟩ := t
    exact congrArg₂ RootSizing.mk (Location.naturalText_injective hdimension)
      (Binary64.text_injective .plain (String.toList_inj.mp hscale))
  · rintro rfl
    rfl

/-! ## Handles -/

/-- Two handles to square root sizers, which may be `shared` if the sizers have the same
    parameters: they are equal exactly when the dimensions are the same and the scales have the
    same pattern or are both NaN, and handles that are equal size every row alike. -/
theorem sizer_beq_iff_pattern (dimension dimension' : Nat) (scale scale' : BitVec 64)
    (shared : Bool) (sharing : shared = true → dimension = dimension' ∧ scale = scale') :
    ((shared || (RootSizing.mk dimension (.ofPattern scale)).sizer ==
        (RootSizing.mk dimension' (.ofPattern scale')).sizer) = true ↔
      dimension = dimension' ∧ (scale = scale' ∨
        (Binary64.ofPattern scale).isNaN = true ∧ (Binary64.ofPattern scale').isNaN = true)) ∧
    ((shared || (RootSizing.mk dimension (.ofPattern scale)).sizer ==
        (RootSizing.mk dimension' (.ofPattern scale')).sizer) = true →
      ∀ row, (RootSizing.mk dimension (.ofPattern scale)).sizer.size row =
        (RootSizing.mk dimension' (.ofPattern scale')).sizer.size row) := by
  have hsame : (shared || (RootSizing.mk dimension (.ofPattern scale)).sizer ==
      (RootSizing.mk dimension' (.ofPattern scale')).sizer) = true ↔
      RootSizing.mk dimension (.ofPattern scale) = .mk dimension' (.ofPattern scale') := by
    rw [Bool.or_eq_true, SymbolSizer.beq_iff]
    show _ ∨ key _ = key _ ↔ _
    rw [key_eq_iff]
    refine or_iff_right_of_imp fun h => ?_
    obtain ⟨rfl, rfl⟩ := sharing h
    rfl
  refine ⟨?_, fun h row => by rw [hsame.mp h]⟩
  rw [hsame, RootSizing.mk.injEq, Binary64.ofPattern_eq_iff]

/-- Two handles that share the sizer with the negative zero as its scale, and two handles to sizers
    whose scales are NaN with different patterns. -/
theorem sizer_beq_iff_pattern_nan :
    (true || (RootSizing.mk 0 (.ofPattern 0x8000000000000000)).sizer ==
        (RootSizing.mk 0 (.ofPattern 0x8000000000000000)).sizer) = true ∧
      (false || (RootSizing.mk 2 (.ofPattern 0x7FF8000000000000)).sizer ==
        (RootSizing.mk 2 (.ofPattern 0xFFF0000000000001)).sizer) = true ∧
      (RootSizing.mk 2 (.ofPattern 0x7FF8000000000000)).sizer.size [.null, .null, .number 4] =
        (RootSizing.mk 2 (.ofPattern 0xFFF0000000000001)).sizer.size
          [.null, .null, .number 4] := by
  have hshared := (sizer_beq_iff_pattern 0 0 0x8000000000000000 0x8000000000000000 true
    fun _ => ⟨rfl, rfl⟩).1.mpr ⟨rfl, .inl rfl⟩
  obtain ⟨hiff, hsize⟩ :=
    sizer_beq_iff_pattern 2 2 0x7FF8000000000000 0xFFF0000000000001 false nofun
  have hequal := hiff.mpr ⟨rfl, .inr ⟨by decide +kernel, by decide +kernel⟩⟩
  exact ⟨hshared, hequal, hsize hequal _⟩

end Renderer.RootSizing

end ChartDoc
