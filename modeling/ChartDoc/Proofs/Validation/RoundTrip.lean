/-
  Writing documents and accepting values are inverse to each other. A document is written as a
  value that is accepted as the same document, unless the document fails the check or one of
  its numbers is not finite; such numbers have no JSON and are written as null. And a value that
  is accepted is written again in its normal form.
-/
import ChartDoc.Proofs.Validation.Acceptance
import ChartDoc.Proofs.Walk.NormalForm

namespace ChartDoc

open Schema

/-! ## Finite documents -/

def Style.AllFinite (s : Style) : Prop :=
  (∀ x, s.opacity = some x → x.isFinite = true) ∧
    ∀ x, s.borderWidth = some x → x.isFinite = true

def Axis.AllFinite (a : Axis) : Prop :=
  (∀ x, a.min = some x → x.isFinite = true) ∧ ∀ x, a.max = some x → x.isFinite = true

/-- All numbers in a document are finite: the opacities and border widths of its marks, and the
    ends of its axes. -/
def Document.AllFinite (d : Document) : Prop :=
  (∀ m ∈ d.marks, ∀ s, m.style = some s → s.AllFinite) ∧
    ∀ axes, d.axes = some axes → ∀ a ∈ axes, a.AllFinite

theorem Style.finite_iff (s : Style) : format.Finite s ↔ s.AllFinite := by
  constructor
  · rintro ⟨-, hopacity, -, hwidth, -⟩
    exact ⟨hopacity, hwidth⟩
  · rintro ⟨hopacity, hwidth⟩
    exact ⟨fun _ _ => trivial, hopacity, fun _ _ => trivial, hwidth, trivial⟩

theorem Axis.finite_iff (a : Axis) : format.Finite a ↔ a.AllFinite := by
  constructor
  · rintro ⟨-, -, -, -, hmin, hmax, -⟩
    exact ⟨hmin, hmax⟩
  · rintro ⟨hmin, hmax⟩
    exact ⟨trivial, trivial, trivial, fun _ _ => trivial, hmin, hmax, trivial⟩

theorem Mark.finite_iff (m : Mark) :
    format.Finite m ↔ ∀ s, m.style = some s → s.AllFinite := by
  constructor
  · rintro ⟨-, -, -, -, -, hstyle, -⟩ s hs
    exact s.finite_iff.mp (hstyle s hs)
  · intro hstyle
    exact ⟨trivial, trivial, trivial, fun _ _ => trivial, (Encoding.free m.encode).2,
      fun s hs => s.finite_iff.mpr (hstyle s hs), fun _ _ => trivial, fun _ _ => trivial,
      fun _ _ => trivial, trivial⟩

namespace Document

theorem finite_iff (d : Document) : format.Finite d ↔ d.AllFinite := by
  constructor
  · rintro ⟨-, -, hmarks, haxes, -⟩
    exact ⟨fun m hm => m.finite_iff.mp (hmarks m hm),
      fun axes h a ha => a.finite_iff.mp (haxes axes h a ha)⟩
  · rintro ⟨hmarks, haxes⟩
    exact ⟨fun _ _ => trivial, fun x _ => (Dataset.free x).2,
      fun m hm => m.finite_iff.mpr (hmarks m hm),
      fun axes h a ha => a.finite_iff.mpr (haxes axes h a ha), fun l _ => (Legend.free l).2,
      fun t _ => (Tooltip.free t).2, fun g _ => (Grid.free g).2, trivial⟩

/-! ## There and back -/

/-- A value is accepted or refused. -/
theorem ofValue_eq_error_iff {v : Json} :
    (∃ refusal, ofValue v = .error refusal) ↔ ∀ d, ofValue v ≠ .ok d := by
  cases ofValue v <;> simp

theorem ofValue_json_eq_ok_iff {d : Document} :
    ofValue d.json = .ok d ↔ d.validate = .ok () ∧ d.AllFinite := by
  rw [ofValue_eq_ok_iff_clean, validate_eq_ok_iff, ← finite_iff]
  have hclean : Registry.chart.Clean reference d.json ↔ format.Sound d ∧ format.Finite d :=
    namedFormat.clean_write_iff d
  rw [hclean]
  exact ⟨fun h => h.1, fun h => ⟨h, namedFormat.read?_write d h.2⟩⟩

/-- The document that a value is accepted as is accepted as itself after writing. -/
theorem ofValue_json_of_ofValue {v : Json} {d : Document} (h : ofValue v = .ok d) :
    ofValue d.json = .ok d := by
  obtain ⟨hclean, hread⟩ := ofValue_eq_ok_iff_clean.mp h
  have hjson : d.json = Registry.chart.normalForm reference v :=
    namedFormat.write_of_read? v d hclean hread
  have hcleanJson : Registry.chart.Clean reference d.json := by
    rw [hjson]
    exact Registry.clean_normalForm Registry.chart_allFormed namedFormat.formed hclean
  have hfinite := ((namedFormat.clean_write_iff d).mp hcleanJson).2
  exact ofValue_eq_ok_iff_clean.mpr ⟨hcleanJson, namedFormat.read?_write d hfinite⟩

theorem allFinite_of_ofValue {v : Json} {d : Document} (h : ofValue v = .ok d) : d.AllFinite :=
  (ofValue_json_eq_ok_iff.mp (ofValue_json_of_ofValue h)).2

/-- No document is accepted in place of another. -/
theorem eq_of_ofValue_json {d d' : Document} (h : ofValue d.json = .ok d') : d = d' := by
  obtain ⟨hclean, hread⟩ := ofValue_eq_ok_iff_clean.mp h
  have hfinite := ((namedFormat.clean_write_iff d).mp hclean).2
  exact Option.some.inj ((namedFormat.read?_write d hfinite).symm.trans hread)

/-- A document is accepted as itself after writing if it passes the check and its numbers are
    finite, and is refused otherwise. A value that is accepted is written again in its normal
    form, in which one comes to the same parts at the same locations. -/
theorem ofValue_json_inverse :
    (∀ d : Document,
      (ofValue d.json = .ok d ↔ d.validate = .ok () ∧ d.AllFinite) ∧
      ((∃ refusal, ofValue d.json = .error refusal) ↔
        ¬(d.validate = .ok () ∧ d.AllFinite))) ∧
    ∀ v d, ofValue v = .ok d →
      d.json = Registry.chart.normalForm reference v ∧
      ∀ location q u, Registry.chart.Reaches reference d.json location q u ↔
        ∃ w, Registry.chart.Reaches reference v location q w ∧
          u = Registry.chart.normalForm q w := by
  constructor
  · intro d
    refine ⟨ofValue_json_eq_ok_iff, ?_⟩
    rw [ofValue_eq_error_iff, ← ofValue_json_eq_ok_iff]
    constructor
    · exact fun h => h d
    · intro h d' h'
      exact h (eq_of_ofValue_json h' ▸ h')
  · intro v d h
    obtain ⟨hclean, hread⟩ := ofValue_eq_ok_iff_clean.mp h
    have hjson : d.json = Registry.chart.normalForm reference v :=
      namedFormat.write_of_read? v d hclean hread
    refine ⟨hjson, fun location q u => ?_⟩
    rw [hjson]
    exact Registry.reaches_normalForm_iff

/-- A value with members that no schema declares, the others not in their order, and a whole
    number. -/
def looseValue : Json :=
  .object
    [("note", .null),
     ("marks", .array
      [.object
        [("style", .object [("opacity", .number Shape.oneBound)]), ("encode", .object []),
         ("geometry", .string "bar"), ("datasetId", .string "d"), ("id", .string "m")]]),
     ("datasets", .array
      [.object [("id", .string "d"), ("columns", .array []), ("rows", .array [])]])]

/-- The document that the loose value describes. -/
def looseDocument : Document where
  title := none
  datasets := [⟨"d", [], []⟩]
  marks :=
    [{ Mark.bare "m" "d" .bar with
        style := some { Style.empty with opacity := some Shape.oneBound.toBinary64 } }]
  axes := none
  legend := none
  tooltip := none
  grid := none

theorem json_looseDocument :
    ofValue looseValue = .ok looseDocument ∧
      looseDocument.json = Registry.chart.normalForm reference looseValue := by
  have hcheck : Registry.chart.check chartRoot looseValue = [] :=
    List.isEmpty_iff.mp (by decide +kernel)
  have haccepted : ofValue looseValue = .ok looseDocument :=
    ofValue_eq_ok_iff_clean.mpr ⟨check_eq_nil_iff.mp hcheck, rfl⟩
  exact ⟨haccepted, (ofValue_json_inverse.2 looseValue looseDocument haccepted).1⟩

end Document

end ChartDoc
