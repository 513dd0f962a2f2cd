/-
  Acceptance of chart documents. Three descriptions of the format meet here: the registered
  definitions, along which values are walked; the reader of documents; and the check of the
  document that was read. The format of documents joins the first two, and the bounds that it
  declares are those of the third (`sound_iff`), so the walk finds nothing in a value exactly
  when the value is read as a document that passes the check and no null stands for an absent
  member.
-/
import ChartDoc.Proofs.Format.Chart
import ChartDoc.Validation.Acceptance

namespace ChartDoc

open Schema

/-! ## Bounds -/

/-- A natural number is rounded alike as an integer. -/
theorem Binary64.ofInt_natCast (n : Nat) : ofInt n = ofNat n := by
  have hnonneg : ¬(n : Int) < 0 := by omega
  simp [ofInt, ofNat, hnonneg]

theorem Shape.zeroBound_toBinary64 : zeroBound.toBinary64 = 0 :=
  Binary64.ofInt_natCast 0

theorem Shape.oneBound_toBinary64 : oneBound.toBinary64 = 1 :=
  Binary64.ofInt_natCast 1

/-- A number is at least zero when it is neither NaN nor below zero. -/
theorem Binary64.zero_le_iff {x : Binary64} : 0 ≤ x ↔ x.isNaN = false ∧ ¬x < 0 := by
  rw [← Shape.zeroBound_toBinary64]
  obtain ⟨zero, hzero⟩ := isFinite_iff.mp Shape.zeroBound.toBinary64_isFinite
  rw [hzero]
  cases x <;> simp [lt_iff, le_iff, place?, isNaN]

theorem opacityFaults_eq_nil_iff {opacity : Option Binary64} :
    opacityFaults opacity = [] ↔
      ∀ x, opacity = some x → Format.Within (some Shape.zeroBound) (some Shape.oneBound) x := by
  cases opacity with
  | none => simp [opacityFaults]
  | some x =>
    simp [opacityFaults, Format.Within, Shape.zeroBound_toBinary64, Shape.oneBound_toBinary64]

theorem widthFaults_eq_nil_iff {width : Option Binary64} :
    widthFaults width = [] ↔ ∀ x, width = some x → Format.Within (some Shape.zeroBound) none x := by
  cases width with
  | none => simp [widthFaults]
  | some x =>
    simp [widthFaults, Format.Within, Shape.zeroBound_toBinary64, Binary64.zero_le_iff]

/-! ## Sound documents -/

theorem Axis.sound (a : Axis) : format.Sound a :=
  ⟨trivial, trivial, trivial, fun _ _ => trivial, fun x _ => Format.within_none x,
    fun x _ => Format.within_none x, trivial⟩

theorem Style.sound_iff (s : Style) :
    format.Sound s ↔ opacityFaults s.opacity = [] ∧ widthFaults s.borderWidth = [] := by
  rw [opacityFaults_eq_nil_iff, widthFaults_eq_nil_iff]
  constructor
  · rintro ⟨-, hopacity, -, hwidth, -⟩
    exact ⟨hopacity, hwidth⟩
  · rintro ⟨hopacity, hwidth⟩
    exact ⟨fun _ _ => trivial, hopacity, fun _ _ => trivial, hwidth, trivial⟩

theorem Mark.sound_iff (m : Mark) (position : Nat) :
    format.Sound m ↔ m.violations position = [] := by
  have hstyle : format.Sound m ↔ ∀ s, m.style = some s → Style.format.Sound s := by
    constructor
    · rintro ⟨-, -, -, -, -, hstyle, -⟩
      exact hstyle
    · intro hstyle
      exact ⟨trivial, trivial, trivial, fun _ _ => trivial, (Encoding.free m.encode).1, hstyle,
        fun _ _ => trivial, fun _ _ => trivial, fun _ _ => trivial, trivial⟩
  rw [hstyle, violations]
  cases m.style with
  | none => simp
  | some s => simp [Registry.located, s.sound_iff]

namespace Document

theorem sound_iff_parts (d : Document) : format.Sound d ↔
    d.datasets ≠ [] ∧ d.marks ≠ [] ∧ ∀ m ∈ d.marks, Mark.format.Sound m := by
  constructor
  · rintro ⟨-, ⟨hdatasets, -⟩, ⟨hmarks, hsound⟩, -⟩
    exact ⟨List.length_pos_iff.mp (hdatasets 1 rfl), List.length_pos_iff.mp (hmarks 1 rfl), hsound⟩
  · rintro ⟨hdatasets, hmarks, hsound⟩
    refine ⟨fun _ _ => trivial, ⟨?_, fun x _ => (Dataset.free x).1⟩, ⟨?_, hsound⟩,
      fun _ _ => ⟨nofun, fun a _ => a.sound⟩, fun l _ => (Legend.free l).1,
      fun t _ => (Tooltip.free t).1, fun g _ => (Grid.free g).1, trivial⟩
    · rintro _ ⟨⟩
      exact List.length_pos_iff.mpr hdatasets
    · rintro _ ⟨⟩
      exact List.length_pos_iff.mpr hmarks

/-- The position of a mark does not decide whether its style has violations. -/
theorem sound_marks_iff (marks : List Mark) :
    (∀ m ∈ marks, Mark.format.Sound m) ↔ ∀ e ∈ marks.zipIdx, e.1.violations e.2 = [] := by
  constructor
  · rintro h ⟨m, position⟩ he
    exact (m.sound_iff position).mp (h m (List.fst_mem_of_mem_zipIdx he))
  · intro h m hm
    obtain ⟨i, hi⟩ := List.getElem?_of_mem hm
    exact (m.sound_iff i).mpr (h (m, i) (List.mk_mem_zipIdx_iff_getElem?.mpr hi))

/-- A document is sound by its format exactly when the check of documents finds nothing. -/
theorem sound_iff (d : Document) : format.Sound d ↔ d.violations = [] := by
  have hlocated {α : Type} (here : Location) (xs : List α) (fault : Fault) :
      Registry.located here (if xs.isEmpty then [fault] else []) = [] ↔ xs ≠ [] := by
    cases xs <;> simp [Registry.located]
  rw [sound_iff_parts, sound_marks_iff, violations, List.append_eq_nil_iff,
    List.append_eq_nil_iff, hlocated, hlocated, List.flatMap_eq_nil_iff, and_assoc]

/-- A document passes the check exactly when it is sound by its format. -/
theorem validate_eq_ok_iff (d : Document) : d.validate = .ok () ↔ format.Sound d := by
  rw [sound_iff, validate]
  cases d.violations <;> simp

/-! ## Accepted values -/

/-- The format of documents, under the name of their definition. -/
def namedFormat : Format .chart Document :=
  .named chartRoot format rfl rfl

/-- The reference to the definition of documents. -/
def reference : Json :=
  Shape.referenceJson chartRoot

theorem check_eq_nil_iff {v : Json} :
    Registry.chart.check chartRoot v = [] ↔ Registry.chart.Clean reference v := by
  have hget : Registry.chart.get? chartRoot = some format.shape.json :=
    Registry.chart_get? chartRoot
  have hresolve : Registry.chart.resolve? reference =
      Registry.chart.resolve? format.shape.json := by
    rw [Registry.resolve?_shape format.shape rfl]
    exact (Registry.resolve?_reference chartRoot).trans hget
  rw [Registry.clean_congr hresolve, Registry.check, hget]
  rfl

/-- What is read from a value in which the walk finds nothing passes the check of documents. -/
theorem ofValue_eq_ok_iff_clean {v : Json} {d : Document} :
    ofValue v = .ok d ↔ Registry.chart.Clean reference v ∧ ofJson? v = some d := by
  rw [← check_eq_nil_iff]
  unfold ofValue
  constructor
  · intro h
    split at h
    · rename_i hcheck
      refine ⟨hcheck, ?_⟩
      split at h
      · cases h
      · rename_i d' hread
        cases hvalid : d'.validate <;> rw [hvalid] at h <;> cases h
        exact hread
    · cases h
  · rintro ⟨hcheck, hread⟩
    obtain ⟨⟨d', hread', hsound⟩, -⟩ := (namedFormat.clean_iff v).mp (check_eq_nil_iff.mp hcheck)
    have heq : d = d' := Option.some.inj (hread.symm.trans hread')
    have hvalid : d.validate = .ok () := d.validate_eq_ok_iff.mpr (heq ▸ hsound)
    simp [hcheck, hread, hvalid, Except.map]

/-- A value is accepted as a document exactly when it is read as that document, the document
    passes the check, and no property that its schema declares and does not require is null.
    The walk finds nothing exactly when there is such a document, so a value that it lets pass
    can be read, and what is read passes the check. -/
theorem ofValue_eq_ok_iff (v : Json) :
    (∀ d, ofValue v = .ok d ↔ ofJson? v = some d ∧ d.validate = .ok () ∧
      ¬Registry.chart.HoldsNull reference v) ∧
    (Registry.chart.check chartRoot v = [] ↔
      (∃ d, ofJson? v = some d ∧ d.validate = .ok ()) ∧
        ¬Registry.chart.HoldsNull reference v) := by
  have hclean : Registry.chart.Clean reference v ↔
      (∃ d, ofJson? v = some d ∧ d.validate = .ok ()) ∧
        ¬Registry.chart.HoldsNull reference v := by
    simp only [validate_eq_ok_iff]
    exact namedFormat.clean_iff v
  refine ⟨fun d => ?_, check_eq_nil_iff.trans hclean⟩
  rw [ofValue_eq_ok_iff_clean, hclean]
  constructor
  · rintro ⟨⟨⟨d', hread', hvalid⟩, hnull⟩, hread⟩
    have heq : d' = d := Option.some.inj (hread'.symm.trans hread)
    exact ⟨hread, heq ▸ hvalid, hnull⟩
  · rintro ⟨hread, hvalid, hnull⟩
    exact ⟨⟨⟨d, hread, hvalid⟩, hnull⟩, hread⟩

end Document

end ChartDoc
