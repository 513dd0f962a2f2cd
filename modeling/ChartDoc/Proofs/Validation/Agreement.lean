/-
  Two checks of one document. The walk of a written document and the check of the document
  itself look at the same places in the same order, so they report the same locations, although
  the one compares JSON numbers with the bounds of a schema and the other floats with constants.
  A number that is not finite is written as null, which the walk refuses; the check of documents
  refuses it too, because it lies outside the bounds. The exceptions are a border width of plus
  infinity, which has no upper bound to violate, and the ends of axes, which have no bounds.
-/
import ChartDoc.Proofs.Binary64.Order
import ChartDoc.Proofs.Format.Violations
import ChartDoc.Proofs.Validation.RoundTrip

namespace ChartDoc

open Schema

/-- The places of violations, in order. -/
def Violation.locations (xs : List Violation) : List Location :=
  xs.map Violation.location

namespace Violation

theorem locations_append (xs ys : List Violation) :
    locations (xs ++ ys) = locations xs ++ locations ys :=
  List.map_append

theorem locations_flatMap {α : Type} (xs : List α) (f : α → List Violation) :
    locations (xs.flatMap f) = xs.flatMap fun x => locations (f x) :=
  List.map_flatMap ..

theorem locations_located (here : Location) (faults : List Fault) :
    locations (Registry.located here faults) = List.replicate faults.length here := by
  unfold locations Registry.located
  rw [List.map_map]
  exact List.map_const' ..

/-- Two lists of one fault at most have the same places when one is empty with the other. -/
theorem locations_located_eq {here : Location} {faults faults' : List Fault}
    (h : faults.length ≤ 1) (h' : faults'.length ≤ 1) (hnil : faults = [] ↔ faults' = []) :
    locations (Registry.located here faults) = locations (Registry.located here faults') := by
  have hlength : faults.length = faults'.length := by
    rw [← List.length_eq_zero_iff, ← List.length_eq_zero_iff] at hnil
    omega
  rw [locations_located, locations_located, hlength]

end Violation

/-! ## Numbers -/

theorem length_opacityFaults_le (opacity : Option Binary64) :
    (opacityFaults opacity).length ≤ 1 := by
  unfold opacityFaults
  split
  · split <;> simp
  · simp

theorem length_widthFaults_le (width : Option Binary64) : (widthFaults width).length ≤ 1 := by
  unfold widthFaults
  split
  · split <;> simp
  · simp

/-- A field for a number is found at fault in one place at most, and is not when the number is
    finite and within the bounds. -/
theorem locations_numberField {r : Registry} (key : String) (least most : Option Json.Number)
    (ordered : (Form.number least most).Sound) (here : Location) (x : Option Binary64)
    {faults : List Fault} (hlength : faults.length ≤ 1)
    (hfaults : faults = [] ↔ ∀ y, x = some y → Format.Within least most y ∧ y.isFinite = true) :
    Violation.locations
        ((Field.optional key (.number least most ordered) : Field r _).violations here x) =
      Violation.locations (Registry.located (here ++ [.key key]) faults) := by
  cases x with
  | none =>
    have hnil : faults = [] := hfaults.mpr nofun
    rw [hnil]
    rfl
  | some y =>
    obtain ⟨own, hown, hone⟩ := Format.violations_number (r := r) least most (here ++ [.key key])
      (.ofBinary64 y)
    have hclean : r.Clean (Shape.number least most).json (.ofBinary64 y) ↔
        Format.Within least most y ∧ y.isFinite = true :=
      (Format.number least most ordered).clean_write_iff y
    have hempty : own = [] ↔ Registry.located (here ++ [.key key]) own = [] :=
      List.map_eq_nil_iff.symm
    have hnil : own = [] ↔ faults = [] := by
      rw [hempty, ← hown, Registry.violations_eq_nil_iff, hclean, hfaults]
      simp
    show Violation.locations
      (r.violations (Shape.number least most).json (here ++ [.key key]) (.ofBinary64 y)) = _
    rw [hown]
    exact Violation.locations_located_eq (hone ordered) hlength hnil

theorem opacityFaults_eq_nil_iff_finite {opacity : Option Binary64} :
    opacityFaults opacity = [] ↔ ∀ x, opacity = some x →
      Format.Within (some Shape.zeroBound) (some Shape.oneBound) x ∧ x.isFinite = true := by
  rw [opacityFaults_eq_nil_iff]
  refine forall_congr' fun x => imp_congr_right fun _ => ?_
  have hfinite (h : Format.Within (some Shape.zeroBound) (some Shape.oneBound) x) :
      x.isFinite = true :=
    Binary64.isFinite_of_between Shape.zeroBound.toBinary64_isFinite
      Shape.oneBound.toBinary64_isFinite (h.1 _ rfl) (h.2 _ rfl)
  exact ⟨fun h => ⟨h, hfinite h⟩, fun h => h.1⟩

theorem widthFaults_eq_nil_iff_finite {width : Option Binary64}
    (hwidth : width ≠ some (.infinite false)) :
    widthFaults width = [] ↔ ∀ x, width = some x →
      Format.Within (some Shape.zeroBound) none x ∧ x.isFinite = true := by
  rw [widthFaults_eq_nil_iff]
  refine forall_congr' fun x => imp_congr_right fun hx => ?_
  have hne : x ≠ .infinite false := fun h => hwidth (h ▸ hx)
  have hfinite (h : Format.Within (some Shape.zeroBound) none x) : x.isFinite = true :=
    Binary64.isFinite_of_le Shape.zeroBound.toBinary64_isFinite (h.1 _ rfl) hne
  exact ⟨fun h => ⟨h, hfinite h⟩, fun h => h.1⟩

/-! ## Marks -/

/-- A written style is found at fault where its opacity and its border width are. -/
theorem Style.locations_violations {s : Style} (hwidth : s.borderWidth ≠ some (.infinite false))
    (here : Location) :
    Violation.locations (Registry.chart.violations format.shape.json here s.json) =
      Violation.locations
        (Registry.located (here ++ [.key "opacity"]) (opacityFaults s.opacity) ++
          Registry.located (here ++ [.key "borderWidth"]) (widthFaults s.borderWidth)) := by
  have hfields : Registry.chart.violations format.shape.json here s.json =
      (Field.optional "opacity" (.number _ _ Shape.unit_ordered) : Field .chart _).violations here
          s.opacity ++
        (Field.optional "borderWidth" (.number (some Shape.zeroBound) none trivial) :
          Field .chart _).violations here s.borderWidth := by
    refine (Format.violations_row (by decide) _ here
      (s.color, s.opacity, s.borderColor, s.borderWidth, ())).trans ?_
    refine (Fields.violations_cons_of_free (.optional .text) _ here _).trans ?_
    refine congrArg (_ ++ ·) ?_
    refine (Fields.violations_cons_of_free (.optional .text) _ here _).trans ?_
    exact List.append_nil _
  rw [hfields, Violation.locations_append, Violation.locations_append,
    locations_numberField "opacity" _ _ Shape.unit_ordered here s.opacity
      (length_opacityFaults_le _) opacityFaults_eq_nil_iff_finite,
    locations_numberField "borderWidth" (some Shape.zeroBound) none trivial here s.borderWidth
      (length_widthFaults_le _) (widthFaults_eq_nil_iff_finite hwidth)]

/-- A written mark is found at fault where the mark is. -/
theorem Mark.locations_violations {m : Mark}
    (hwidth : ∀ s, m.style = some s → s.borderWidth ≠ some (.infinite false)) (position : Nat) :
    Violation.locations (Registry.chart.violations format.shape.json
        [.key "marks", .index position] m.json) =
      Violation.locations (m.violations position) := by
  have hfields : Registry.chart.violations format.shape.json [.key "marks", .index position]
      m.json =
      (Field.optional "style" (.named "Style" Style.format rfl rfl) : Field .chart _).violations
        [.key "marks", .index position] m.style := by
    refine (Format.violations_row (by decide) _ _ (m.id, m.datasetId, m.geometry,
      m.coordinateSystem, m.encode, m.style, m.stack, m.smooth, m.name, ())).trans ?_
    refine (Fields.violations_cons_of_free (.required .text) _ _ _).trans ?_
    refine (Fields.violations_cons_of_free (.required .text) _ _ _).trans ?_
    refine (Fields.violations_cons_of_free (.required (.named .word)) _ _ _).trans ?_
    refine (Fields.violations_cons_of_free (.optional (.named .word)) _ _ _).trans ?_
    refine (Fields.violations_cons_of_free (.required (.named Encoding.free)) _ _ _).trans ?_
    have hrest : Fields.Free (r := .chart) (.cons (.optional "stack" .text)
        (.cons (.optional "smooth" .boolean) (.cons (.optional "name" .text) .nil))) :=
      .cons (.optional .text) (.cons (.optional .boolean) (.cons (.optional .text) .nil))
    exact Fields.violations_cons_sound (hrest _).1 (hrest _).2 _
  rw [hfields]
  unfold Mark.violations
  cases hstyle : m.style with
  | none => rfl
  | some s =>
    have hnamed := Registry.violations_reference Style.format.shape rfl (Registry.chart_get? "Style")
      [.key "marks", .index position, .key "style"] s.json
    show Violation.locations (Registry.chart.violations (Shape.reference "Style").json
      [.key "marks", .index position, .key "style"] s.json) = _
    rw [hnamed]
    exact Style.locations_violations (hwidth s hstyle) _

/-! ## Documents -/

theorem length_lengthFaults_one {n : Nat} : Demand.lengthFaults (some 1) n = [] ↔ n ≠ 0 := by
  unfold Demand.lengthFaults
  simp only []
  split
  · simp
    omega
  · simp
    omega

/-- A written list that must have an item is found at fault as a whole when it is empty, and
    where its items are. -/
theorem locations_listField {α : Type} (key : String) (item : Format .chart α)
    (fits : ∀ n ∈ (some 1 : Option Nat), Json.Fits n) (fault : Fault) (xs : List α) :
    Violation.locations
        ((Field.required key (.list item (some 1) fits) : Field .chart _).violations [] xs) =
      Violation.locations (Registry.located [.key key] (if xs.isEmpty then [fault] else [])) ++
        xs.zipIdx.flatMap fun e => Violation.locations
          (Registry.chart.violations item.shape.json [.key key, .index e.2] (item.write e.1)) := by
  have hlist : (Field.required key (.list item (some 1) fits) :
      Field .chart _).violations [] xs =
      Registry.located [.key key] (Demand.lengthFaults (some 1) xs.length) ++
        xs.zipIdx.flatMap fun e =>
          Registry.chart.violations item.shape.json [.key key, .index e.2] (item.write e.1) :=
    Format.violations_list item fits [.key key] xs
  have hlength : (if xs.isEmpty then [fault] else []).length ≤ 1 := by
    split <;> simp
  have hnil : Demand.lengthFaults (some 1) xs.length = [] ↔
      (if xs.isEmpty then [fault] else []) = [] := by
    rw [length_lengthFaults_one]
    cases xs <;> simp
  rw [hlist, Violation.locations_append, Violation.locations_flatMap,
    Violation.locations_located_eq (length_lengthFaults_le _ _) hlength hnil]

namespace Document

/-- A written document is found at fault where the document is, in the same order. -/
theorem locations_violations {d : Document}
    (widths : ∀ m ∈ d.marks, ∀ s, m.style = some s → s.borderWidth ≠ some (.infinite false))
    (ends : ∀ axes, d.axes = some axes → ∀ a ∈ axes, a.AllFinite) :
    Violation.locations (Registry.chart.check chartRoot d.json) =
      Violation.locations d.violations := by
  have hfields : Registry.chart.check chartRoot d.json =
      (Field.required "datasets" (.list (.named "Dataset" Dataset.format rfl rfl) (some 1)
          (by decide)) : Field .chart _).violations [] d.datasets ++
        (Field.required "marks" (.list (.named "Mark" Mark.format rfl rfl) (some 1)
          (by decide)) : Field .chart _).violations [] d.marks := by
    have hget : Registry.chart.get? chartRoot = some format.shape.json :=
      Registry.chart_get? chartRoot
    rw [Registry.check, hget]
    refine (Format.violations_row (by decide) _ []
      (d.title, d.datasets, d.marks, d.axes, d.legend, d.tooltip, d.grid, ())).trans ?_
    refine (Fields.violations_cons_of_free (.optional .text) _ _ _).trans ?_
    refine congrArg (_ ++ ·) ?_
    refine Fields.violations_cons_sound ?_ ?_ []
    · exact ⟨fun axes h =>
          ⟨fun n hn => absurd hn (Option.some_ne_none n).symm, fun a _ => a.sound⟩,
        fun l _ => (Legend.free l).1, fun t _ => (Tooltip.free t).1, fun g _ => (Grid.free g).1,
        trivial⟩
    · exact ⟨fun axes h a ha => a.finite_iff.mpr (ends axes h a ha), fun l _ => (Legend.free l).2,
        fun t _ => (Tooltip.free t).2, fun g _ => (Grid.free g).2, trivial⟩
  -- No dataset is found at fault, so a list of them is only when it is empty.
  have hdatasets : (d.datasets.zipIdx.flatMap fun e => Violation.locations
      (Registry.chart.violations (Shape.reference "Dataset").json
        [.key "datasets", .index e.2] e.1.json)) = [] := by
    refine List.flatMap_eq_nil_iff.mpr fun e _ => ?_
    have hnamed := Registry.violations_reference Dataset.format.shape rfl
      (Registry.chart_get? "Dataset") [.key "datasets", .index e.2] e.1.json
    have hclean := Format.violations_write_eq_nil (Dataset.free e.1).1 (Dataset.free e.1).2
      [.key "datasets", .index e.2]
    exact congrArg Violation.locations (hnamed.trans hclean)
  have hmarks : (d.marks.zipIdx.flatMap fun e => Violation.locations
      (Registry.chart.violations (Shape.reference "Mark").json
        [.key "marks", .index e.2] e.1.json)) =
      d.marks.zipIdx.flatMap fun e => Violation.locations (e.1.violations e.2) := by
    refine List.flatMap_congr fun e he => ?_
    have hnamed := Registry.violations_reference Mark.format.shape rfl
      (Registry.chart_get? "Mark") [.key "marks", .index e.2] e.1.json
    have hmem : e.1 ∈ d.marks := List.fst_mem_of_mem_zipIdx he
    exact (congrArg Violation.locations hnamed).trans
      (Mark.locations_violations (widths e.1 hmem) e.2)
  have hlists (fits : ∀ n ∈ (some 1 : Option Nat), Json.Fits n) :=
    congrArg₂ (· ++ ·)
      ((locations_listField "datasets" (.named "Dataset" Dataset.format rfl rfl) fits .noDatasets
        d.datasets).trans (congrArg (_ ++ ·) hdatasets))
      ((locations_listField "marks" (.named "Mark" Mark.format rfl rfl) fits .noMarks
        d.marks).trans (congrArg (_ ++ ·) hmarks))
  rw [hfields, Violation.locations_append]
  refine (hlists (by decide)).trans ?_
  unfold violations
  rw [Violation.locations_append, Violation.locations_append, Violation.locations_flatMap,
    List.append_nil, List.append_assoc]

/-- The paths for which a document is refused, none if it is not. -/
def refusedPaths (d : Document) : List String :=
  match d.validate with
  | .ok _ => []
  | .error refusal => refusal.paths

theorem refusedPaths_eq (d : Document) :
    d.refusedPaths = (Violation.locations d.violations).map Location.path := by
  unfold refusedPaths validate
  cases d.violations with
  | nil => rfl
  | cons x xs =>
    show ((x :: xs).map Violation.issue).map Issue.path = _
    rw [List.map_map, Violation.locations, List.map_map]
    rfl

/-- The walk of a written document and the check of the document report the same paths in the
    same order, unless a border width is plus infinity or an end of an axis is not finite. -/
theorem check_json_paths (d : Document)
    (widths : ∀ m ∈ d.marks, ∀ s, m.style = some s → s.borderWidth ≠ some (.infinite false))
    (ends : ∀ axes, d.axes = some axes → ∀ a ∈ axes, a.AllFinite) :
    (Registry.chart.check chartRoot d.json).map (fun x => x.issue.path) = d.refusedPaths := by
  have hlocations := locations_violations widths ends
  have hpaths : (Registry.chart.check chartRoot d.json).map (fun x => x.issue.path) =
      (Violation.locations (Registry.chart.check chartRoot d.json)).map Location.path := by
    rw [Violation.locations, List.map_map]
    rfl
  rw [hpaths, hlocations, refusedPaths_eq]

/-- A document without datasets whose styles leave their ranges on all sides. -/
def strainedDocument : Document where
  title := none
  datasets := []
  marks :=
    [{ Mark.bare "m" "d" .bar with
        style := some { Style.empty with opacity := some .nan, borderWidth := some .nan } },
     .bare "n" "d" .line,
     { Mark.bare "o" "d" .area with
        style := some { Style.empty with
          opacity := some (.infinite false), borderWidth := some (.infinite true) } },
     { Mark.bare "p" "d" .pie with
        style := some { Style.empty with
          opacity := some (.finite (.zero true)),
          borderWidth := some (.finite ⟨true, 0x3FF8000000000000, by decide⟩) } }]
  axes := some [⟨"y", .value, .left, none, some (.finite (.zero true)), none⟩]
  legend := none
  tooltip := none
  grid := none

theorem check_strainedDocument :
    (Registry.chart.check chartRoot strainedDocument.json).map (fun x => x.issue.path) =
      ["datasets", "marks[0].style.opacity", "marks[0].style.borderWidth",
       "marks[2].style.opacity", "marks[2].style.borderWidth", "marks[3].style.borderWidth"] := by
  have hwidths : ∀ m ∈ strainedDocument.marks, ∀ s, m.style = some s →
      s.borderWidth ≠ some (.infinite false) := by
    intro m hm s hs hwidth
    simp only [strainedDocument, List.mem_cons, List.not_mem_nil, or_false] at hm
    rcases hm with rfl | rfl | rfl | rfl <;> cases hs <;> cases hwidth
  have hends : ∀ axes, strainedDocument.axes = some axes → ∀ a ∈ axes, a.AllFinite := by
    rintro _ ⟨⟩ a ha
    rw [List.mem_singleton.mp ha]
    refine ⟨?_, nofun⟩
    rintro _ ⟨⟩
    rfl
  have hpaths := check_json_paths strainedDocument hwidths hends
  rw [hpaths]
  decide +kernel

end Document

end ChartDoc
