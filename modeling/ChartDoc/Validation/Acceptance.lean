/-
  Accepting chart documents. A value is accepted when the walk along the chart definitions
  finds no violation, the value describes a document, and the document itself is sound. The
  last check also serves documents that were built otherwise.
-/
import ChartDoc.Json.Reader
import ChartDoc.Schema.Chart
import ChartDoc.Validation.Walk

namespace ChartDoc

/-- The faults of an opacity: it lies between 0 and 1. -/
def opacityFaults (opacity : Option Binary64) : List Fault :=
  match opacity with
  | some x => if 0 ≤ x ∧ x ≤ 1 then [] else [.opacityOutOfRange x]
  | none => []

/-- The faults of a border width: it is not below 0. -/
def widthFaults (width : Option Binary64) : List Fault :=
  match width with
  | some x => if x.isNaN || decide (x < 0) then [.negativeWidth x] else []
  | none => []

/-- The violations in the style of a mark at a position. -/
def Mark.violations (m : Mark) (position : Nat) : List Violation :=
  match m.style with
  | some style =>
    let here : Location := [.key "marks", .index position, .key "style"]
    Registry.located (here ++ [.key "opacity"]) (opacityFaults style.opacity) ++
      Registry.located (here ++ [.key "borderWidth"]) (widthFaults style.borderWidth)
  | none => []

namespace Document

/-- The violations of a document: a document has datasets and marks, and the styles of its
    marks are within their ranges. -/
def violations (d : Document) : List Violation :=
  Registry.located [.key "datasets"] (if d.datasets.isEmpty then [.noDatasets] else []) ++
    Registry.located [.key "marks"] (if d.marks.isEmpty then [.noMarks] else []) ++
    d.marks.zipIdx.flatMap fun entry => entry.1.violations entry.2

/-- Refuses a document for its violations. -/
def validate (d : Document) : Except Refusal Unit :=
  match d.violations with
  | [] => .ok ()
  | vs => .error (.ofViolations vs)

/-- The refusal of a text that is not JSON. -/
def malformed : Refusal :=
  .ofViolations [⟨[], .malformedText⟩]

/-- The document that a value describes, if the value is acceptable. A value without
    violations always describes a document, so the middle case does not arise. -/
def ofValue (v : Json) : Except Refusal Document :=
  match Registry.chart.check chartRoot v with
  | [] =>
    match ofJson? v with
    | none => .error malformed
    | some d => d.validate.map fun _ => d
  | vs => .error (.ofViolations vs)

/-- The document that a JSON text describes. -/
def ofText (text : String) : Except Refusal Document :=
  match Json.ofText? text with
  | some v => ofValue v
  | none => .error malformed

/-- The document that a JSON text in UTF-8 describes. -/
def ofBytes (bytes : List UInt8) : Except Refusal Document :=
  match Json.ofBytes? bytes with
  | some v => ofValue v
  | none => .error malformed

end Document

end ChartDoc
