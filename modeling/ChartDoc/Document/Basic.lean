/-
  Chart documents: the datasets, the marks drawn from them, and optionally a title, axes and
  the furniture. A document is what authors write; `Renderer.Config` is what it compiles to.
-/
import ChartDoc.Document.Axis
import ChartDoc.Document.Dataset
import ChartDoc.Document.Furniture
import ChartDoc.Document.Mark

namespace ChartDoc

/-- A chart document. -/
structure Document where
  title : Option String
  datasets : List Dataset
  marks : List Mark
  /-- Charts without axes, such as pies, leave them out. -/
  axes : Option (List Axis)
  legend : Option Legend
  tooltip : Option Tooltip
  grid : Option Grid

namespace Document

/-- A document as JSON. -/
def json (d : Document) : Json :=
  .record
    [Json.whenSome "title" .string d.title, Json.always "datasets" (.list Dataset.json d.datasets),
     Json.always "marks" (.list Mark.json d.marks), Json.whenSome "axes" (.list Axis.json) d.axes,
     Json.whenSome "legend" Legend.json d.legend, Json.whenSome "tooltip" Tooltip.json d.tooltip,
     Json.whenSome "grid" Grid.json d.grid]

/-- The document that a JSON value describes, by its form alone. -/
def ofJson? (v : Json) : Option Document := do
  let members ← v.members?
  let title ← Json.optional? "title" Json.string? members
  let datasets ← Json.required? "datasets" (Json.list? Dataset.ofJson?) members
  let marks ← Json.required? "marks" (Json.list? Mark.ofJson?) members
  let axes ← Json.optional? "axes" (Json.list? Axis.ofJson?) members
  let legend ← Json.optional? "legend" Legend.ofJson? members
  let tooltip ← Json.optional? "tooltip" Tooltip.ofJson? members
  let grid ← Json.optional? "grid" Grid.ofJson? members
  return { title, datasets, marks, axes, legend, tooltip, grid }

end Document

end ChartDoc
