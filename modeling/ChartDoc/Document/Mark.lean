/-
  Marks: the visual series of a chart. A mark has one form whatever its geometry is; which of
  its parts matter to which geometry is the renderer configuration's concern.
-/
import ChartDoc.Json.Record
import ChartDoc.Vocabulary

namespace ChartDoc

/-- The shape in which a mark is drawn. -/
inductive Geometry where
  | line
  | bar
  | pie
  | scatter
  | area
deriving DecidableEq

instance : Vocabulary Geometry where
  all := [.line, .bar, .pie, .scatter, .area]
  word
    | .line => "line"
    | .bar => "bar"
    | .pie => "pie"
    | .scatter => "scatter"
    | .area => "area"
  mem_all a := by cases a <;> decide
  word_injective a b := by cases a <;> cases b <;> decide

/-- The coordinates that a mark declares. -/
inductive CoordinateSystem where
  | cartesian2d
  | polar
  | radial
deriving DecidableEq

instance : Vocabulary CoordinateSystem where
  all := [.cartesian2d, .polar, .radial]
  word
    | .cartesian2d => "cartesian2d"
    | .polar => "polar"
    | .radial => "radial"
  mem_all a := by cases a <;> decide
  word_injective a b := by cases a <;> cases b <;> decide

/-- The column that each visual channel reads. -/
structure Encoding where
  x : Option String
  y : Option String
  value : Option String
  name : Option String
  size : Option String
  color : Option String
deriving DecidableEq

/-- Styling that does not depend on the geometry. -/
structure Style where
  color : Option String
  /-- From 0 to 1. -/
  opacity : Option Binary64
  borderColor : Option String
  /-- In pixels, not below 0. -/
  borderWidth : Option Binary64

/-- A visual series: a geometry drawn from one dataset through an encoding. -/
structure Mark where
  id : String
  /-- The identifier of the dataset. -/
  datasetId : String
  geometry : Geometry
  coordinateSystem : Option CoordinateSystem
  encode : Encoding
  style : Option Style
  /-- Marks with the same text here are stacked on each other. -/
  stack : Option String
  smooth : Option Bool
  /-- The label in legends and tooltips. -/
  name : Option String

/-- A text that is present and not empty. -/
def nonEmpty? (text : Option String) : Option String :=
  text.filter (· ≠ "")

namespace Encoding

/-- The encoding without any channel. -/
def empty : Encoding :=
  ⟨none, none, none, none, none, none⟩

/-- An encoding as JSON. -/
def json (e : Encoding) : Json :=
  .record
    [Json.whenSome "x" .string e.x, Json.whenSome "y" .string e.y,
     Json.whenSome "value" .string e.value, Json.whenSome "name" .string e.name,
     Json.whenSome "size" .string e.size, Json.whenSome "color" .string e.color]

/-- The encoding that a JSON value describes. -/
def ofJson? (v : Json) : Option Encoding := do
  let members ← v.members?
  let x ← Json.optional? "x" Json.string? members
  let y ← Json.optional? "y" Json.string? members
  let value ← Json.optional? "value" Json.string? members
  let name ← Json.optional? "name" Json.string? members
  let size ← Json.optional? "size" Json.string? members
  let color ← Json.optional? "color" Json.string? members
  return { x, y, value, name, size, color }

end Encoding

namespace Style

/-- The style that sets nothing. -/
def empty : Style :=
  ⟨none, none, none, none⟩

/-- A style as JSON. -/
def json (s : Style) : Json :=
  .record
    [Json.whenSome "color" .string s.color, Json.whenSome "opacity" .ofBinary64 s.opacity,
     Json.whenSome "borderColor" .string s.borderColor,
     Json.whenSome "borderWidth" .ofBinary64 s.borderWidth]

/-- The style that a JSON value describes. -/
def ofJson? (v : Json) : Option Style := do
  let members ← v.members?
  let color ← Json.optional? "color" Json.string? members
  let opacity ← Json.optional? "opacity" Json.binary64? members
  let borderColor ← Json.optional? "borderColor" Json.string? members
  let borderWidth ← Json.optional? "borderWidth" Json.binary64? members
  return { color, opacity, borderColor, borderWidth }

end Style

namespace Mark

/-- The mark with nothing but what every mark must have. -/
def bare (id datasetId : String) (geometry : Geometry) : Mark where
  id
  datasetId
  geometry
  coordinateSystem := none
  encode := .empty
  style := none
  stack := none
  smooth := none
  name := none

/-- The label of a mark: its name, or its identifier if the name is absent or empty. -/
def displayName (m : Mark) : String :=
  (nonEmpty? m.name).getD m.id

/-- A mark as JSON. -/
def json (m : Mark) : Json :=
  .record
    [Json.always "id" (.string m.id), Json.always "datasetId" (.string m.datasetId),
     Json.always "geometry" (Vocabulary.json m.geometry),
     Json.whenSome "coordinateSystem" Vocabulary.json m.coordinateSystem,
     Json.always "encode" m.encode.json, Json.whenSome "style" Style.json m.style,
     Json.whenSome "stack" .string m.stack, Json.whenSome "smooth" .bool m.smooth,
     Json.whenSome "name" .string m.name]

/-- The mark that a JSON value describes. -/
def ofJson? (v : Json) : Option Mark := do
  let members ← v.members?
  let id ← Json.required? "id" Json.string? members
  let datasetId ← Json.required? "datasetId" Json.string? members
  let geometry ← Json.required? "geometry" Vocabulary.ofJson? members
  let coordinateSystem ← Json.optional? "coordinateSystem" Vocabulary.ofJson? members
  let encode ← Json.required? "encode" Encoding.ofJson? members
  let style ← Json.optional? "style" Style.ofJson? members
  let stack ← Json.optional? "stack" Json.string? members
  let smooth ← Json.optional? "smooth" Json.bool? members
  let name ← Json.optional? "name" Json.string? members
  return { id, datasetId, geometry, coordinateSystem, encode, style, stack, smooth, name }

end Mark

end ChartDoc
