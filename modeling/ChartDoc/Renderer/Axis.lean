/-
  The axes of a renderer configuration. The axes of a document are split by orientation, and
  each half keeps its order. A half with a single axis is that axis, not a list of one.
-/
import ChartDoc.Document.Basic

namespace ChartDoc

namespace Renderer

/-- A single value, or a list. -/
inductive OneOrMany (α : Type) where
  | one (value : α)
  | many (values : List α)
deriving BEq

namespace OneOrMany

variable {α : Type}

/-- A list in its shortest form: nothing for no value, the value itself for one. -/
def ofList? : List α → Option (OneOrMany α)
  | [] => none
  | [value] => some (one value)
  | values => some (many values)

/-- The values in order. -/
def toList : OneOrMany α → List α
  | one value => [value]
  | many values => values

/-- The number of values. -/
def length (v : OneOrMany α) : Nat :=
  v.toList.length

/-- Whether there are no values. -/
def isEmpty (v : OneOrMany α) : Bool :=
  v.toList.isEmpty

/-- The values as JSON: a bare value, or an array. -/
def json (encode : α → Json) : OneOrMany α → Json
  | one value => encode value
  | many values => .list encode values

/-- The shortest form of a list holds the list. -/
theorem toList_ofList? (values : List α) :
    ((ofList? values).map toList).getD [] = values := by
  match values with
  | [] => rfl
  | [_] => rfl
  | _ :: _ :: _ => rfl

end OneOrMany

/-- An axis of a renderer configuration. Where it sits is said by the half it belongs to. -/
structure Axis where
  type : AxisType
  name : Option String
  min : Option Binary64
  max : Option Binary64
deriving BEq

namespace Axis

/-- The axis for an axis of a document; an empty title counts as absent. -/
def of (a : ChartDoc.Axis) : Axis :=
  ⟨a.type, nonEmpty? a.name, a.min, a.max⟩

/-- An axis as JSON. -/
def json (a : Axis) : Json :=
  .record
    [Json.always "type" (Vocabulary.json a.type), Json.whenSome "name" .string a.name,
     Json.whenSome "min" .ofBinary64 a.min, Json.whenSome "max" .ofBinary64 a.max]

end Axis

/-- The two halves of the axes. -/
structure Axes where
  x : Option (OneOrMany Axis)
  y : Option (OneOrMany Axis)
deriving BEq

namespace Axes

/-- The half of the axes with an orientation. -/
def half (o : Orientation) (axes : List ChartDoc.Axis) : Option (OneOrMany Axis) :=
  OneOrMany.ofList? ((axes.filter (ChartDoc.Axis.isOriented o)).map Axis.of)

/-- The axes of a document, split by orientation. -/
def of (axes : List ChartDoc.Axis) : Axes :=
  ⟨half .horizontal axes, half .vertical axes⟩

end Axes

end Renderer

end ChartDoc
