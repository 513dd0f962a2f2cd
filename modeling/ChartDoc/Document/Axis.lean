/-
  Axes. Where an axis sits decides its orientation: bottom and top axes are horizontal, left
  and right ones vertical.
-/
import ChartDoc.Json.Record
import ChartDoc.Vocabulary

namespace ChartDoc

/-- The scale of an axis. -/
inductive AxisType where
  | category
  | value
  | time
  | log
deriving DecidableEq

instance : Vocabulary AxisType where
  all := [.category, .value, .time, .log]
  word
    | .category => "category"
    | .value => "value"
    | .time => "time"
    | .log => "log"
  mem_all a := by cases a <;> decide
  word_injective a b := by cases a <;> cases b <;> decide

/-- The side of the chart at which an axis sits. -/
inductive AxisPosition where
  | bottom
  | top
  | left
  | right
deriving DecidableEq

instance : Vocabulary AxisPosition where
  all := [.bottom, .top, .left, .right]
  word
    | .bottom => "bottom"
    | .top => "top"
    | .left => "left"
    | .right => "right"
  mem_all a := by cases a <;> decide
  word_injective a b := by cases a <;> cases b <;> decide

/-- The role of an axis. -/
inductive Orientation where
  /-- An x axis. -/
  | horizontal
  /-- A y axis. -/
  | vertical
deriving DecidableEq

instance : Vocabulary Orientation where
  all := [.horizontal, .vertical]
  word
    | .horizontal => "horizontal"
    | .vertical => "vertical"
  mem_all a := by cases a <;> decide
  word_injective a b := by cases a <;> cases b <;> decide

/-- The orientation of an axis at a side. -/
def AxisPosition.orientation : AxisPosition → Orientation
  | bottom => .horizontal
  | top => .horizontal
  | left => .vertical
  | right => .vertical

/-- An axis of a chart. -/
structure Axis where
  id : String
  type : AxisType
  position : AxisPosition
  /-- The title of the axis. -/
  name : Option String
  min : Option Binary64
  max : Option Binary64

namespace Axis

/-- The axis with nothing but what every axis must have. -/
def bare (id : String) (type : AxisType) (position : AxisPosition) : Axis where
  id
  type
  position
  name := none
  min := none
  max := none

/-- Whether an axis has an orientation. -/
def isOriented (o : Orientation) (a : Axis) : Bool :=
  a.position.orientation = o

/-- An axis as JSON. -/
def json (a : Axis) : Json :=
  .record
    [Json.always "id" (.string a.id), Json.always "type" (Vocabulary.json a.type),
     Json.always "position" (Vocabulary.json a.position), Json.whenSome "name" .string a.name,
     Json.whenSome "min" .ofBinary64 a.min, Json.whenSome "max" .ofBinary64 a.max]

/-- The axis that a JSON value describes. -/
def ofJson? (v : Json) : Option Axis := do
  let members ← v.members?
  let id ← Json.required? "id" Json.string? members
  let type ← Json.required? "type" Vocabulary.ofJson? members
  let position ← Json.required? "position" Vocabulary.ofJson? members
  let name ← Json.optional? "name" Json.string? members
  let min ← Json.optional? "min" Json.binary64? members
  let max ← Json.optional? "max" Json.binary64? members
  return { id, type, position, name, min, max }

end Axis

end ChartDoc
