/-
  The furniture of a chart, around the marks and axes: legend, tooltip and grid. Every part of
  these blocks may be absent.
-/
import ChartDoc.Json.Record
import ChartDoc.Vocabulary

namespace ChartDoc

/-- The side of the chart at which the legend sits. -/
inductive LegendPosition where
  | top
  | bottom
  | left
  | right
deriving DecidableEq

instance : Vocabulary LegendPosition where
  all := [.top, .bottom, .left, .right]
  word
    | .top => "top"
    | .bottom => "bottom"
    | .left => "left"
    | .right => "right"
  mem_all a := by cases a <;> decide
  word_injective a b := by cases a <;> cases b <;> decide

/-- What makes a tooltip appear. -/
inductive TooltipTrigger where
  | item
  | axis
  | none
deriving DecidableEq

instance : Vocabulary TooltipTrigger where
  all := [.item, .axis, .none]
  word
    | .item => "item"
    | .axis => "axis"
    | .none => "none"
  mem_all a := by cases a <;> decide
  word_injective a b := by cases a <;> cases b <;> decide

/-- The legend block. -/
structure Legend where
  shown : Option Bool
  position : Option LegendPosition
  /-- The labels, if the author gives them. -/
  items : Option (List String)
deriving DecidableEq

/-- The tooltip block. -/
structure Tooltip where
  shown : Option Bool
  trigger : Option TooltipTrigger
deriving DecidableEq

/-- The placement of the drawing area. The texts are lengths such as `10%` or `50`; they are
    not examined. -/
structure Grid where
  left : Option String
  right : Option String
  top : Option String
  bottom : Option String
  width : Option String
  height : Option String
  containLabel : Option Bool
deriving DecidableEq

namespace Legend

/-- A legend as JSON. -/
def json (l : Legend) : Json :=
  .record
    [Json.whenSome "show" .bool l.shown, Json.whenSome "position" Vocabulary.json l.position,
     Json.whenSome "items" .ofStrings l.items]

/-- The legend that a JSON value describes. -/
def ofJson? (v : Json) : Option Legend := do
  let members ← v.members?
  let shown ← Json.optional? "show" Json.bool? members
  let position ← Json.optional? "position" Vocabulary.ofJson? members
  let items ← Json.optional? "items" (Json.list? Json.string?) members
  return { shown, position, items }

end Legend

namespace Tooltip

/-- A tooltip as JSON. -/
def json (t : Tooltip) : Json :=
  .record [Json.whenSome "show" .bool t.shown, Json.whenSome "trigger" Vocabulary.json t.trigger]

/-- The tooltip that a JSON value describes. -/
def ofJson? (v : Json) : Option Tooltip := do
  let members ← v.members?
  let shown ← Json.optional? "show" Json.bool? members
  let trigger ← Json.optional? "trigger" Vocabulary.ofJson? members
  return { shown, trigger }

end Tooltip

namespace Grid

/-- A grid as JSON. -/
def json (g : Grid) : Json :=
  .record
    [Json.whenSome "left" .string g.left, Json.whenSome "right" .string g.right,
     Json.whenSome "top" .string g.top, Json.whenSome "bottom" .string g.bottom,
     Json.whenSome "width" .string g.width, Json.whenSome "height" .string g.height,
     Json.whenSome "containLabel" .bool g.containLabel]

/-- The grid that a JSON value describes. -/
def ofJson? (v : Json) : Option Grid := do
  let members ← v.members?
  let left ← Json.optional? "left" Json.string? members
  let right ← Json.optional? "right" Json.string? members
  let top ← Json.optional? "top" Json.string? members
  let bottom ← Json.optional? "bottom" Json.string? members
  let width ← Json.optional? "width" Json.string? members
  let height ← Json.optional? "height" Json.string? members
  let containLabel ← Json.optional? "containLabel" Json.bool? members
  return { left, right, top, bottom, width, height, containLabel }

end Grid

end ChartDoc
