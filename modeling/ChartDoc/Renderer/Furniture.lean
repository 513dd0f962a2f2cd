/-
  The furniture of a renderer configuration. A legend always has labels: the author's, or one
  for each mark. Tooltip and grid are copied; in a grid an empty text is a value like others.
-/
import ChartDoc.Document.Basic

namespace ChartDoc

namespace Renderer

/-- The legend of a renderer configuration. -/
structure Legend where
  shown : Option Bool
  top : Option String
  bottom : Option String
  left : Option String
  right : Option String
  orient : Option Orientation
  /-- The labels. -/
  data : List String
deriving DecidableEq

namespace Legend

/-- The direction in which the labels of a legend at a side run. -/
def orientation : LegendPosition → Orientation
  | .top => .horizontal
  | .bottom => .horizontal
  | .left => .vertical
  | .right => .vertical

/-- The anchor at a side: the word of the side, for a legend that sits there. -/
def anchor (side : LegendPosition) (position : Option LegendPosition) : Option String :=
  if position = some side then some (Vocabulary.word side) else none

/-- The labels of a legend: those the author gives, or the labels of the marks. -/
def labels (l : ChartDoc.Legend) (marks : List Mark) : List String :=
  match l.items with
  | some (item :: items) => item :: items
  | _ => marks.map Mark.displayName

/-- The legend for a legend block and the marks of its document. -/
def of (l : ChartDoc.Legend) (marks : List Mark) : Legend where
  shown := l.shown
  top := anchor .top l.position
  bottom := anchor .bottom l.position
  left := anchor .left l.position
  right := anchor .right l.position
  orient := l.position.map orientation
  data := labels l marks

/-- A legend as JSON. -/
def json (l : Legend) : Json :=
  .record
    [Json.whenSome "show" .bool l.shown, Json.whenSome "top" .string l.top,
     Json.whenSome "bottom" .string l.bottom, Json.whenSome "left" .string l.left,
     Json.whenSome "right" .string l.right, Json.whenSome "orient" Vocabulary.json l.orient,
     Json.always "data" (.ofStrings l.data)]

end Legend

/-- The tooltip of a renderer configuration. -/
structure Tooltip where
  shown : Option Bool
  trigger : Option TooltipTrigger
deriving DecidableEq

namespace Tooltip

/-- The tooltip for a tooltip block. -/
def of (t : ChartDoc.Tooltip) : Tooltip :=
  ⟨t.shown, t.trigger⟩

/-- A tooltip as JSON. -/
def json (t : Tooltip) : Json :=
  .record
    [Json.whenSome "show" .bool t.shown, Json.whenSome "trigger" Vocabulary.json t.trigger]

end Tooltip

/-- The grid of a renderer configuration. -/
structure Grid where
  left : Option String
  right : Option String
  top : Option String
  bottom : Option String
  width : Option String
  height : Option String
  containLabel : Option Bool
deriving DecidableEq

namespace Grid

/-- The grid for a grid block. -/
def of (g : ChartDoc.Grid) : Grid :=
  ⟨g.left, g.right, g.top, g.bottom, g.width, g.height, g.containLabel⟩

/-- A grid as JSON. -/
def json (g : Grid) : Json :=
  .record
    [Json.whenSome "left" .string g.left, Json.whenSome "right" .string g.right,
     Json.whenSome "top" .string g.top, Json.whenSome "bottom" .string g.bottom,
     Json.whenSome "width" .string g.width, Json.whenSome "height" .string g.height,
     Json.whenSome "containLabel" .bool g.containLabel]

end Grid

end Renderer

end ChartDoc
