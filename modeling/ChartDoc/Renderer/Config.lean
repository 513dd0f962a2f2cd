/-
  Renderer configurations: what a chart compiles to. A block that is absent has no key in the
  JSON form. Two configurations are equal when all their blocks are; sizers, which have no JSON
  form, are compared as well.
-/
import ChartDoc.Renderer.Axis
import ChartDoc.Renderer.Furniture
import ChartDoc.Renderer.Series

namespace ChartDoc

namespace Renderer

/-- The title of a renderer configuration. -/
structure Title where
  text : String
deriving DecidableEq

/-- A title as JSON. -/
def Title.json (t : Title) : Json :=
  .record [Json.always "text" (.string t.text)]

/-- A renderer configuration. -/
structure Config where
  title : Option Title
  dataset : Option (List Table)
  series : Option (List Series)
  xAxis : Option (OneOrMany Axis)
  yAxis : Option (OneOrMany Axis)
  legend : Option Legend
  tooltip : Option Tooltip
  grid : Option Grid
deriving BEq

/-- A configuration as JSON. -/
def Config.json (c : Config) : Json :=
  .record
    [Json.whenSome "title" Title.json c.title, Json.whenSome "dataset" (.list Table.json) c.dataset,
     Json.whenSome "series" (.list Series.json) c.series,
     Json.whenSome "xAxis" (OneOrMany.json Axis.json) c.xAxis,
     Json.whenSome "yAxis" (OneOrMany.json Axis.json) c.yAxis,
     Json.whenSome "legend" Legend.json c.legend, Json.whenSome "tooltip" Tooltip.json c.tooltip,
     Json.whenSome "grid" Grid.json c.grid]

end Renderer

end ChartDoc
