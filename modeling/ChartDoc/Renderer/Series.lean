/-
  Series: what marks become in a renderer configuration. An area is a line with a filled area.
  An empty text counts as absent everywhere here, and each geometry takes only the parts of a
  mark that it knows: lines and areas are smooth, bars are stacked, scatters are sized.

  A mark whose dataset does not exist is drawn from the first dataset.
-/
import ChartDoc.Document.Basic
import ChartDoc.Renderer.SymbolSizer

namespace ChartDoc

namespace Renderer

/-- The types of series that renderers know. -/
inductive SeriesType where
  | line
  | bar
  | pie
  | scatter
deriving DecidableEq

instance : Vocabulary SeriesType where
  all := [.line, .bar, .pie, .scatter]
  word
    | .line => "line"
    | .bar => "bar"
    | .pie => "pie"
    | .scatter => "scatter"
  mem_all a := by cases a <;> decide
  word_injective a b := by cases a <;> cases b <;> decide

/-- The type of series that draws a geometry. -/
def SeriesType.of : Geometry → SeriesType
  | .line => line
  | .bar => bar
  | .pie => pie
  | .scatter => scatter
  | .area => line

/-! ## Parts of a series -/

/-- The columns that a series reads. -/
structure SeriesEncoding where
  x : Option String
  y : Option String
  value : Option String
  itemName : Option String
deriving DecidableEq

namespace SeriesEncoding

/-- The channels of a mark that a series has; the name channel names the items. -/
def of (e : Encoding) : SeriesEncoding where
  x := nonEmpty? e.x
  y := nonEmpty? e.y
  value := nonEmpty? e.value
  itemName := nonEmpty? e.name

/-- Whether no channel is set. -/
def isEmpty (e : SeriesEncoding) : Bool :=
  e.x.isNone && e.y.isNone && e.value.isNone && e.itemName.isNone

/-- An encoding as JSON. -/
def json (e : SeriesEncoding) : Json :=
  .record
    [Json.whenSome "x" .string e.x, Json.whenSome "y" .string e.y,
     Json.whenSome "value" .string e.value, Json.whenSome "itemName" .string e.itemName]

end SeriesEncoding

/-- The style of a line. -/
structure LineStyle where
  color : Option String
  opacity : Option Binary64
deriving BEq

namespace LineStyle

/-- The line style in the style of a mark. -/
def of (s : Style) : LineStyle :=
  ⟨nonEmpty? s.color, s.opacity⟩

/-- A line style as JSON. -/
def json (s : LineStyle) : Json :=
  .record [Json.whenSome "color" .string s.color, Json.whenSome "opacity" .ofBinary64 s.opacity]

end LineStyle

/-- The style of the items of a series. -/
structure ItemStyle where
  color : Option String
  opacity : Option Binary64
  borderColor : Option String
  borderWidth : Option Binary64
deriving BEq

namespace ItemStyle

/-- The item style in the style of a mark. -/
def of (s : Style) : ItemStyle :=
  ⟨nonEmpty? s.color, s.opacity, nonEmpty? s.borderColor, s.borderWidth⟩

/-- An item style as JSON. -/
def json (s : ItemStyle) : Json :=
  .record
    [Json.whenSome "color" .string s.color, Json.whenSome "opacity" .ofBinary64 s.opacity,
     Json.whenSome "borderColor" .string s.borderColor,
     Json.whenSome "borderWidth" .ofBinary64 s.borderWidth]

end ItemStyle

/-- The style of a filled area. -/
structure AreaStyle where
  opacity : Option Binary64
deriving BEq

namespace AreaStyle

/-- The area style of a mark: without a style nothing is set, and a style that sets no opacity
    has the given one. -/
def of (opacity : Binary64) (style : Option Style) : AreaStyle :=
  ⟨style.map fun s => s.opacity.getD opacity⟩

/-- An area style as JSON. -/
def json (s : AreaStyle) : Json :=
  .record [Json.whenSome "opacity" .ofBinary64 s.opacity]

end AreaStyle

/-! ## Series -/

/-- A series of a renderer configuration. -/
structure Series where
  type : SeriesType
  name : String
  /-- The position of the table that the series is drawn from. -/
  datasetIndex : Nat
  encode : Option SeriesEncoding
  smooth : Option Bool
  stack : Option String
  lineStyle : Option LineStyle
  itemStyle : Option ItemStyle
  areaStyle : Option AreaStyle
  /-- The sizer of the symbols; it has no JSON form. -/
  symbolSize : Option SymbolSizer
deriving BEq

/-- What a compiler adds to series. -/
structure SeriesDefaults where
  /-- The opacity of an area whose style sets none. -/
  areaOpacity : Binary64
  /-- The sizer of scatters with a size channel. -/
  sizer : SymbolSizer

/-- The position of the first dataset with an identifier. -/
def datasetIndex? (id : String) (datasets : List Dataset) : Option Nat :=
  datasets.findIdx? fun d => d.id == id

namespace Series

/-- The series of a mark without anything that depends on the geometry but its type. -/
def base (m : Mark) (datasets : List Dataset) : Series where
  type := .of m.geometry
  name := m.displayName
  datasetIndex := (datasetIndex? m.datasetId datasets).getD 0
  encode := if (SeriesEncoding.of m.encode).isEmpty then none else some (.of m.encode)
  smooth := none
  stack := none
  lineStyle := none
  itemStyle := none
  areaStyle := none
  symbolSize := none

/-- The smoothness of a series: only what is smooth says so. -/
def smoothness (m : Mark) : Option Bool :=
  if m.smooth = some true then some true else none

/-- The series of a mark. -/
def of (defaults : SeriesDefaults) (datasets : List Dataset) (m : Mark) : Series :=
  let series := { base m datasets with itemStyle := m.style.map ItemStyle.of }
  match m.geometry with
  | .line => { series with smooth := smoothness m, lineStyle := m.style.map LineStyle.of }
  | .area =>
    { series with
      smooth := smoothness m
      lineStyle := m.style.map LineStyle.of
      areaStyle := some (.of defaults.areaOpacity m.style) }
  | .bar => { series with stack := nonEmpty? m.stack }
  | .pie => series
  | .scatter =>
    { series with
      symbolSize := if (nonEmpty? m.encode.size).isSome then some defaults.sizer else none }

/-- A series as JSON. -/
def json (s : Series) : Json :=
  .record
    [Json.always "type" (Vocabulary.json s.type), Json.always "name" (.string s.name),
     Json.always "datasetIndex" (.ofNat s.datasetIndex),
     Json.whenSome "encode" SeriesEncoding.json s.encode,
     Json.whenSome "smooth" .bool s.smooth, Json.whenSome "stack" .string s.stack,
     Json.whenSome "lineStyle" LineStyle.json s.lineStyle,
     Json.whenSome "itemStyle" ItemStyle.json s.itemStyle,
     Json.whenSome "areaStyle" AreaStyle.json s.areaStyle]

end Series

end Renderer

end ChartDoc
