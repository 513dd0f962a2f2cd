/-
  The definitions of chart documents. The words of each enumeration are taken from the type
  itself, so schema and documents cannot disagree about them.
-/
import ChartDoc.Document.Basic
import ChartDoc.Schema.Shape

namespace ChartDoc

namespace Shape

/-- The words of a vocabulary as a shape. -/
def ofVocabulary (α : Type) [Vocabulary α] : Shape :=
  word (Vocabulary.words α)

/-- The whole number zero as a bound. -/
def zeroBound : Json.Number :=
  .whole 0 (by decide)

/-- The whole number one as a bound. -/
def oneBound : Json.Number :=
  .whole 1 (by decide)

end Shape

/-- The shapes of chart documents and of their parts, by name. -/
def chartShapes : List (String × Shape) :=
  [("ChartIR",
      .object "Top-level chart intermediate representation."
        [("title", .text), ("datasets", .list (.reference "Dataset") (some 1)),
         ("marks", .list (.reference "Mark") (some 1)), ("axes", .list (.reference "Axis") none),
         ("legend", .reference "Legend"), ("tooltip", .reference "Tooltip"),
         ("grid", .reference "Grid")]
        ["datasets", "marks"]),
   ("Dataset",
      .object "Tabular data. Values are strings; \"\" is null; column types govern parsing."
        [("id", .text), ("columns", .list (.reference "Column") none),
         ("rows", .list (.list .text none) none)]
        ["id", "columns", "rows"]),
   ("Column",
      .object "A named, typed dataset column."
        [("name", .text), ("type", .reference "ColumnType")] ["name", "type"]),
   ("ColumnType", .ofVocabulary ColumnType),
   ("Mark",
      .object "A visual series: one geometry, one dataset reference, one encoding."
        [("id", .text), ("datasetId", .text), ("geometry", .reference "Geometry"),
         ("coordinateSystem", .reference "CoordinateSystem"), ("encode", .reference "Encode"),
         ("style", .reference "Style"), ("stack", .text), ("smooth", .boolean), ("name", .text)]
        ["id", "datasetId", "geometry", "encode"]),
   ("Geometry", .ofVocabulary Geometry),
   ("CoordinateSystem", .ofVocabulary CoordinateSystem),
   ("Encode",
      .object "Maps dataset columns to visual channels."
        [("x", .text), ("y", .text), ("value", .text), ("name", .text), ("size", .text),
         ("color", .text)]
        []),
   ("Style",
      .object "Flat visual styling."
        [("color", .text), ("opacity", .number (some Shape.zeroBound) (some Shape.oneBound)),
         ("borderColor", .text), ("borderWidth", .number (some Shape.zeroBound) none)]
        []),
   ("Axis",
      .object "A chart axis. Bottom/top axes are x axes, left/right axes are y axes."
        [("id", .text), ("type", .reference "AxisType"), ("position", .reference "AxisPosition"),
         ("name", .text), ("min", .number none none), ("max", .number none none)]
        ["id", "type", "position"]),
   ("AxisType", .ofVocabulary AxisType),
   ("AxisPosition", .ofVocabulary AxisPosition),
   ("Legend",
      .object "Legend configuration. Items default to one label per mark."
        [("show", .boolean), ("position", .reference "LegendPosition"),
         ("items", .list .text none)]
        []),
   ("LegendPosition", .ofVocabulary LegendPosition),
   ("Tooltip",
      .object "Tooltip configuration."
        [("show", .boolean), ("trigger", .reference "TooltipTrigger")] []),
   ("TooltipTrigger", .ofVocabulary TooltipTrigger),
   ("Grid",
      .object "Grid placement. Values are percentage (\"10%\") or pixel (\"50\") literals."
        [("left", .text), ("right", .text), ("top", .text), ("bottom", .text), ("width", .text),
         ("height", .text), ("containLabel", .boolean)]
        [])]

/-- The name of the definition of whole documents. -/
def chartRoot : String := "ChartIR"

namespace Registry

/-- The registry with the definitions of chart documents. -/
def chart : Registry :=
  empty.registerAll (Shape.propertyJsons chartShapes)

end Registry

end ChartDoc
