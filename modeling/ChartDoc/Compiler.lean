/-
  Compiling chart documents into renderer configurations. Compiling never fails: a mark whose
  dataset does not exist is drawn from the first dataset, and a diagnostic says so.
-/
import ChartDoc.Renderer.Config

namespace ChartDoc

/-- The settings of a compiler. -/
structure Settings where
  /-- The opacity of an area whose style sets none. -/
  areaOpacity : Binary64
  /-- The scale of the standard sizer. -/
  symbolScale : Binary64
  /-- The position of the cell that the standard sizer reads. -/
  symbolDimension : Nat
deriving BEq

namespace Settings

/-- The settings that are used unless others are given. -/
def standard : Settings where
  areaOpacity := 0.7
  symbolScale := 2
  symbolDimension := 2

/-- A setting that is given or has its standard value. A given one may not be null. -/
def setting? {α : Type} (decode : Json → Option α) (standard : α) (given : Option Json) :
    Option α :=
  match given with
  | some v => decode v
  | none => some standard

/-- The settings for values that may be missing. -/
def ofValues? (opacity scale dimension : Option Json) : Option Settings := do
  let areaOpacity ← setting? Json.binary64? standard.areaOpacity opacity
  let symbolScale ← setting? Json.binary64? standard.symbolScale scale
  let symbolDimension ← setting? Json.nat? standard.symbolDimension dimension
  return { areaOpacity, symbolScale, symbolDimension }

/-- The settings that a JSON value describes: an object with some of the settings by name, or
    an array with the first settings by position. -/
def ofJson? : Json → Option Settings
  | .object members =>
    ofValues? (List.lookup "area_opacity" members) (List.lookup "symbol_size_scale" members)
      (List.lookup "symbol_size_dimension" members)
  | .array [] => ofValues? none none none
  | .array [opacity] => ofValues? (some opacity) none none
  | .array [opacity, scale] => ofValues? (some opacity) (some scale) none
  | .array [opacity, scale, dimension] => ofValues? (some opacity) (some scale) (some dimension)
  | _ => none

/-- The standard sizer with the parameters in the settings. -/
def sizing (s : Settings) : Renderer.RootSizing :=
  ⟨s.symbolDimension, s.symbolScale⟩

end Settings

/-- A compiler: its settings, and the sizer that it installs. -/
structure Compiler where
  settings : Settings
  sizer : Renderer.SymbolSizer

/-- Something that a compiler worked around. -/
inductive Diagnostic where
  /-- A mark names a dataset that does not exist. -/
  | unknownDataset (markId datasetId : String)
deriving DecidableEq

/-- The text of a diagnostic. -/
def Diagnostic.text : Diagnostic → String
  | unknownDataset markId datasetId =>
    "mark '" ++ markId ++ "' references unknown dataset '" ++ datasetId ++ "', using dataset 0"

/-- A configuration with what was worked around to get it. -/
structure Compiled where
  config : Renderer.Config
  diagnostics : List Diagnostic

namespace Compiler

open Renderer

/-- The compiler with the given settings and the standard sizer. -/
def ofSettings (s : Settings) : Compiler :=
  ⟨s, s.sizing.sizer⟩

/-- The compiler with another sizer. -/
def withSizer (c : Compiler) (sizer : SymbolSizer) : Compiler :=
  { c with sizer }

/-- What the compiler adds to series. -/
def defaults (c : Compiler) : SeriesDefaults :=
  ⟨c.settings.areaOpacity, c.sizer⟩

/-- A list, unless it is empty. -/
def unlessEmpty {α : Type} (xs : List α) : Option (List α) :=
  if xs.isEmpty then none else some xs

/-- The diagnostics of a document: one for each mark without dataset, in order. -/
def diagnostics (d : Document) : List Diagnostic :=
  (d.marks.filter fun m => (datasetIndex? m.datasetId d.datasets).isNone).map fun m =>
    .unknownDataset m.id m.datasetId

/-- The configuration of a document. -/
def config (c : Compiler) (d : Document) : Config :=
  let axes := Axes.of (d.axes.getD [])
  { title := (nonEmpty? d.title).map Title.mk
    dataset := unlessEmpty (d.datasets.map Table.of)
    series := unlessEmpty (d.marks.map (Series.of c.defaults d.datasets))
    xAxis := axes.x
    yAxis := axes.y
    legend := d.legend.map fun l => .of l d.marks
    tooltip := d.tooltip.map .of
    grid := d.grid.map .of }

/-- Compiles a document. -/
def compile (c : Compiler) (d : Document) : Compiled :=
  ⟨c.config d, diagnostics d⟩

end Compiler

end ChartDoc
