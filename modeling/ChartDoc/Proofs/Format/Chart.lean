/-
  The formats of chart documents and of their parts. The shape of each is the one registered
  under its name, and the writer and the reader are those of the type, so the laws of formats
  hold of the chart definitions, of `Document.json` and of `Document.ofJson?`.
-/
import ChartDoc.Document.Basic
import ChartDoc.Proofs.Format.Record
import ChartDoc.Schema.Chart

namespace ChartDoc

open Schema

/-! ## The registered shapes -/

namespace Registry

/-- Definitions with new names are registered behind those that are there. -/
theorem registerAll_definitions {r : Registry} {definitions : Entries Json}
    (h : (r.definitions ++ definitions).Distinct) :
    (r.registerAll definitions).definitions = r.definitions ++ definitions := by
  induction definitions generalizing r with
  | nil => exact (List.append_nil _).symm
  | cons entry definitions ih =>
    have hnew : entry.1 ∉ r.definitions.keys := by
      intro hmem
      rw [Entries.Distinct, Entries.keys, List.map_append, List.nodup_append] at h
      exact h.2.2 _ hmem _ List.mem_cons_self rfl
    have hsplit : (r.register entry.1 entry.2).2.definitions = r.definitions ++ [entry] := by
      rw [register_snd_definitions, Entries.insert_of_notMem hnew]
    have hrest := @ih (r.register entry.1 entry.2).2
      (by rwa [hsplit, List.append_assoc])
    rw [hsplit, List.append_assoc] at hrest
    exact hrest

theorem chart_definitions : chart.definitions = Shape.propertyJsons chartShapes := by
  refine registerAll_definitions ?_
  rw [Entries.Distinct, empty, List.nil_append, Shape.keys_propertyJsons]
  decide

theorem chart_get? (name : String) :
    chart.get? name = (List.lookup name chartShapes).map Shape.json := by
  rw [get?, chart_definitions, Shape.lookup_propertyJsons]

end Registry

/-- The format under the name of a chart definition. -/
def Format.named {α : Type} (name : String) (f : Format .chart α)
    (own : f.shape.isReference = false) (h : List.lookup name chartShapes = some f.shape) :
    Format .chart α :=
  .reference name f own (by rw [Registry.chart_get?, h, Option.map_some])

theorem Format.Free.named {α : Type} {name : String} {f : Format .chart α}
    {own : f.shape.isReference = false} {registered : List.lookup name chartShapes = some f.shape}
    (h : f.Free) : (Format.named name f own registered).Free :=
  h

/-! ## Datasets -/

def Column.fields : Fields .chart (String × ColumnType × Unit) :=
  .cons (.required "name" .text) <|
  .cons (.required "type" (.named "ColumnType" (.word ColumnType) rfl rfl)) .nil

def Column.format : Format .chart Column :=
  .record "A named, typed dataset column." fields
    ⟨fun c => (c.name, c.type, ()), fun a => ⟨a.1, a.2.1⟩, fun _ => rfl, fun _ => rfl⟩
    json ofJson? (by decide) (by decide) (fun _ => rfl) (fun _ => rfl)

theorem Column.free : format.Free :=
  .record (.cons (.required .text) (.cons (.required (.named .word)) .nil))

def Dataset.fields : Fields .chart (String × List Column × List (List String) × Unit) :=
  .cons (.required "id" .text) <|
  .cons (.required "columns" (.list (.named "Column" Column.format rfl rfl) none nofun)) <|
  .cons (.required "rows" (.list (.list .text none nofun) none nofun)) .nil

def Dataset.format : Format .chart Dataset :=
  .record "Tabular data. Values are strings; \"\" is null; column types govern parsing." fields
    ⟨fun d => (d.id, d.columns, d.rows, ()), fun a => ⟨a.1, a.2.1, a.2.2.1⟩, fun _ => rfl,
      fun _ => rfl⟩
    json ofJson? (by decide) (by decide) (fun _ => rfl) (fun _ => rfl)

theorem Dataset.free : format.Free :=
  .record <| .cons (.required .text) <|
    .cons (.required (.list (.named Column.free))) <|
    .cons (.required (.list (.list .text))) .nil

/-! ## Marks -/

def Encoding.fields : Fields .chart (Option String × Option String × Option String ×
    Option String × Option String × Option String × Unit) :=
  .cons (.optional "x" .text) <|
  .cons (.optional "y" .text) <|
  .cons (.optional "value" .text) <|
  .cons (.optional "name" .text) <|
  .cons (.optional "size" .text) <|
  .cons (.optional "color" .text) .nil

def Encoding.format : Format .chart Encoding :=
  .record "Maps dataset columns to visual channels." fields
    ⟨fun e => (e.x, e.y, e.value, e.name, e.size, e.color, ()),
      fun a => ⟨a.1, a.2.1, a.2.2.1, a.2.2.2.1, a.2.2.2.2.1, a.2.2.2.2.2.1⟩, fun _ => rfl,
      fun _ => rfl⟩
    json ofJson? (by decide) (by decide) (fun _ => rfl) (fun _ => rfl)

theorem Encoding.free : format.Free :=
  .record <| .cons (.optional .text) <| .cons (.optional .text) <| .cons (.optional .text) <|
    .cons (.optional .text) <| .cons (.optional .text) <| .cons (.optional .text) .nil

/-- Zero is at most one. -/
theorem Shape.unit_ordered :
    (Form.number (some zeroBound) (some oneBound)).Sound := by
  show zeroBound.toBinary64 ≤ oneBound.toBinary64
  decide +kernel

def Style.fields : Fields .chart (Option String × Option Binary64 × Option String ×
    Option Binary64 × Unit) :=
  .cons (.optional "color" .text) <|
  .cons (.optional "opacity" (.number _ _ Shape.unit_ordered)) <|
  .cons (.optional "borderColor" .text) <|
  .cons (.optional "borderWidth" (.number (some Shape.zeroBound) none trivial)) .nil

def Style.format : Format .chart Style :=
  .record "Flat visual styling." fields
    ⟨fun s => (s.color, s.opacity, s.borderColor, s.borderWidth, ()),
      fun a => ⟨a.1, a.2.1, a.2.2.1, a.2.2.2.1⟩, fun _ => rfl, fun _ => rfl⟩
    json ofJson? (by decide) (by decide) (fun _ => rfl) (fun _ => rfl)

def Mark.fields : Fields .chart (String × String × Geometry × Option CoordinateSystem ×
    Encoding × Option Style × Option String × Option Bool × Option String × Unit) :=
  .cons (.required "id" .text) <|
  .cons (.required "datasetId" .text) <|
  .cons (.required "geometry" (.named "Geometry" (.word Geometry) rfl rfl)) <|
  .cons (.optional "coordinateSystem"
    (.named "CoordinateSystem" (.word CoordinateSystem) rfl rfl)) <|
  .cons (.required "encode" (.named "Encode" Encoding.format rfl rfl)) <|
  .cons (.optional "style" (.named "Style" Style.format rfl rfl)) <|
  .cons (.optional "stack" .text) <|
  .cons (.optional "smooth" .boolean) <|
  .cons (.optional "name" .text) .nil

def Mark.format : Format .chart Mark :=
  .record "A visual series: one geometry, one dataset reference, one encoding." fields
    ⟨fun m => (m.id, m.datasetId, m.geometry, m.coordinateSystem, m.encode, m.style, m.stack,
        m.smooth, m.name, ()),
      fun a => ⟨a.1, a.2.1, a.2.2.1, a.2.2.2.1, a.2.2.2.2.1, a.2.2.2.2.2.1, a.2.2.2.2.2.2.1,
        a.2.2.2.2.2.2.2.1, a.2.2.2.2.2.2.2.2.1⟩, fun _ => rfl, fun _ => rfl⟩
    json ofJson? (by decide) (by decide) (fun _ => rfl) (fun _ => rfl)

/-! ## Axes -/

def Axis.fields : Fields .chart (String × AxisType × AxisPosition × Option String ×
    Option Binary64 × Option Binary64 × Unit) :=
  .cons (.required "id" .text) <|
  .cons (.required "type" (.named "AxisType" (.word AxisType) rfl rfl)) <|
  .cons (.required "position" (.named "AxisPosition" (.word AxisPosition) rfl rfl)) <|
  .cons (.optional "name" .text) <|
  .cons (.optional "min" (.number none none trivial)) <|
  .cons (.optional "max" (.number none none trivial)) .nil

def Axis.format : Format .chart Axis :=
  .record "A chart axis. Bottom/top axes are x axes, left/right axes are y axes." fields
    ⟨fun x => (x.id, x.type, x.position, x.name, x.min, x.max, ()),
      fun a => ⟨a.1, a.2.1, a.2.2.1, a.2.2.2.1, a.2.2.2.2.1, a.2.2.2.2.2.1⟩, fun _ => rfl,
      fun _ => rfl⟩
    json ofJson? (by decide) (by decide) (fun _ => rfl) (fun _ => rfl)

/-! ## Furniture -/

def Legend.fields : Fields .chart (Option Bool × Option LegendPosition ×
    Option (List String) × Unit) :=
  .cons (.optional "show" .boolean) <|
  .cons (.optional "position" (.named "LegendPosition" (.word LegendPosition) rfl rfl)) <|
  .cons (.optional "items" (.list .text none nofun)) .nil

def Legend.format : Format .chart Legend :=
  .record "Legend configuration. Items default to one label per mark." fields
    ⟨fun l => (l.shown, l.position, l.items, ()), fun a => ⟨a.1, a.2.1, a.2.2.1⟩, fun _ => rfl,
      fun _ => rfl⟩
    json ofJson? (by decide) (by decide) (fun _ => rfl) (fun _ => rfl)

theorem Legend.free : format.Free :=
  .record <| .cons (.optional .boolean) <| .cons (.optional (.named .word)) <|
    .cons (.optional (.list .text)) .nil

def Tooltip.fields : Fields .chart (Option Bool × Option TooltipTrigger × Unit) :=
  .cons (.optional "show" .boolean) <|
  .cons (.optional "trigger" (.named "TooltipTrigger" (.word TooltipTrigger) rfl rfl)) .nil

def Tooltip.format : Format .chart Tooltip :=
  .record "Tooltip configuration." fields
    ⟨fun t => (t.shown, t.trigger, ()), fun a => ⟨a.1, a.2.1⟩, fun _ => rfl, fun _ => rfl⟩
    json ofJson? (by decide) (by decide) (fun _ => rfl) (fun _ => rfl)

theorem Tooltip.free : format.Free :=
  .record (.cons (.optional .boolean) (.cons (.optional (.named .word)) .nil))

def Grid.fields : Fields .chart (Option String × Option String × Option String ×
    Option String × Option String × Option String × Option Bool × Unit) :=
  .cons (.optional "left" .text) <|
  .cons (.optional "right" .text) <|
  .cons (.optional "top" .text) <|
  .cons (.optional "bottom" .text) <|
  .cons (.optional "width" .text) <|
  .cons (.optional "height" .text) <|
  .cons (.optional "containLabel" .boolean) .nil

def Grid.format : Format .chart Grid :=
  .record "Grid placement. Values are percentage (\"10%\") or pixel (\"50\") literals." fields
    ⟨fun g => (g.left, g.right, g.top, g.bottom, g.width, g.height, g.containLabel, ()),
      fun a => ⟨a.1, a.2.1, a.2.2.1, a.2.2.2.1, a.2.2.2.2.1, a.2.2.2.2.2.1, a.2.2.2.2.2.2.1⟩,
      fun _ => rfl, fun _ => rfl⟩
    json ofJson? (by decide) (by decide) (fun _ => rfl) (fun _ => rfl)

theorem Grid.free : format.Free :=
  .record <| .cons (.optional .text) <| .cons (.optional .text) <| .cons (.optional .text) <|
    .cons (.optional .text) <| .cons (.optional .text) <| .cons (.optional .text) <|
    .cons (.optional .boolean) .nil

/-! ## Documents -/

def Document.fields : Fields .chart (Option String × List Dataset × List Mark ×
    Option (List Axis) × Option Legend × Option Tooltip × Option Grid × Unit) :=
  .cons (.optional "title" .text) <|
  .cons (.required "datasets"
    (.list (.named "Dataset" Dataset.format rfl rfl) (some 1) (by decide))) <|
  .cons (.required "marks" (.list (.named "Mark" Mark.format rfl rfl) (some 1) (by decide))) <|
  .cons (.optional "axes" (.list (.named "Axis" Axis.format rfl rfl) none nofun)) <|
  .cons (.optional "legend" (.named "Legend" Legend.format rfl rfl)) <|
  .cons (.optional "tooltip" (.named "Tooltip" Tooltip.format rfl rfl)) <|
  .cons (.optional "grid" (.named "Grid" Grid.format rfl rfl)) .nil

def Document.format : Format .chart Document :=
  .record "Top-level chart intermediate representation." fields
    ⟨fun d => (d.title, d.datasets, d.marks, d.axes, d.legend, d.tooltip, d.grid, ()),
      fun a => ⟨a.1, a.2.1, a.2.2.1, a.2.2.2.1, a.2.2.2.2.1, a.2.2.2.2.2.1, a.2.2.2.2.2.2.1⟩,
      fun _ => rfl, fun _ => rfl⟩
    json ofJson? (by decide) (by decide) (fun _ => rfl) (fun _ => rfl)

namespace Registry

/-- Every chart definition is formed. -/
theorem chart_allFormed : chart.AllFormed := by
  have hshapes : ∀ p ∈ chartShapes, chart.Formed p.2.json := by
    unfold chartShapes
    simp only [List.forall_mem_cons]
    exact ⟨Document.format.formed, Dataset.format.formed, Column.format.formed,
      (Format.word ColumnType).formed, Mark.format.formed, (Format.word Geometry).formed,
      (Format.word CoordinateSystem).formed, Encoding.format.formed, Style.format.formed,
      Axis.format.formed, (Format.word AxisType).formed, (Format.word AxisPosition).formed,
      Legend.format.formed, (Format.word LegendPosition).formed, Tooltip.format.formed,
      (Format.word TooltipTrigger).formed, Grid.format.formed, nofun⟩
  intro name d h
  rw [chart_get?] at h
  obtain ⟨shape, hshape, rfl⟩ := Option.map_eq_some_iff.mp h
  exact hshapes _ (Entries.mem_of_lookup hshape)

end Registry

end ChartDoc
