/-
  What the settings of a compiler can change. The settings come to a configuration in two places
  only: the opacity in the area styles of marks that leave it open, and the sizer in the series
  of sized marks. The sizer has no JSON form, so the JSON forms of two compilations agree but at
  the open opacities; diagnostics do not depend on the compiler at all (`compile_isolates`).
-/
import ChartDoc.Proofs.Compiler.Marks
import ChartDoc.Proofs.Compiler.Resolution
import ChartDoc.Proofs.Json.Place

namespace ChartDoc

open Json

/-- The mark is an area with a style that sets no opacity: the compiler gives the opacity. -/
def Mark.LeavesOpacity (m : Mark) : Prop :=
  m.geometry = .area ∧ ∃ s, m.style = some s ∧ s.opacity = none

/-- The locations of open opacities: where the configuration for a document has the opacities
    that marks leave to the compiler. -/
def Document.OpenOpacity (d : Document) (location : Location) : Prop :=
  ∃ i m, d.marks[i]? = some m ∧ m.LeavesOpacity ∧
    location = [.key "series", .index i, .key "areaStyle", .key "opacity"]

namespace Renderer

/-! ## Series -/

namespace Series

variable {defaults defaults' : SeriesDefaults} {datasets : List Dataset} {m : Mark}

/-- The series of sized marks have the sizer of the compiler, and no other series has one. -/
theorem of_symbolSize : (Series.of defaults datasets m).symbolSize =
    if m.IsSized then some defaults.sizer else none := by
  simp only [Mark.isSized_iff]
  unfold Series.of
  cases m.geometry <;> simp [base]

/-- The JSON form of a series depends on the compiler through an open opacity only. -/
theorem of_json_eq (h : m.LeavesOpacity → defaults.areaOpacity = defaults'.areaOpacity) :
    (Series.of defaults datasets m).json = (Series.of defaults' datasets m).json := by
  have harea (hgeometry : m.geometry = .area) :
      AreaStyle.of defaults.areaOpacity m.style = AreaStyle.of defaults'.areaOpacity m.style := by
    unfold AreaStyle.of
    congr 1
    refine Option.map_congr fun s hs => ?_
    cases hopacity : s.opacity with
    | none => exact h ⟨hgeometry, s, hs, hopacity⟩
    | some x => rfl
  unfold Series.of
  cases hgeometry : m.geometry with
  | area => rw [harea hgeometry]
  | _ => rfl

/-- An open opacity stands in the area style. -/
theorem of_areaStyle_of_leavesOpacity (h : m.LeavesOpacity) :
    (Series.of defaults datasets m).areaStyle = some ⟨some defaults.areaOpacity⟩ := by
  obtain ⟨hgeometry, s, hs, hopacity⟩ := h
  have harea : AreaStyle.of defaults.areaOpacity m.style = ⟨some defaults.areaOpacity⟩ := by
    rw [AreaStyle.of, hs, Option.map_some, hopacity]
    rfl
  unfold Series.of
  rw [hgeometry, harea]

theorem of_at_opacity (h : m.LeavesOpacity) :
    At (Series.of defaults datasets m).json [.key "areaStyle", .key "opacity"]
      (.ofBinary64 defaults.areaOpacity) := by
  unfold Series.json
  rw [of_areaStyle_of_leavesOpacity h]
  exact At.record [_, _, _, _, _, _, _, _] [] (At.record [] [] (.here _))

/-- But for an open opacity, the series of two compilers are written alike. -/
theorem of_agreeBut (h : m.LeavesOpacity) {excepted : Location → Prop}
    (hexcepted : excepted [.key "areaStyle", .key "opacity"]) :
    AgreeBut excepted (Series.of defaults datasets m).json
      (Series.of defaults' datasets m).json := by
  have harea : (Series.of defaults' datasets m).areaStyle = some ⟨some defaults'.areaOpacity⟩ :=
    of_areaStyle_of_leavesOpacity h
  have hsame : Series.of defaults' datasets m =
      { Series.of defaults datasets m with areaStyle := some ⟨some defaults'.areaOpacity⟩ } := by
    rw [← harea]
    unfold Series.of
    rw [h.1]
  rw [hsame]
  unfold Series.json
  rw [of_areaStyle_of_leavesOpacity h]
  exact AgreeBut.record [_, _, _, _, _, _, _, _] [] (AgreeBut.record [] [] (.here hexcepted))

end Series

end Renderer

open Renderer

namespace Compiler

variable (c c' : Compiler) (d : Document)

/-- The configurations of a document differ in their series blocks only. -/
theorem exists_json_eq : ∃ ms ns, ∀ c : Compiler, (c.config d).json =
    .record (ms ++ whenSome "series" (.list fun m => (Series.of c.defaults d.datasets m).json)
      (unlessEmpty d.marks) :: ns) := by
  let axes := Axes.of (d.axes.getD [])
  refine ⟨[whenSome "title" Title.json ((nonEmpty? d.title).map Title.mk),
      whenSome "dataset" (.list Table.json) (unlessEmpty (d.datasets.map Table.of))],
    [whenSome "xAxis" (OneOrMany.json Renderer.Axis.json) axes.x,
      whenSome "yAxis" (OneOrMany.json Renderer.Axis.json) axes.y,
      whenSome "legend" Renderer.Legend.json (d.legend.map fun l => .of l d.marks),
      whenSome "tooltip" Renderer.Tooltip.json (d.tooltip.map .of),
      whenSome "grid" Renderer.Grid.json (d.grid.map .of)], fun c => ?_⟩
  have hseries : whenSome "series" (.list Series.json) (c.config d).series =
      whenSome "series" (.list fun m => (Series.of c.defaults d.datasets m).json)
        (unlessEmpty d.marks) := by
    show whenSome "series" (.list Series.json)
      (unlessEmpty (d.marks.map (Series.of c.defaults d.datasets))) = _
    cases d.marks with
    | nil => rfl
    | cons m ms =>
      show some ("series", Json.list Series.json ((m :: ms).map _)) = some ("series", _)
      rw [Json.list, List.map_map]
      rfl
  unfold Config.json
  rw [hseries]
  rfl

theorem json_eq_of_areaOpacity_eq (h : c.settings.areaOpacity = c'.settings.areaOpacity) :
    (c.config d).json = (c'.config d).json := by
  obtain ⟨ms, ns, hjson⟩ := exists_json_eq d
  have hseries : (fun m => (Series.of c.defaults d.datasets m).json) =
      fun m => (Series.of c'.defaults d.datasets m).json :=
    funext fun m => Series.of_json_eq fun _ => h
  rw [hjson, hjson, hseries]

theorem json_agreeBut : AgreeBut d.OpenOpacity (c.config d).json (c'.config d).json := by
  obtain ⟨ms, ns, hjson⟩ := exists_json_eq d
  rw [hjson, hjson]
  cases hmarks : d.marks with
  | nil => exact .refl _
  | cons m rest =>
    rw [← hmarks]
    have hpresent : unlessEmpty d.marks = some d.marks := by
      rw [hmarks]
      rfl
    rw [hpresent]
    refine .record ms ns (.list fun i m hm => ?_)
    by_cases hopen : m.LeavesOpacity
    · exact Series.of_agreeBut hopen ⟨i, m, hm, hopen, rfl⟩
    · rw [Series.of_json_eq fun h => absurd h hopen]
      exact .refl _

/-- At every open opacity stands the opacity of the compiler. -/
theorem json_at_opacity {location : Location} (h : d.OpenOpacity location) :
    At (c.config d).json location (.ofBinary64 c.settings.areaOpacity) := by
  obtain ⟨ms, ns, hjson⟩ := exists_json_eq d
  obtain ⟨i, m, hm, hopen, rfl⟩ := h
  have hpresent : unlessEmpty d.marks = some d.marks := by
    cases hmarks : d.marks with
    | nil => simp [hmarks] at hm
    | cons m rest => rfl
  rw [hjson, hpresent]
  exact At.record ms ns (At.list hm (Series.of_at_opacity hopen))

/-- The sizer of the compiler is in the series of the sized marks, and no other sizer is. -/
theorem symbolSizes_config : (c.config d).allSeries.map Series.symbolSize =
    d.marks.map fun m => if m.IsSized then some c.sizer else none := by
  rw [allSeries_config, List.map_map]
  exact List.map_congr_left fun m _ => Series.of_symbolSize

/-- An installed sizer takes the place of the standard one, and the opacity stays. -/
theorem defaults_withSizer (s : Settings) (sizer : SymbolSizer) :
    ((ofSettings s).withSizer sizer).defaults = ⟨s.areaOpacity, sizer⟩ := rfl

/-- What is compiled depends on the compiler through what it adds to series. -/
theorem compile_congr {c c' : Compiler} (h : c.defaults = c'.defaults) :
    c.compile d = c'.compile d := by
  unfold compile config
  rw [h]

/-- What the settings and the sizer of a compiler can change, for two compilers and a document.
    The diagnostics are the same. The JSON forms of the configurations are the same if the two
    opacities are, and otherwise they agree but at the open opacities, where the opacity of the
    compiler stands. The series of sized marks have the sizer of the compiler, the others have
    none. A compiler made from settings has their opacity and the standard sizer with their
    parameters. When another sizer is installed, it is the one in the series, and nothing depends
    on the settings but the opacity. -/
theorem compile_isolates :
    (c.compile d).diagnostics = (c'.compile d).diagnostics ∧
    (c.settings.areaOpacity = c'.settings.areaOpacity →
      (c.compile d).config.json = (c'.compile d).config.json) ∧
    AgreeBut d.OpenOpacity (c.compile d).config.json (c'.compile d).config.json ∧
    (∀ location, d.OpenOpacity location →
      At (c.compile d).config.json location (.ofBinary64 c.settings.areaOpacity)) ∧
    (c.compile d).config.allSeries.map Series.symbolSize =
      d.marks.map (fun m => if m.IsSized then some c.sizer else none) ∧
    (∀ (s s' : Settings) (sizer : SymbolSizer), s.areaOpacity = s'.areaOpacity →
      ((ofSettings s).withSizer sizer).compile d =
        ((ofSettings s').withSizer sizer).compile d) ∧
    (∀ s : Settings,
      ((ofSettings s).compile d).config.allSeries.map Series.symbolSize =
        d.marks.map (fun m => if m.IsSized then
          some (RootSizing.sizer ⟨s.symbolDimension, s.symbolScale⟩) else none) ∧
      ∀ location, d.OpenOpacity location →
        At ((ofSettings s).compile d).config.json location (.ofBinary64 s.areaOpacity)) ∧
    (∀ (s : Settings) (sizer : SymbolSizer),
      (((ofSettings s).withSizer sizer).compile d).config.allSeries.map Series.symbolSize =
        d.marks.map (fun m => if m.IsSized then some sizer else none) ∧
      ∀ location, d.OpenOpacity location →
        At (((ofSettings s).withSizer sizer).compile d).config.json location
          (.ofBinary64 s.areaOpacity)) := by
  refine ⟨rfl, json_eq_of_areaOpacity_eq c c' d, json_agreeBut c c' d,
    fun location => json_at_opacity c d, symbolSizes_config c d, ?_, ?_, ?_⟩
  · intro s s' sizer hopacity
    refine compile_congr d ?_
    rw [defaults_withSizer, defaults_withSizer, hopacity]
  · exact fun s => ⟨symbolSizes_config (ofSettings s) d, fun location =>
      json_at_opacity (ofSettings s) d⟩
  · intro s sizer
    let custom := (ofSettings s).withSizer sizer
    exact ⟨symbolSizes_config custom d, fun location => json_at_opacity custom d⟩

/-- A document with an area that leaves its opacity open, and a sized scatter. -/
def shadedDocument : Document where
  title := none
  datasets := [⟨"d", [⟨"x", .number⟩], [["1"]]⟩]
  marks :=
    [{ Mark.bare "a" "d" .area with style := some ⟨some "red", none, none, none⟩ },
      { Mark.bare "b" "d" .scatter with encode := { Encoding.empty with size := some "x" } }]
  axes := none
  legend := none
  tooltip := none
  grid := none

/-- The settings with another standard sizer. -/
def resizedSettings : Settings :=
  { Settings.standard with symbolScale := 3, symbolDimension := 0 }

/-- A sizer that gives all symbols the same size. -/
def constantSizer : SymbolSizer :=
  .ofName "constant" fun _ => 10

theorem compile_isolates_shaded :
    Settings.standard.areaOpacity = resizedSettings.areaOpacity ∧
      ((ofSettings .standard).compile shadedDocument).config.json =
        ((ofSettings resizedSettings).compile shadedDocument).config.json ∧
      At ((ofSettings .standard).compile shadedDocument).config.json
        [.key "series", .index 0, .key "areaStyle", .key "opacity"]
        (.ofBinary64 Settings.standard.areaOpacity) ∧
      (∀ sizer, ((ofSettings .standard).withSizer sizer).compile shadedDocument =
        ((ofSettings resizedSettings).withSizer sizer).compile shadedDocument) ∧
      ((ofSettings resizedSettings).compile shadedDocument).config.allSeries.map
        Series.symbolSize = [none, some (RootSizing.mk 0 3).sizer] ∧
      (((ofSettings resizedSettings).withSizer constantSizer).compile
        shadedDocument).config.allSeries.map Series.symbolSize = [none, some constantSizer] := by
  have hopacity : Settings.standard.areaOpacity = resizedSettings.areaOpacity := rfl
  have hopen : shadedDocument.OpenOpacity
      [.key "series", .index 0, .key "areaStyle", .key "opacity"] :=
    ⟨0, _, rfl, ⟨rfl, _, rfl, rfl⟩, rfl⟩
  obtain ⟨-, hjson, -, hplace, -, hsizer, hstandard, hcustom⟩ :=
    compile_isolates (ofSettings .standard) (ofSettings resizedSettings) shadedDocument
  exact ⟨hopacity, hjson hopacity, hplace _ hopen, fun sizer => hsizer _ _ sizer hopacity,
    (hstandard resizedSettings).1, (hcustom resizedSettings constantSizer).1⟩

end Compiler

end ChartDoc
