/-
  Equality of compiled configurations. What compilers make of finite documents is finite: cells
  hold finite numbers only, and the remaining numbers are copied from the document or are the
  opacity of the compiler. Finite configurations are written faithfully, except for the sizers of
  their series (`Config.same_json`). So two of them are equal exactly when they are written
  alike and their series are sized alike (`compile_beq_iff`).
-/
import ChartDoc.Proofs.Compiler.Edits
import ChartDoc.Proofs.Renderer.Equality
import ChartDoc.Proofs.Validation.RoundTrip

namespace ChartDoc

open Json

namespace Renderer

/-! ## Series with sizers -/

/-- Two series are sized alike: neither has a sizer, or both have sizers with the same key. -/
def SizedAlike (s t : Series) : Prop :=
  (s.symbolSize = none ∧ t.symbolSize = none) ∨
    ∃ p q, s.symbolSize = some p ∧ t.symbolSize = some q ∧ p.key = q.key

theorem sizedAlike_iff {s t : Series} :
    SizedAlike s t ↔ (s.symbolSize == t.symbolSize) = true := by
  unfold SizedAlike
  cases s.symbolSize <;> cases t.symbolSize <;> simp [SymbolSizer.beq_iff]

/-- Series are compared part by part, and their sizers last. -/
theorem Series.beq_eq (s t : Series) :
    (s == t) =
      (s.type == t.type && (s.name == t.name && (s.datasetIndex == t.datasetIndex &&
        (s.encode == t.encode && (s.smooth == t.smooth && (s.stack == t.stack &&
          (s.lineStyle == t.lineStyle && (s.itemStyle == t.itemStyle &&
            (s.areaStyle == t.areaStyle && s.symbolSize == t.symbolSize))))))))) := rfl

/-- Line styles are compared part by part. -/
theorem LineStyle.beq_eq (s t : LineStyle) :
    (s == t) = (s.color == t.color && s.opacity == t.opacity) := rfl

/-- Item styles are compared part by part. -/
theorem ItemStyle.beq_eq (s t : ItemStyle) :
    (s == t) = (s.color == t.color && (s.opacity == t.opacity &&
      (s.borderColor == t.borderColor && s.borderWidth == t.borderWidth))) := rfl

theorem Series.beq_iff {s t : Series} :
    (s == t) = true ↔ (s.unsized == t.unsized) = true ∧ SizedAlike s t := by
  have hnone : ((none : Option SymbolSizer) == none) = true := rfl
  rw [sizedAlike_iff, ← Bool.and_eq_true, Series.beq_eq, Series.beq_eq s.unsized]
  simp only [unsized, hnone, Bool.and_true, Bool.and_assoc]

theorem Series.list_beq_iff {ss ts : List Series} :
    (ss == ts) = true ↔
      (ss.map unsized == ts.map unsized) = true ∧ List.Forall₂ SizedAlike ss ts := by
  induction ss generalizing ts with
  | nil => cases ts <;> simp
  | cons s ss ih =>
    cases ts with
    | nil => simp
    | cons t ts =>
      rw [List.cons_beq_cons, Bool.and_eq_true, Series.beq_iff, ih, List.map_cons, List.map_cons,
        List.cons_beq_cons, Bool.and_eq_true, List.forall₂_cons]
      exact and_and_and_comm

namespace Config

variable {c c' : Config}

/-! ## Configurations with sizers -/

/-- A configuration without the sizers of its series: what is written of it. -/
def unsized (c : Config) : Config :=
  { c with series := c.series.map (List.map Series.unsized) }

theorem allSeries_unsized (c : Config) :
    c.unsized.allSeries = c.allSeries.map Series.unsized := by
  unfold unsized allSeries
  cases c.series <;> rfl

theorem json_unsized (c : Config) : c.unsized.json = c.json := by
  have hlist (ss : List Series) : Json.list Series.json (ss.map Series.unsized) =
      Json.list Series.json ss := by
    rw [Json.list, Json.list, List.map_map]
    exact congrArg Json.array (List.map_congr_left fun s _ => s.json_unsized)
  have hseries : Json.whenSome "series" (Json.list Series.json) c.unsized.series =
      Json.whenSome "series" (Json.list Series.json) c.series := by
    unfold unsized
    cases c.series with
    | none => rfl
    | some ss => simp only [Option.map_some, Json.whenSome_some, hlist]
  rw [json, hseries]
  rfl

/-- Configurations are compared block by block. -/
theorem beq_eq (c c' : Config) :
    (c == c') = (c.title == c'.title && (c.dataset == c'.dataset && (c.series == c'.series &&
      (c.xAxis == c'.xAxis && (c.yAxis == c'.yAxis && (c.legend == c'.legend &&
        (c.tooltip == c'.tooltip && c.grid == c'.grid))))))) := rfl

theorem series_beq_iff (c c' : Config) :
    (c.series == c'.series) = true ↔
      (c.unsized.series == c'.unsized.series) = true ∧
        List.Forall₂ SizedAlike c.allSeries c'.allSeries := by
  unfold unsized allSeries
  cases c.series with
  | none => cases c'.series <;> simp
  | some ss =>
    cases c'.series with
    | none => simp
    | some ts => simpa using Series.list_beq_iff

/-- Two configurations are equal when they are without their sizers and have series that are
    sized alike. -/
theorem beq_iff :
    (c == c') = true ↔
      (c.unsized == c'.unsized) = true ∧ List.Forall₂ SizedAlike c.allSeries c'.allSeries := by
  rw [beq_eq, beq_eq c.unsized]
  simp only [Bool.and_eq_true, series_beq_iff c c']
  constructor
  · intro ⟨htitle, hdataset, ⟨hseries, hsized⟩, hrest⟩
    exact ⟨⟨htitle, hdataset, hseries, hrest⟩, hsized⟩
  · intro ⟨⟨htitle, hdataset, hseries, hrest⟩, hsized⟩
    exact ⟨htitle, hdataset, ⟨hseries, hsized⟩, hrest⟩

/-! ## Finite configurations -/

/-- All numbers in a configuration are finite. -/
structure AllFinite (c : Config) : Prop where
  tables : ∀ t ∈ c.tables, t.AllFinite
  series : ∀ s ∈ c.allSeries, s.AllFinite
  xAxes : ∀ a ∈ c.xAxes, a.AllFinite
  yAxes : ∀ a ∈ c.yAxes, a.AllFinite

theorem AllFinite.unsized (h : c.AllFinite) : c.unsized.AllFinite := by
  refine ⟨h.tables, ?_, h.xAxes, h.yAxes⟩
  intro s hs
  rw [allSeries_unsized] at hs
  obtain ⟨t, ht, rfl⟩ := List.mem_map.mp hs
  have hstyles := h.series t ht
  exact ⟨hstyles.line, hstyles.item, hstyles.area⟩

theorem forall_of_getD {α : Type} {P : α → Prop} {block : Option (List α)}
    (h : ∀ x ∈ block.getD [], P x) : ∀ xs, block = some xs → ∀ x ∈ xs, P x := by
  intro xs hblock
  rwa [hblock] at h

theorem forall_of_toList {α : Type} {P : α → Prop} {block : Option (OneOrMany α)}
    (h : ∀ x ∈ (block.map OneOrMany.toList).getD [], P x) :
    ∀ v, block = some v → ∀ x ∈ v.toList, P x := by
  intro v hblock
  rwa [hblock] at h

theorem faithful :
    Faithful (fun c => c.AllFinite ∧ ∀ s ∈ c.allSeries, s.symbolSize = none) Config.json := by
  intro a b ha hb
  obtain ⟨ha, hsa⟩ := ha
  obtain ⟨hb, hsb⟩ := hb
  have axes := OneOrMany.faithful Axis.faithful fun a => ⟨_, rfl⟩
  exact Rows.same_record
    (.whenSome_any Title.faithful <|
      .whenSome Table.faithful.list (forall_of_getD ha.tables) (forall_of_getD hb.tables) <|
      .whenSome Series.faithful.list
        (forall_of_getD fun s hs => ⟨ha.series s hs, hsa s hs⟩)
        (forall_of_getD fun s hs => ⟨hb.series s hs, hsb s hs⟩) <|
      .whenSome axes (forall_of_toList ha.xAxes) (forall_of_toList hb.xAxes) <|
      .whenSome axes (forall_of_toList ha.yAxes) (forall_of_toList hb.yAxes) <|
      .whenSome_any Legend.faithful <| .whenSome_any Tooltip.faithful <|
      .whenSome_any Grid.faithful .nil)
    (by decide) (by rw [Bool.and_true]; rfl)

/-- Finite configurations are written alike exactly when they are equal without their sizers. -/
theorem same_json (hc : c.AllFinite) (hc' : c'.AllFinite) :
    c.json.same c'.json = (c.unsized == c'.unsized) := by
  have hnone (a : Config) : ∀ s ∈ a.unsized.allSeries, s.symbolSize = none := by
    intro s hs
    rw [allSeries_unsized] at hs
    obtain ⟨t, -, rfl⟩ := List.mem_map.mp hs
    rfl
  rw [← json_unsized c, ← json_unsized c']
  exact faithful _ _ ⟨hc.unsized, hnone c⟩ ⟨hc'.unsized, hnone c'⟩

end Config

end Renderer

open Renderer

/-! ## Compiled configurations -/

theorem Renderer.Cell.of_allFinite (raw : String) (type : Option ColumnType) :
    (Cell.of raw type).AllFinite := by
  intro x hx
  unfold Cell.of at hx
  split at hx
  · cases hx
  · split at hx
    · split at hx
      · cases hx
        rfl
      · cases hx
    · cases hx

theorem Renderer.AreaStyle.of_allFinite {opacity : Binary64} (hopacity : opacity.isFinite = true)
    {style : Option Style} (hstyle : ∀ s, style = some s → s.AllFinite) :
    (AreaStyle.of opacity style).AllFinite := by
  intro x hx
  obtain ⟨s, hs, rfl⟩ := Option.map_eq_some_iff.mp hx
  cases h : s.opacity with
  | none => exact hopacity
  | some y => exact (hstyle s hs).1 y h

theorem Renderer.Series.of_allFinite {defaults : SeriesDefaults}
    (hopacity : defaults.areaOpacity.isFinite = true) {m : Mark}
    (hstyle : ∀ s, m.style = some s → s.AllFinite) (datasets : List Dataset) :
    (Series.of defaults datasets m).AllFinite := by
  have hline : ∀ l, m.style.map LineStyle.of = some l → l.AllFinite := by
    intro l hl
    obtain ⟨s, hs, rfl⟩ := Option.map_eq_some_iff.mp hl
    exact (hstyle s hs).1
  have hitem : ∀ i, m.style.map ItemStyle.of = some i → i.AllFinite := by
    intro i hi
    obtain ⟨s, hs, rfl⟩ := Option.map_eq_some_iff.mp hi
    exact hstyle s hs
  have harea : ∀ a, some (AreaStyle.of defaults.areaOpacity m.style) = some a → a.AllFinite := by
    intro a ha
    cases ha
    exact AreaStyle.of_allFinite hopacity hstyle
  unfold Series.of
  cases m.geometry with
  | line => exact ⟨hline, hitem, nofun⟩
  | bar => exact ⟨nofun, hitem, nofun⟩
  | pie => exact ⟨nofun, hitem, nofun⟩
  | scatter => exact ⟨nofun, hitem, nofun⟩
  | area => exact ⟨hline, hitem, harea⟩

namespace Compiler

variable {c c' : Compiler} {d d' : Document}

/-- What is compiled is finite if the document and the opacity of the compiler are. -/
theorem config_allFinite (hc : c.settings.areaOpacity.isFinite = true) (hd : d.AllFinite) :
    (c.config d).AllFinite := by
  obtain ⟨hmarks, haxes⟩ := hd
  have haxis : ∀ a ∈ d.axes.getD [], (Axis.of a).AllFinite := by
    intro a ha
    cases h : d.axes with
    | none => simp [h] at ha
    | some axes => exact haxes axes h a (by simpa [h] using ha)
  constructor
  · intro t ht
    rw [tables_config] at ht
    obtain ⟨x, -, rfl⟩ := List.mem_map.mp ht
    intro row hrow cell hcell
    obtain ⟨cells, -, rfl⟩ := List.mem_map.mp hrow
    obtain ⟨entry, -, rfl⟩ := List.mem_map.mp hcell
    exact Cell.of_allFinite _ _
  · intro s hs
    rw [allSeries_config] at hs
    obtain ⟨m, hm, rfl⟩ := List.mem_map.mp hs
    exact Series.of_allFinite hc (hmarks m hm) d.datasets
  · intro a ha
    rw [xAxes_config] at ha
    obtain ⟨b, hb, rfl⟩ := List.mem_map.mp ha
    exact haxis b (List.mem_filter.mp hb).1
  · intro a ha
    rw [yAxes_config] at ha
    obtain ⟨b, hb, rfl⟩ := List.mem_map.mp ha
    exact haxis b (List.mem_filter.mp hb).1

/-- As long as all numbers are finite, two compiled configurations are equal exactly when their
    JSON forms are, numbers being compared as numbers, and their series are sized alike, one by
    one. Nothing but the sizers is lost in writing: the JSON forms are equal exactly when the
    configurations without their sizers are. -/
theorem compile_beq_iff (hc : c.settings.areaOpacity.isFinite = true)
    (hc' : c'.settings.areaOpacity.isFinite = true) (hd : d.AllFinite) (hd' : d'.AllFinite) :
    (((c.compile d).config == (c'.compile d').config) = true ↔
      (c.compile d).config.json.same (c'.compile d').config.json = true ∧
      List.Forall₂ SizedAlike (c.compile d).config.allSeries (c'.compile d').config.allSeries) ∧
    ((c.compile d).config.json.same (c'.compile d').config.json = true ↔
      ((c.compile d).config.unsized == (c'.compile d').config.unsized) = true) := by
  have hfinite : (c.compile d).config.AllFinite := config_allFinite hc hd
  have hfinite' : (c'.compile d').config.AllFinite := config_allFinite hc' hd'
  rw [Config.same_json hfinite hfinite']
  exact ⟨Config.beq_iff, Iff.rfl⟩

/-- A document with a scatter that has a size channel, and one cell. -/
def sizedDocument (cell : String) : Document where
  title := none
  datasets := [⟨"d", [⟨"x", .number⟩], [[cell]]⟩]
  marks := [{ Mark.bare "m" "d" .scatter with encode := { Encoding.empty with size := some "x" } }]
  axes := none
  legend := none
  tooltip := none
  grid := none

theorem sizedDocument_allFinite (cell : String) : (sizedDocument cell).AllFinite := by
  refine ⟨fun m hm s hs => ?_, nofun⟩
  rw [List.mem_singleton.mp hm] at hs
  cases hs

/-- The settings with another scale. -/
def scaledSettings : Settings :=
  { Settings.standard with symbolScale := 3 }

/-- The two zeros are written alike, and the scale is not written; the sizers tell the two
    configurations apart. -/
theorem compile_beq_sizedDocument :
    ((ofSettings .standard).compile (sizedDocument "0")).config.json.same
        ((ofSettings scaledSettings).compile (sizedDocument "-0")).config.json = true ∧
      (((ofSettings .standard).compile (sizedDocument "0")).config ==
        ((ofSettings scaledSettings).compile (sizedDocument "-0")).config) = false := by
  have hstandard : (ofSettings .standard).settings.areaOpacity.isFinite = true := by
    decide +kernel
  have hscaled : (ofSettings scaledSettings).settings.areaOpacity.isFinite = true := by
    decide +kernel
  obtain ⟨hequal, hjson⟩ := compile_beq_iff hstandard hscaled (sizedDocument_allFinite "0")
    (sizedDocument_allFinite "-0")
  refine ⟨hjson.mpr (by decide +kernel), ?_⟩
  have hkeys : (ofSettings .standard).sizer.key ≠ (ofSettings scaledSettings).sizer.key := by
    decide +kernel
  rw [← Bool.not_eq_true, hequal]
  intro h
  obtain ⟨-, hsized⟩ := h
  obtain ⟨hfirst, -⟩ := List.forall₂_cons.mp hsized
  rcases hfirst with ⟨hnone, -⟩ | ⟨p, q, hp, hq, hkey⟩
  · cases hnone
  · cases hp
    cases hq
    exact hkeys hkey

end Compiler

end ChartDoc
