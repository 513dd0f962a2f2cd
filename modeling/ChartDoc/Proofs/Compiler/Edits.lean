/-
  Edits of documents that do not disturb what is drawn. A series depends on the datasets of its
  document through one number only, the position of the dataset that its mark names
  (`Series.of_eq_reindexed`). So two edits are harmless as long as every mark names a dataset:

  * putting the datasets into another order, when no two have the same identifier: every series
    is drawn from the table that it was drawn from before (`compile_reorder`);
  * putting more datasets, marks and axes behind those that are there, under any identifiers:
    the first dataset with an identifier stays the first, so nothing old changes, and what is new
    comes behind it (`compile_extend`).
-/
import ChartDoc.Proofs.Compiler.Resolution
import Mathlib.Data.List.Nodup
import Mathlib.Data.List.Forall2

namespace ChartDoc

namespace Renderer

/-! ## Series and their datasets -/

/-- With other datasets only the position of the dataset changes in a series. -/
theorem Series.of_eq_reindexed (defaults : SeriesDefaults) (datasets datasets' : List Dataset)
    (m : Mark) :
    Series.of defaults datasets' m =
      { Series.of defaults datasets m with
        datasetIndex := (datasetIndex? m.datasetId datasets').getD 0 } := by
  unfold Series.of
  cases m.geometry <;> rfl

/-- Datasets behind one with the identifier do not change which one is the first. -/
theorem datasetIndex?_append {id : String} {datasets : List Dataset}
    (named : ∃ x ∈ datasets, x.id = id) (more : List Dataset) :
    datasetIndex? id (datasets ++ more) = datasetIndex? id datasets := by
  unfold datasetIndex?
  rw [List.findIdx?_append]
  cases h : datasets.findIdx? fun x => x.id == id with
  | some index => rfl
  | none =>
    obtain ⟨x, hx, hid⟩ := named
    exact absurd hid (datasetIndex?_eq_none_iff.mp h x hx)

/-- The series of a mark that names a dataset is drawn from the table of such a dataset. -/
theorem Series.exists_drawnFrom (defaults : SeriesDefaults) {datasets : List Dataset} {m : Mark}
    (named : ∃ x ∈ datasets, x.id = m.datasetId) :
    ∃ x ∈ datasets, x.id = m.datasetId ∧
      (datasets.map Table.of)[(Series.of defaults datasets m).datasetIndex]? =
        some (Table.of x) := by
  rcases Series.resolves defaults datasets m with ⟨x, hx, hid, -⟩ | ⟨-, hnone⟩
  · refine ⟨x, List.mem_of_getElem? hx, hid, ?_⟩
    rw [List.getElem?_map, hx, Option.map_some]
  · obtain ⟨x, hx, hid⟩ := named
    exact absurd hid (hnone x hx)

/-! ## Views of a configuration -/

namespace Config

/-- The x axes of a configuration, one or many; a block that is absent has none. -/
def xAxes (c : Config) : List Axis :=
  (c.xAxis.map OneOrMany.toList).getD []

/-- The y axes of a configuration. -/
def yAxes (c : Config) : List Axis :=
  (c.yAxis.map OneOrMany.toList).getD []

/-- Two series of two configurations are drawn alike: they differ in the position of their table
    at most, and the tables that they are drawn from are the same. -/
def DrawnAlike (before after : Config) (s t : Series) : Prop :=
  t = { s with datasetIndex := t.datasetIndex } ∧
    ∃ table, before.tables[s.datasetIndex]? = some table ∧
      after.tables[t.datasetIndex]? = some table

end Config

end Renderer

/-! ## Legends -/

/-- The author of a legend gives its labels. -/
def Legend.Authored (l : Legend) : Prop :=
  ∃ label labels, l.items = some (label :: labels)

open Renderer

theorem Renderer.Legend.labels_of_authored {l : ChartDoc.Legend} (h : l.Authored)
    (marks marks' : List Mark) : Legend.labels l marks = Legend.labels l marks' := by
  obtain ⟨label, labels, hitems⟩ := h
  rw [Legend.labels, Legend.labels, hitems]

theorem Renderer.Legend.labels_of_not_authored {l : ChartDoc.Legend} (h : ¬l.Authored)
    (marks : List Mark) : Legend.labels l marks = marks.map Mark.displayName := by
  unfold Legend.labels
  split
  · rename_i label labels hitems
    exact absurd ⟨label, labels, hitems⟩ h
  · rfl

namespace Compiler

variable (c : Compiler) {d d' : Document}

theorem xAxes_config (d : Document) :
    (c.config d).xAxes =
      ((d.axes.getD []).filter (ChartDoc.Axis.isOriented .horizontal)).map Axis.of :=
  OneOrMany.toList_ofList? _

theorem yAxes_config (d : Document) :
    (c.config d).yAxes =
      ((d.axes.getD []).filter (ChartDoc.Axis.isOriented .vertical)).map Axis.of :=
  OneOrMany.toList_ofList? _

/-! ## Another order of datasets -/

/-- When the identifiers of datasets are distinct and every mark names one, the order of the
    datasets does not matter: there are no diagnostics, every series is drawn as before and from
    the same table, and all other blocks are the same. -/
theorem compile_reorder {datasets : List Dataset} (distinct : (d.datasets.map Dataset.id).Nodup)
    (named : ∀ m ∈ d.marks, ∃ x ∈ d.datasets, x.id = m.datasetId)
    (reordered : datasets.Perm d.datasets) :
    (c.compile { d with datasets }).diagnostics = [] ∧
    List.Forall₂ ((c.compile d).config.DrawnAlike (c.compile { d with datasets }).config)
      (c.compile d).config.allSeries (c.compile { d with datasets }).config.allSeries ∧
    (c.compile { d with datasets }).config =
      { (c.compile d).config with
        dataset := (c.compile { d with datasets }).config.dataset
        series := (c.compile { d with datasets }).config.series } := by
  have named' : ∀ m ∈ d.marks, ∃ x ∈ datasets, x.id = m.datasetId := by
    intro m hm
    obtain ⟨x, hx, hid⟩ := named m hm
    exact ⟨x, reordered.mem_iff.mpr hx, hid⟩
  refine ⟨(diagnostics_eq_nil_iff _).mpr named', ?_, rfl⟩
  show List.Forall₂ _ (c.config d).allSeries (c.config { d with datasets }).allSeries
  rw [allSeries_config, allSeries_config, List.forall₂_map_left_iff, List.forall₂_map_right_iff,
    List.forall₂_same]
  intro m hm
  refine ⟨?_, ?_⟩
  · rw [Series.of_eq_reindexed c.defaults d.datasets datasets m]
  · obtain ⟨x, hx, hid, htable⟩ := Series.exists_drawnFrom c.defaults (named m hm)
    obtain ⟨x', hx', hid', htable'⟩ := Series.exists_drawnFrom c.defaults (named' m hm)
    -- both datasets have the identifier that the mark names, and only one has
    have hsame : x = x' :=
      List.inj_on_of_nodup_map distinct hx (reordered.mem_iff.mp hx') (hid.trans hid'.symm)
    subst hsame
    have hbefore : (c.compile d).config.tables = d.datasets.map Table.of := c.tables_config d
    have hafter : (c.compile { d with datasets }).config.tables = datasets.map Table.of :=
      c.tables_config { d with datasets }
    refine ⟨Table.of x, ?_, ?_⟩
    · rw [hbefore]
      exact htable
    · rw [hafter]
      exact htable'

/-- A document with three datasets, of which two are drawn. -/
def orderedDocument : Document where
  title := some "Orders"
  datasets := [⟨"a", [], []⟩, ⟨"b", [⟨"x", .number⟩], [["1"]]⟩, ⟨"c", [], [["2"]]⟩]
  marks := [.bare "m" "b" .bar, .bare "n" "c" .line]
  axes := none
  legend := none
  tooltip := none
  grid := none

/-- The datasets of the document in another order. -/
def reorderedDatasets : List Dataset :=
  [⟨"c", [], [["2"]]⟩, ⟨"a", [], []⟩, ⟨"b", [⟨"x", .number⟩], [["1"]]⟩]

theorem compile_reorder_three :
    (orderedDocument.datasets.map Dataset.id).Nodup ∧
      (∀ m ∈ orderedDocument.marks, ∃ x ∈ orderedDocument.datasets, x.id = m.datasetId) ∧
      reorderedDatasets.Perm orderedDocument.datasets ∧
      List.Forall₂
        (((ofSettings .standard).compile orderedDocument).config.DrawnAlike
          ((ofSettings .standard).compile { orderedDocument with
            datasets := reorderedDatasets }).config)
        ((ofSettings .standard).compile orderedDocument).config.allSeries
        ((ofSettings .standard).compile { orderedDocument with
          datasets := reorderedDatasets }).config.allSeries ∧
      ((ofSettings .standard).compile orderedDocument).config.allSeries.map
        Series.datasetIndex = [1, 2] ∧
      ((ofSettings .standard).compile { orderedDocument with
        datasets := reorderedDatasets }).config.allSeries.map Series.datasetIndex = [2, 0] := by
  have distinct : (orderedDocument.datasets.map Dataset.id).Nodup := by decide
  have named : ∀ m ∈ orderedDocument.marks,
      ∃ x ∈ orderedDocument.datasets, x.id = m.datasetId := by
    simp [orderedDocument, Mark.bare]
  have reordered : reorderedDatasets.Perm orderedDocument.datasets := by decide
  obtain ⟨-, hseries, -⟩ := compile_reorder (ofSettings .standard) distinct named reordered
  exact ⟨distinct, named, reordered, hseries, rfl, rfl⟩

end Compiler

/-! ## More datasets, marks and axes -/

/-- `d'.Extends d datasets marks axes`: the first document is the second with datasets, marks and
    axes put behind those that are there. A document without axes has an empty list of them. -/
structure Document.Extends (d' d : Document) (moreDatasets : List Dataset) (moreMarks : List Mark)
    (moreAxes : List ChartDoc.Axis) : Prop where
  title : d'.title = d.title
  datasets : d'.datasets = d.datasets ++ moreDatasets
  marks : d'.marks = d.marks ++ moreMarks
  axes : d'.axes.getD [] = d.axes.getD [] ++ moreAxes
  legend : d'.legend = d.legend
  tooltip : d'.tooltip = d.tooltip
  grid : d'.grid = d.grid

namespace Compiler

variable (c : Compiler) {d d' : Document} {datasets : List Dataset} {marks : List Mark}
  {axes : List ChartDoc.Axis}

/-- The diagnostics of an extended document are about the marks that are new, if there were none
    before. -/
theorem diagnostics_of_extends (extended : d'.Extends d datasets marks axes)
    (quiet : diagnostics d = []) :
    diagnostics d' =
      (marks.filter fun m => m.datasetId ∉ d'.datasets.map Dataset.id).map fun m =>
        .unknownDataset m.id m.datasetId := by
  have hold : (d.marks.filter fun m => m.datasetId ∉ d'.datasets.map Dataset.id) = [] := by
    rw [List.filter_eq_nil_iff]
    intro m hm
    obtain ⟨x, hx, hid⟩ := (diagnostics_eq_nil_iff d).mp quiet m hm
    have hmem : m.datasetId ∈ d'.datasets.map Dataset.id := by
      rw [extended.datasets, List.map_append]
      exact List.mem_append_left _ (List.mem_map.mpr ⟨x, hx, hid⟩)
    simpa using hmem
  rw [diagnostics_eq, extended.marks, List.filter_append, hold, List.nil_append]

/-- The series of an extended document are the old ones, and behind them those of the new
    marks. -/
theorem allSeries_of_extends (extended : d'.Extends d datasets marks axes)
    (quiet : diagnostics d = []) :
    (c.config d').allSeries =
      (c.config d).allSeries ++ marks.map (Series.of c.defaults d'.datasets) := by
  rw [allSeries_config, allSeries_config, extended.marks, List.map_append]
  congr 1
  refine List.map_congr_left fun m hm => ?_
  have named := (diagnostics_eq_nil_iff d).mp quiet m hm
  rw [Series.of_eq_reindexed c.defaults d.datasets d'.datasets m, extended.datasets,
    datasetIndex?_append named, ← Series.of_eq_reindexed]

/-- The legend of an extended document has labels for the new marks behind the old labels, unless
    the author gives the labels. -/
theorem legend_of_extends (extended : d'.Extends d datasets marks axes) :
    (∀ l, d.legend = some l → ¬l.Authored →
      (c.config d').legend = (c.config d).legend.map fun g =>
        { g with data := g.data ++ marks.map Mark.displayName }) ∧
    ((∀ l, d.legend = some l → l.Authored) → (c.config d').legend = (c.config d).legend) := by
  have hlegend : (c.config d').legend = d.legend.map fun l => Renderer.Legend.of l d'.marks := by
    rw [← extended.legend]
    rfl
  have hbefore : (c.config d).legend = d.legend.map fun l => Renderer.Legend.of l d.marks := rfl
  rw [hlegend, hbefore]
  constructor
  · intro l hl derived
    rw [hl, Option.map_some, Option.map_some, Option.map_some]
    unfold Renderer.Legend.of
    rw [Legend.labels_of_not_authored derived, Legend.labels_of_not_authored derived,
      extended.marks, List.map_append]
  · intro authored
    refine Option.map_congr fun l hl => ?_
    unfold Renderer.Legend.of
    rw [Legend.labels_of_authored (authored l hl) d'.marks d.marks]

/-- A document that compiles without diagnostics may grow: datasets, marks and axes are put
    behind the old ones, under new or old identifiers. Then its tables, series and axes are the
    old ones with the new ones behind them, a legend gets labels for the new marks unless its
    author gives the labels, all other blocks are the same, and all diagnostics are about new
    marks. -/
theorem compile_extend (extended : d'.Extends d datasets marks axes)
    (quiet : (c.compile d).diagnostics = []) :
    (c.compile d').config.tables = (c.compile d).config.tables ++ datasets.map Table.of ∧
    (c.compile d').config.allSeries =
      (c.compile d).config.allSeries ++ marks.map (Series.of c.defaults d'.datasets) ∧
    (c.compile d').config.xAxes =
      (c.compile d).config.xAxes ++
        (axes.filter (ChartDoc.Axis.isOriented .horizontal)).map Axis.of ∧
    (c.compile d').config.yAxes =
      (c.compile d).config.yAxes ++
        (axes.filter (ChartDoc.Axis.isOriented .vertical)).map Axis.of ∧
    (∀ l, d.legend = some l → ¬l.Authored →
      (c.compile d').config.legend = (c.compile d).config.legend.map fun g =>
        { g with data := g.data ++ marks.map Mark.displayName }) ∧
    ((∀ l, d.legend = some l → l.Authored) →
      (c.compile d').config.legend = (c.compile d).config.legend) ∧
    (c.compile d').config.title = (c.compile d).config.title ∧
    (c.compile d').config.tooltip = (c.compile d).config.tooltip ∧
    (c.compile d').config.grid = (c.compile d).config.grid ∧
    (c.compile d').diagnostics =
      (marks.filter fun m => m.datasetId ∉ d'.datasets.map Dataset.id).map fun m =>
        .unknownDataset m.id m.datasetId := by
  obtain ⟨hderived, hauthored⟩ := c.legend_of_extends extended
  refine ⟨?_, c.allSeries_of_extends extended quiet, ?_, ?_, hderived, hauthored, ?_, ?_, ?_,
    diagnostics_of_extends extended quiet⟩
  · show (c.config d').tables = (c.config d).tables ++ _
    rw [tables_config, tables_config, extended.datasets, List.map_append]
  · show (c.config d').xAxes = (c.config d).xAxes ++ _
    rw [xAxes_config, xAxes_config, extended.axes, List.filter_append, List.map_append]
  · show (c.config d').yAxes = (c.config d).yAxes ++ _
    rw [yAxes_config, yAxes_config, extended.axes, List.filter_append, List.map_append]
  · show (nonEmpty? d'.title).map Title.mk = (nonEmpty? d.title).map Title.mk
    rw [extended.title]
  · show d'.tooltip.map Renderer.Tooltip.of = d.tooltip.map Renderer.Tooltip.of
    rw [extended.tooltip]
  · show d'.grid.map Renderer.Grid.of = d.grid.map Renderer.Grid.of
    rw [extended.grid]

/-- A document with one mark, one axis and a legend that is labelled by marks. -/
def smallDocument : Document where
  title := none
  datasets := [⟨"a", [], []⟩]
  marks := [.bare "m" "a" .line]
  axes := some [.bare "x" .category .bottom]
  legend := some ⟨none, none, none⟩
  tooltip := none
  grid := none

/-- The same document with another dataset of the same name, a mark for it, a mark for a dataset
    that does not exist, and an axis on each side. -/
def grownDocument : Document :=
  { smallDocument with
    datasets := smallDocument.datasets ++ [⟨"a", [⟨"x", .string⟩], []⟩]
    marks := smallDocument.marks ++ [.bare "n" "a" .bar, .bare "o" "c" .pie]
    axes := some [.bare "x" .category .bottom, .bare "y" .value .left, .bare "z" .log .top] }

theorem compile_extend_grown :
    grownDocument.Extends smallDocument [⟨"a", [⟨"x", .string⟩], []⟩]
        [.bare "n" "a" .bar, .bare "o" "c" .pie] [.bare "y" .value .left, .bare "z" .log .top] ∧
      ((ofSettings .standard).compile smallDocument).diagnostics = [] ∧
      ((ofSettings .standard).compile grownDocument).config.xAxes =
        ((ofSettings .standard).compile smallDocument).config.xAxes ++
          [⟨.log, none, none, none⟩] ∧
      ((ofSettings .standard).compile grownDocument).config.legend =
        some { (Renderer.Legend.of ⟨none, none, none⟩ []) with data := ["m", "n", "o"] } ∧
      ((ofSettings .standard).compile grownDocument).diagnostics =
        [.unknownDataset "o" "c"] := by
  have extended : grownDocument.Extends smallDocument [⟨"a", [⟨"x", .string⟩], []⟩]
      [.bare "n" "a" .bar, .bare "o" "c" .pie] [.bare "y" .value .left, .bare "z" .log .top] :=
    ⟨rfl, rfl, rfl, rfl, rfl, rfl, rfl⟩
  have quiet : ((ofSettings .standard).compile smallDocument).diagnostics = [] := rfl
  have derived : ¬Legend.Authored ⟨none, none, none⟩ := by
    rintro ⟨label, labels, h⟩
    cases h
  obtain ⟨-, -, hx, -, hlegend, -, -, -, -, hdiagnostics⟩ :=
    compile_extend (ofSettings .standard) extended quiet
  exact ⟨extended, quiet, hx, hlegend _ rfl derived, hdiagnostics⟩

end Compiler

end ChartDoc
