/-
  Datasets of marks. A compiler looks for the dataset of a mark twice: for the diagnostics, and
  for the series of the mark. Both times it takes the first dataset with the identifier that the
  mark names, so a mark has a diagnostic exactly when its series falls back to the first
  dataset without being meant for it.
-/
import ChartDoc.Compiler

namespace ChartDoc

namespace Renderer

/-! ## The first dataset with an identifier -/

/-- `Resolves datasets id index`: the index is the least position of a dataset with the
    identifier, or zero if there is no such dataset. -/
def Resolves (datasets : List Dataset) (id : String) (index : Nat) : Prop :=
  (∃ x, datasets[index]? = some x ∧ x.id = id ∧
    ∀ j < index, ∀ y, datasets[j]? = some y → y.id ≠ id) ∨
  (index = 0 ∧ ∀ x ∈ datasets, x.id ≠ id)

theorem datasetIndex?_eq_some_iff {id : String} {datasets : List Dataset} {index : Nat} :
    datasetIndex? id datasets = some index ↔
      ∃ x, datasets[index]? = some x ∧ x.id = id ∧
        ∀ j < index, ∀ y, datasets[j]? = some y → y.id ≠ id := by
  rw [datasetIndex?, List.findIdx?_eq_some_iff_getElem]
  constructor
  · rintro ⟨hindex, hid, hleast⟩
    refine ⟨datasets[index], List.getElem?_eq_getElem hindex, by simpa using hid, ?_⟩
    intro j hj y hy
    obtain ⟨hlt, rfl⟩ := List.getElem?_eq_some_iff.mp hy
    simpa using hleast j hj
  · rintro ⟨x, hx, hid, hleast⟩
    obtain ⟨hindex, rfl⟩ := List.getElem?_eq_some_iff.mp hx
    refine ⟨hindex, by simpa using hid, fun j hj => ?_⟩
    have hne := hleast j hj _ (List.getElem?_eq_getElem (Nat.lt_trans hj hindex))
    simpa using hne

theorem datasetIndex?_eq_none_iff {id : String} {datasets : List Dataset} :
    datasetIndex? id datasets = none ↔ ∀ x ∈ datasets, x.id ≠ id := by
  simp [datasetIndex?, List.findIdx?_eq_none_iff]

theorem resolves_datasetIndex? (datasets : List Dataset) (id : String) :
    Resolves datasets id ((datasetIndex? id datasets).getD 0) := by
  cases h : datasetIndex? id datasets with
  | none => exact .inr ⟨rfl, datasetIndex?_eq_none_iff.mp h⟩
  | some index => exact .inl (datasetIndex?_eq_some_iff.mp h)

/-- An identifier has one index. -/
theorem Resolves.eq_datasetIndex? {datasets : List Dataset} {id : String} {index : Nat}
    (h : Resolves datasets id index) : index = (datasetIndex? id datasets).getD 0 := by
  rcases h with hfirst | ⟨rfl, hnone⟩
  · rw [datasetIndex?_eq_some_iff.mpr hfirst, Option.getD_some]
  · rw [datasetIndex?_eq_none_iff.mpr hnone, Option.getD_none]

theorem datasetIndex?_getD_eq_iff {datasets : List Dataset} {id id' : String} :
    (datasetIndex? id datasets).getD 0 = (datasetIndex? id' datasets).getD 0 ↔
      ∃ index, Resolves datasets id index ∧ Resolves datasets id' index := by
  constructor
  · exact fun h =>
      ⟨_, resolves_datasetIndex? datasets id, h ▸ resolves_datasetIndex? datasets id'⟩
  · rintro ⟨index, hid, hid'⟩
    rw [← hid.eq_datasetIndex?, ← hid'.eq_datasetIndex?]

/-- The dataset at the index has the identifier if any dataset has. -/
theorem Resolves.id_eq_iff {datasets : List Dataset} {id : String} {index : Nat} {x : Dataset}
    (h : Resolves datasets id index) (hx : datasets[index]? = some x) :
    x.id = id ↔ ∃ y ∈ datasets, y.id = id := by
  constructor
  · exact fun hid => ⟨x, List.mem_of_getElem? hx, hid⟩
  · rintro ⟨y, hy, hid⟩
    rcases h with ⟨z, hz, hzid, -⟩ | ⟨-, hnone⟩
    · rw [hx] at hz
      cases hz
      exact hzid
    · exact absurd hid (hnone y hy)

theorem Resolves.lt_length {datasets : List Dataset} {id : String} {index : Nat}
    (h : Resolves datasets id index) (hne : datasets ≠ []) : index < datasets.length := by
  rcases h with ⟨x, hx, -⟩ | ⟨rfl, -⟩
  · exact (List.getElem?_eq_some_iff.mp hx).1
  · exact List.length_pos_iff.mpr hne

/-- Whatever its geometry is, a series is drawn from the dataset of its mark. -/
theorem Series.of_datasetIndex (defaults : SeriesDefaults) (datasets : List Dataset) (m : Mark) :
    (Series.of defaults datasets m).datasetIndex =
      (datasetIndex? m.datasetId datasets).getD 0 := by
  unfold Series.of
  cases m.geometry <;> rfl

theorem Series.resolves (defaults : SeriesDefaults) (datasets : List Dataset) (m : Mark) :
    Resolves datasets m.datasetId (Series.of defaults datasets m).datasetIndex := by
  rw [Series.of_datasetIndex]
  exact resolves_datasetIndex? datasets m.datasetId

/-- As long as there are datasets, a mark names one of them exactly when the table that its
    series is drawn from has the identifier that the mark names. -/
theorem Series.exists_id_eq_iff (defaults : SeriesDefaults) {datasets : List Dataset}
    (hne : datasets ≠ []) (m : Mark) :
    (∃ x ∈ datasets, x.id = m.datasetId) ↔
      ∃ t : Table, (datasets.map Table.of)[(Series.of defaults datasets m).datasetIndex]? = some t ∧
        t.id = m.datasetId := by
  have hresolves := Series.resolves defaults datasets m
  have hx := List.getElem?_eq_getElem (hresolves.lt_length hne)
  rw [← hresolves.id_eq_iff hx, List.getElem?_map, hx, Option.map_some]
  constructor
  · exact fun h => ⟨_, rfl, h⟩
  · rintro ⟨t, ht, hid⟩
    cases ht
    exact hid

namespace Config

/-- The series of a configuration; a block that is absent has none. -/
def allSeries (c : Config) : List Series :=
  c.series.getD []

/-- The tables of a configuration; a block that is absent has none. -/
def tables (c : Config) : List Table :=
  c.dataset.getD []

end Config

end Renderer

open Renderer

namespace Compiler

theorem unlessEmpty_getD {α : Type} (xs : List α) : (unlessEmpty xs).getD [] = xs := by
  cases xs <;> rfl

theorem allSeries_config (c : Compiler) (d : Document) :
    (c.config d).allSeries = d.marks.map (Series.of c.defaults d.datasets) :=
  unlessEmpty_getD _

theorem tables_config (c : Compiler) (d : Document) :
    (c.config d).tables = d.datasets.map Table.of :=
  unlessEmpty_getD _

/-- There is one diagnostic for each mark that names no dataset, in the order of the marks. -/
theorem diagnostics_eq (d : Document) :
    diagnostics d =
      (d.marks.filter fun m => m.datasetId ∉ d.datasets.map Dataset.id).map fun m =>
        .unknownDataset m.id m.datasetId := by
  have hsame (m : Mark) : (datasetIndex? m.datasetId d.datasets).isNone =
      decide (m.datasetId ∉ d.datasets.map Dataset.id) := by
    rw [Bool.eq_iff_iff, Option.isNone_iff_eq_none, datasetIndex?_eq_none_iff]
    simp
  rw [diagnostics]
  simp only [hsame]

theorem diagnostics_eq_nil_iff (d : Document) :
    diagnostics d = [] ↔ ∀ m ∈ d.marks, ∃ x ∈ d.datasets, x.id = m.datasetId := by
  rw [diagnostics_eq, List.map_eq_nil_iff, List.filter_eq_nil_iff]
  simp

/-- A compiled document has a series for each mark and a table for each dataset, in order. Every
    series is drawn from the first dataset with the identifier that its mark names, or from the
    first dataset of all if there is none, and the marks of the second sort are the ones with a
    diagnostic. So as long as there are datasets, every series is drawn from a table, and there
    are no diagnostics exactly when every series is drawn from the dataset that its mark names. -/
theorem compile_resolves (c : Compiler) (d : Document) :
    (c.compile d).config.allSeries = d.marks.map (Series.of c.defaults d.datasets) ∧
    (c.compile d).config.tables = d.datasets.map Table.of ∧
    (∀ (i : Nat) (m : Mark), d.marks[i]? = some m →
      ∃ s : Series, (c.compile d).config.allSeries[i]? = some s ∧
        Resolves d.datasets m.datasetId s.datasetIndex) ∧
    (c.compile d).diagnostics =
      (d.marks.filter fun m => m.datasetId ∉ d.datasets.map Dataset.id).map (fun m =>
        .unknownDataset m.id m.datasetId) ∧
    (d.datasets ≠ [] →
      (∀ s ∈ (c.compile d).config.allSeries,
        s.datasetIndex < (c.compile d).config.tables.length) ∧
      ((c.compile d).diagnostics = [] ↔
        ∀ (i : Nat) (m : Mark), d.marks[i]? = some m →
          ∃ (s : Series) (t : Table), (c.compile d).config.allSeries[i]? = some s ∧
            (c.compile d).config.tables[s.datasetIndex]? = some t ∧ t.id = m.datasetId)) := by
  have hseries : (c.compile d).config.allSeries = d.marks.map (Series.of c.defaults d.datasets) :=
    c.allSeries_config d
  have htables : (c.compile d).config.tables = d.datasets.map Table.of := c.tables_config d
  rw [hseries, htables]
  refine ⟨rfl, rfl, fun i m hm => ?_, diagnostics_eq d, fun hne => ⟨fun s hs => ?_, ?_⟩⟩
  · exact ⟨_, by rw [List.getElem?_map, hm, Option.map_some], Series.resolves _ _ m⟩
  · obtain ⟨m, _, rfl⟩ := List.mem_map.mp hs
    rw [List.length_map]
    exact (Series.resolves _ _ m).lt_length hne
  · refine (diagnostics_eq_nil_iff d).trans ⟨fun h i m hm => ?_, fun h m hm => ?_⟩
    · have hnamed := h m (List.mem_of_getElem? hm)
      obtain ⟨t, ht, hid⟩ := (Series.exists_id_eq_iff c.defaults hne m).mp hnamed
      exact ⟨_, t, by rw [List.getElem?_map, hm, Option.map_some], ht, hid⟩
    · obtain ⟨i, hi⟩ := List.getElem?_of_mem hm
      obtain ⟨s, t, hs, ht, hid⟩ := h i m hi
      rw [List.getElem?_map, hi, Option.map_some] at hs
      cases hs
      exact (Series.exists_id_eq_iff c.defaults hne m).mpr ⟨t, ht, hid⟩

/-- A document with two datasets and a mark that names neither. -/
def strayDocument : Document where
  title := none
  datasets := [⟨"a", [], []⟩, ⟨"b", [], []⟩]
  marks := [.bare "m" "b" .bar, .bare "n" "c" .line]
  axes := none
  legend := none
  tooltip := none
  grid := none

theorem compile_strayDocument :
    strayDocument.datasets ≠ [] ∧
      (∀ s ∈ ((ofSettings .standard).compile strayDocument).config.allSeries,
        s.datasetIndex <
          ((ofSettings .standard).compile strayDocument).config.tables.length) ∧
      ((ofSettings .standard).compile strayDocument).diagnostics =
        [.unknownDataset "n" "c"] := by
  have hne : strayDocument.datasets ≠ [] := List.cons_ne_nil _ _
  obtain ⟨-, -, -, hdiagnostics, hbounds⟩ := compile_resolves (ofSettings .standard) strayDocument
  exact ⟨hne, (hbounds hne).1, hdiagnostics⟩

end Compiler

end ChartDoc
