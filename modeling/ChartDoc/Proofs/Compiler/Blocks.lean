/-
  The blocks of configurations, and the nulls in them. A block has a key in the JSON form exactly
  when the document gives it something to hold, and no optional member is ever written as null.
  So as long as all numbers are finite, the only nulls are cells: those whose text is empty, and
  those of number columns whose text has no number in front (`compile_blocks`).
-/
import ChartDoc.Proofs.Compiler.Equality
import ChartDoc.Proofs.Compiler.Marks
import ChartDoc.Proofs.Json.Place

namespace ChartDoc

open Json

namespace Renderer

/-! ## Parts without null -/

theorem Title.nullFree (t : Title) : t.json.NullFree :=
  .record (.always (nullFree_string _))

theorem Axis.nullFree {a : Axis} (h : a.AllFinite) : a.json.NullFree :=
  .record ⟨.always (nullFree_vocabulary _), .whenSome_any nullFree_string,
    .whenSome fun x hx => nullFree_ofBinary64 (h.1 x hx),
    .whenSome fun x hx => nullFree_ofBinary64 (h.2 x hx)⟩

theorem OneOrMany.nullFree {α : Type} {encode : α → Json} {v : OneOrMany α}
    (h : ∀ a ∈ v.toList, (encode a).NullFree) : (v.json encode).NullFree := by
  cases v with
  | one a => exact h a List.mem_cons_self
  | many as => exact .list h

theorem SeriesEncoding.nullFree (e : SeriesEncoding) : e.json.NullFree :=
  .record ⟨.whenSome_any nullFree_string, .whenSome_any nullFree_string,
    .whenSome_any nullFree_string, .whenSome_any nullFree_string⟩

theorem LineStyle.nullFree {s : LineStyle} (h : s.AllFinite) : s.json.NullFree :=
  .record ⟨.whenSome_any nullFree_string, .whenSome fun x hx => nullFree_ofBinary64 (h x hx)⟩

theorem ItemStyle.nullFree {s : ItemStyle} (h : s.AllFinite) : s.json.NullFree :=
  .record ⟨.whenSome_any nullFree_string, .whenSome fun x hx => nullFree_ofBinary64 (h.1 x hx),
    .whenSome_any nullFree_string, .whenSome fun x hx => nullFree_ofBinary64 (h.2 x hx)⟩

theorem AreaStyle.nullFree {s : AreaStyle} (h : s.AllFinite) : s.json.NullFree :=
  .record (.whenSome fun x hx => nullFree_ofBinary64 (h x hx))

theorem Series.nullFree {s : Series} (h : s.AllFinite) : s.json.NullFree :=
  .record ⟨.always (nullFree_vocabulary _), .always (nullFree_string _), .always (nullFree_ofNat _),
    .whenSome_any SeriesEncoding.nullFree, .whenSome_any nullFree_bool,
    .whenSome_any nullFree_string, .whenSome fun style hs => LineStyle.nullFree (h.line style hs),
    .whenSome fun style hs => ItemStyle.nullFree (h.item style hs),
    .whenSome fun style hs => AreaStyle.nullFree (h.area style hs)⟩

theorem Legend.nullFree (l : Legend) : l.json.NullFree :=
  .record ⟨.whenSome_any nullFree_bool, .whenSome_any nullFree_string,
    .whenSome_any nullFree_string, .whenSome_any nullFree_string, .whenSome_any nullFree_string,
    .whenSome_any nullFree_vocabulary, .always (nullFree_ofStrings _)⟩

theorem Tooltip.nullFree (t : Tooltip) : t.json.NullFree :=
  .record ⟨.whenSome_any nullFree_bool, .whenSome_any nullFree_vocabulary⟩

theorem Grid.nullFree (g : Grid) : g.json.NullFree :=
  .record ⟨.whenSome_any nullFree_string, .whenSome_any nullFree_string,
    .whenSome_any nullFree_string, .whenSome_any nullFree_string, .whenSome_any nullFree_string,
    .whenSome_any nullFree_string, .whenSome_any nullFree_bool⟩

/-! ## Null cells -/

theorem Cell.at_null_iff {cell : Cell} (h : cell.AllFinite) {location : Location} :
    At cell.json location Json.null ↔ location = [] ∧ cell = null := by
  rcases h.cases with rfl | ⟨x, rfl⟩ | ⟨s, rfl⟩
  · constructor
    · intro hnull
      cases hnull
      exact ⟨rfl, rfl⟩
    · rintro ⟨rfl, -⟩
      exact .here _
  · exact iff_of_false nofun nofun
  · exact iff_of_false nofun nofun

/-- A cell is null when its text is empty, or has no number in front although it should. -/
theorem Cell.of_eq_null_iff {raw : String} {type : Option ColumnType} :
    Cell.of raw type = null ↔ raw = "" ∨ (type = some .number ∧ leadingNumber? raw = none) := by
  unfold Cell.of
  split
  · exact iff_of_true rfl (.inl ‹_›)
  · split
    · cases leadingNumber? raw <;> simp [*]
    · rename_i hraw type hnumber
      exact iff_of_false nofun fun h => h.elim hraw fun h => hnumber h.1

/-- Where the table of a dataset has a null cell. -/
theorem Table.of_null_iff {dataset : Dataset} {r j : Nat} :
    (∃ row, (Table.of dataset).source[r]? = some row ∧ row[j]? = some .null) ↔
      ∃ cells raw, dataset.rows[r]? = some cells ∧ cells[j]? = some raw ∧
        (raw = "" ∨ dataset.columnType? j = some .number ∧ leadingNumber? raw = none) := by
  have hsource : (Table.of dataset).source[r]? = dataset.rows[r]?.map (Table.row dataset) :=
    List.getElem?_map
  rw [hsource]
  constructor
  · rintro ⟨row, hrow, hcell⟩
    obtain ⟨cells, hcells, rfl⟩ := Option.map_eq_some_iff.mp hrow
    rw [Table.getElem?_row] at hcell
    obtain ⟨raw, hraw, hnull⟩ := Option.map_eq_some_iff.mp hcell
    exact ⟨cells, raw, hcells, hraw, Cell.of_eq_null_iff.mp hnull⟩
  · rintro ⟨cells, raw, hcells, hraw, hblank⟩
    refine ⟨Table.row dataset cells, by rw [hcells, Option.map_some], ?_⟩
    rw [Table.getElem?_row, hraw, Option.map_some, Cell.of_eq_null_iff.mpr hblank]

/-- The nulls of a table are its null cells. -/
theorem Table.at_null_iff {t : Table} (h : t.AllFinite) {location : Location} :
    At t.json location .null ↔ ∃ r i cells, location = [.key "source", .index r, .index i] ∧
      t.source[r]? = some cells ∧ cells[i]? = some .null := by
  have hrecord : At t.json location .null ↔ ∃ key v rest, location = .key key :: rest ∧
      Json.always "source" (.list (.list Cell.json) t.source) = some (key, v) ∧
        At v rest .null :=
    at_record_null_iff [_, _] []
      ⟨.always (nullFree_string _), .always (nullFree_ofStrings _)⟩ trivial
  rw [hrecord]
  constructor
  · rintro ⟨key, v, rest, rfl, ⟨⟩, hnull⟩
    obtain ⟨r, cells, rest, rfl, hcells, hnull⟩ := at_list_null_iff.mp hnull
    obtain ⟨i, cell, rest, rfl, hcell, hnull⟩ := at_list_null_iff.mp hnull
    have hfinite := h cells (List.mem_of_getElem? hcells) cell (List.mem_of_getElem? hcell)
    obtain ⟨rfl, rfl⟩ := (Cell.at_null_iff hfinite).mp hnull
    exact ⟨r, i, cells, rfl, hcells, hcell⟩
  · rintro ⟨r, i, cells, rfl, hcells, hcell⟩
    exact ⟨_, _, _, rfl, rfl, .list hcells (.list hcell (.here _))⟩

/-- The nulls of a configuration are those of its tables. -/
theorem Config.at_null_iff {c : Config} (h : c.AllFinite) {location : Location} :
    At c.json location .null ↔ ∃ i t rest, location = .key "dataset" :: .index i :: rest ∧
      c.tables[i]? = some t ∧ At t.json rest .null := by
  have axes {half : Option (OneOrMany Axis)}
      (hfinite : ∀ a ∈ (half.map OneOrMany.toList).getD [], a.AllFinite) (key : String) :
      MemberNullFree (Json.whenSome key (OneOrMany.json Axis.json) half) :=
    .whenSome fun v hv => OneOrMany.nullFree fun a ha =>
      Axis.nullFree (forall_of_toList hfinite v hv a ha)
  have hrecord : At c.json location .null ↔ ∃ key v rest, location = .key key :: rest ∧
      Json.whenSome "dataset" (.list Table.json) c.dataset = some (key, v) ∧ At v rest .null :=
    at_record_null_iff [_] [_, _, _, _, _, _]
      (.whenSome_any Title.nullFree)
      ⟨.whenSome fun ss hs => .list fun s hmem =>
          Series.nullFree (forall_of_getD h.series ss hs s hmem),
        axes h.xAxes _, axes h.yAxes _, .whenSome_any Legend.nullFree,
        .whenSome_any Tooltip.nullFree, .whenSome_any Grid.nullFree⟩
  rw [hrecord]
  unfold tables
  constructor
  · rintro ⟨key, v, rest, rfl, hmember, hnull⟩
    obtain ⟨ts, hts, hmember⟩ := Option.map_eq_some_iff.mp hmember
    cases hmember
    obtain ⟨i, t, rest, rfl, ht, hnull⟩ := at_list_null_iff.mp hnull
    exact ⟨i, t, rest, rfl, by rwa [hts], hnull⟩
  · rintro ⟨i, t, rest, rfl, ht, hnull⟩
    cases hts : c.dataset with
    | none => simp [hts] at ht
    | some ts =>
      rw [hts] at ht
      exact ⟨_, _, _, rfl, rfl, .list ht hnull⟩

end Renderer

/-! ## Blocks of a configuration -/

/-- What the keys of a configuration say about its document: which blocks have something to
    hold. -/
structure Document.Blocks (d : Document) (keys : List String) : Prop where
  order : keys.Sublist
    ["title", "dataset", "series", "xAxis", "yAxis", "legend", "tooltip", "grid"]
  title : "title" ∈ keys ↔ ∃ title, d.title = some title ∧ title ≠ ""
  dataset : "dataset" ∈ keys ↔ d.datasets ≠ []
  series : "series" ∈ keys ↔ d.marks ≠ []
  xAxis : "xAxis" ∈ keys ↔ ∃ a ∈ d.axes.getD [], a.position = .bottom ∨ a.position = .top
  yAxis : "yAxis" ∈ keys ↔ ∃ a ∈ d.axes.getD [], a.position = .left ∨ a.position = .right
  legend : "legend" ∈ keys ↔ d.legend ≠ none
  tooltip : "tooltip" ∈ keys ↔ d.tooltip ≠ none
  grid : "grid" ∈ keys ↔ d.grid ≠ none

/-- The locations, in a configuration for a document, of the cells without content: the text is
    empty, or the column is a number column and the text has no number in front. -/
def Document.BlankCell (d : Document) (location : Location) : Prop :=
  ∃ i r j dataset cells raw,
    location = [.key "dataset", .index i, .key "source", .index r, .index j] ∧
    d.datasets[i]? = some dataset ∧ dataset.rows[r]? = some cells ∧ cells[j]? = some raw ∧
    (raw = "" ∨ (∃ column, dataset.columns[j]? = some column ∧ column.type = .number) ∧
      leadingNumber? raw = none)

/-- The keys of a record whose first member may be absent. -/
theorem Json.mem_keys_whenSome {α : Type} {key name : String} {encode : α → Json}
    {content : Option α} {ms : List (Option (String × Json))} :
    name ∈ Entries.keys ((whenSome key encode content :: ms).filterMap id) ↔
      (name = key ∧ content ≠ none) ∨ name ∈ Entries.keys (ms.filterMap id) := by
  cases content with
  | none => simp [whenSome]
  | some a => simp [whenSome, Entries.keys]

theorem Json.keys_whenSome_sublist {α : Type} {key : String} {keys : List String}
    {encode : α → Json} {content : Option α} {ms : List (Option (String × Json))}
    (h : (Entries.keys (ms.filterMap id)).Sublist keys) :
    (Entries.keys ((whenSome key encode content :: ms).filterMap id)).Sublist (key :: keys) := by
  cases content with
  | none => exact h.cons key
  | some a => exact h.cons_cons key

open Renderer

/-- Each block of a configuration has a key of its own, in a fixed order. -/
theorem Renderer.Config.exists_keys (c : Config) : ∃ members, c.json = .object members ∧
    (Entries.keys members).Sublist
      ["title", "dataset", "series", "xAxis", "yAxis", "legend", "tooltip", "grid"] ∧
    ∀ name, name ∈ Entries.keys members ↔
      (name = "title" ∧ c.title ≠ none) ∨ (name = "dataset" ∧ c.dataset ≠ none) ∨
      (name = "series" ∧ c.series ≠ none) ∨ (name = "xAxis" ∧ c.xAxis ≠ none) ∨
      (name = "yAxis" ∧ c.yAxis ≠ none) ∨ (name = "legend" ∧ c.legend ≠ none) ∨
      (name = "tooltip" ∧ c.tooltip ≠ none) ∨ (name = "grid" ∧ c.grid ≠ none) := by
  refine ⟨_, rfl, ?_, fun name => ?_⟩
  · iterate 8 refine keys_whenSome_sublist ?_
    exact .refl []
  · have hnil : name ∉ Entries.keys (List.filterMap id ([] : List (Option (String × Json)))) :=
      List.not_mem_nil
    simp only [mem_keys_whenSome, hnil, or_false]

namespace Compiler

variable {c : Compiler} {d : Document}

theorem unlessEmpty_map_ne_none_iff {α β : Type} {f : α → β} {xs : List α} :
    unlessEmpty (xs.map f) ≠ none ↔ xs ≠ [] := by
  cases xs <;> simp [unlessEmpty]

theorem half_ne_none_iff {o : Orientation} {axes : List ChartDoc.Axis} :
    Axes.half o axes ≠ none ↔ ∃ a ∈ axes, a.position.orientation = o := by
  have hnone {xs : List Renderer.Axis} : OneOrMany.ofList? xs = none ↔ xs = [] := by
    match xs with
    | [] => exact iff_of_true rfl rfl
    | [_] => exact iff_of_false nofun nofun
    | _ :: _ :: _ => exact iff_of_false nofun nofun
  unfold Axes.half
  rw [Ne, hnone, List.map_eq_nil_iff, List.filter_eq_nil_iff]
  simp [ChartDoc.Axis.isOriented]

/-- A block is written exactly when the document gives it something to hold. -/
theorem exists_blocks (c : Compiler) (d : Document) : ∃ members,
    (c.config d).json = .object members ∧ d.Blocks (Entries.keys members) := by
  have htitle : (c.config d).title ≠ none ↔ ∃ title, d.title = some title ∧ title ≠ "" :=
    (not_congr Option.map_eq_none_iff).trans nonEmpty?_ne_none_iff
  have hdataset : (c.config d).dataset ≠ none ↔ d.datasets ≠ [] := unlessEmpty_map_ne_none_iff
  have hseries : (c.config d).series ≠ none ↔ d.marks ≠ [] := unlessEmpty_map_ne_none_iff
  have hx : (c.config d).xAxis ≠ none ↔ ∃ a ∈ d.axes.getD [],
      a.position = .bottom ∨ a.position = .top := by
    refine half_ne_none_iff.trans (exists_congr fun a => and_congr_right fun _ => ?_)
    cases a.position <;> decide
  have hy : (c.config d).yAxis ≠ none ↔ ∃ a ∈ d.axes.getD [],
      a.position = .left ∨ a.position = .right := by
    refine half_ne_none_iff.trans (exists_congr fun a => and_congr_right fun _ => ?_)
    cases a.position <;> decide
  have hlegend : (c.config d).legend ≠ none ↔ d.legend ≠ none := not_congr Option.map_eq_none_iff
  have htooltip : (c.config d).tooltip ≠ none ↔ d.tooltip ≠ none :=
    not_congr Option.map_eq_none_iff
  have hgrid : (c.config d).grid ≠ none ↔ d.grid ≠ none := not_congr Option.map_eq_none_iff
  obtain ⟨members, hjson, horder, hkeys⟩ := Config.exists_keys (c.config d)
  simp only [htitle, hdataset, hseries, hx, hy, hlegend, htooltip, hgrid] at hkeys
  refine ⟨members, hjson, ⟨horder, ?_, ?_, ?_, ?_, ?_, ?_, ?_, ?_⟩⟩ <;> simp [hkeys]

/-- The nulls of a configuration are its cells without content. -/
theorem at_null_iff (hc : c.settings.areaOpacity.isFinite = true) (hd : d.AllFinite)
    {location : Location} : At (c.config d).json location .null ↔ d.BlankCell location := by
  have hfinite := config_allFinite hc hd
  rw [Config.at_null_iff hfinite, tables_config]
  constructor
  · rintro ⟨i, t, rest, rfl, ht, hnull⟩
    have htable := hfinite.tables t (by rw [tables_config]; exact List.mem_of_getElem? ht)
    obtain ⟨r, j, row, rfl, hcell⟩ := (Table.at_null_iff htable).mp hnull
    rw [List.getElem?_map] at ht
    obtain ⟨dataset, hdataset, rfl⟩ := Option.map_eq_some_iff.mp ht
    obtain ⟨cells, raw, hcells, hraw, hblank⟩ := Table.of_null_iff.mp ⟨row, hcell⟩
    rw [Dataset.columnType?, Option.map_eq_some_iff] at hblank
    exact ⟨i, r, j, dataset, cells, raw, rfl, hdataset, hcells, hraw, hblank⟩
  · rintro ⟨i, r, j, dataset, cells, raw, rfl, hdataset, hcells, hraw, hblank⟩
    have ht : (d.datasets.map Table.of)[i]? = some (Table.of dataset) := by
      rw [List.getElem?_map, hdataset, Option.map_some]
    have htable := hfinite.tables _ (by rw [tables_config]; exact List.mem_of_getElem? ht)
    rw [← Option.map_eq_some_iff, ← Dataset.columnType?] at hblank
    obtain ⟨row, hcell⟩ := Table.of_null_iff.mpr ⟨cells, raw, hcells, hraw, hblank⟩
    exact ⟨i, _, _, rfl, ht, (Table.at_null_iff htable).mpr ⟨r, j, row, rfl, hcell⟩⟩

/-- The JSON form of a configuration is an object with a key for each block that the document
    gives something to hold, in a fixed order. If all numbers of the document and the opacity of
    the compiler are finite, the only nulls in it are the cells without content: no absent member
    is written as null, at any depth, and no number is. -/
theorem compile_blocks (hc : c.settings.areaOpacity.isFinite = true) (hd : d.AllFinite) :
    (∃ members, (c.compile d).config.json = .object members ∧ d.Blocks (Entries.keys members)) ∧
    ∀ location, At (c.compile d).config.json location .null ↔ d.BlankCell location :=
  ⟨exists_blocks c d, fun _ => at_null_iff hc hd⟩

/-- A number beyond the range of floats is no number, so its cell has no content. -/
theorem compile_blocks_overflow :
    (ofSettings .standard).settings.areaOpacity.isFinite = true ∧
      (sizedDocument "1e999").AllFinite ∧
      (∃ members,
        ((ofSettings .standard).compile (sizedDocument "1e999")).config.json = .object members ∧
          Entries.keys members = ["dataset", "series"] ∧
          (sizedDocument "1e999").Blocks (Entries.keys members)) ∧
      At ((ofSettings .standard).compile (sizedDocument "1e999")).config.json
        [.key "dataset", .index 0, .key "source", .index 0, .index 0] .null := by
  have hopacity : (ofSettings .standard).settings.areaOpacity.isFinite = true := by
    decide +kernel
  have hfinite := sizedDocument_allFinite "1e999"
  obtain ⟨⟨members, hjson, hblocks⟩, hnull⟩ := compile_blocks hopacity hfinite
  have hblank : (sizedDocument "1e999").BlankCell
      [.key "dataset", .index 0, .key "source", .index 0, .index 0] :=
    ⟨0, 0, 0, _, _, _, rfl, rfl, rfl, rfl, .inr ⟨⟨_, rfl, rfl⟩, by decide +kernel⟩⟩
  refine ⟨hopacity, hfinite, ⟨members, hjson, ?_, hblocks⟩, (hnull _).mpr hblank⟩
  cases hjson
  rfl

end Compiler

end ChartDoc
