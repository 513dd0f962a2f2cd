/-
  When two datasets have equal tables. Tables are compared cell by cell, and a cell comes from one
  raw text and the type of the column at its position, if there is a column. A text in a number
  column counts for the number at its front, or for nothing (`Cell.of_number`); everywhere else
  the text itself counts, the empty text included, although it makes the same cell as a text
  without a number does in a number column. Numbers are compared as numbers, so the two zeros are
  equal. So the tables of two datasets with the same columns are equal exactly when the datasets
  are read alike (`Dataset.ReadAlike`), and no row and no cell can be lost or moved.
-/
import ChartDoc.Renderer.Cell
import Mathlib.Data.List.Forall2

namespace ChartDoc

open Renderer

/-- Two raw texts are alike in a column of the given type, if there is a column. -/
def TextsAlike (raw raw' : String) (type : Option ColumnType) : Prop :=
  match type with
  | some .number =>
    ((leadingNumber? raw).map Binary64.finite == (leadingNumber? raw').map Binary64.finite) = true
  | _ => raw = raw'

/-- Two datasets are read alike by the columns of the first: they have the same identifier, as
    many rows, as many cells in rows at the same position, and alike texts in cells at the same
    position. -/
structure Dataset.ReadAlike (d e : Dataset) : Prop where
  id : d.id = e.id
  height : d.rows.length = e.rows.length
  width : ∀ (i : Nat) (cells cells' : List String), d.rows[i]? = some cells →
    e.rows[i]? = some cells' → cells.length = cells'.length
  texts : ∀ (i j : Nat) (cells cells' : List String) (raw raw' : String),
    d.rows[i]? = some cells → e.rows[i]? = some cells' → cells[j]? = some raw →
      cells'[j]? = some raw' → TextsAlike raw raw' (d.columnType? j)

/-! ## Lists -/

theorem list_beq_iff {α : Type} [BEq α] {xs ys : List α} :
    (xs == ys) = true ↔ List.Forall₂ (fun x y => (x == y) = true) xs ys := by
  induction xs generalizing ys with
  | nil => cases ys <;> simp
  | cons x xs ih =>
    cases ys with
    | nil => simp
    | cons y ys => rw [List.cons_beq_cons, Bool.and_eq_true, ih, List.forall₂_cons]

/-- Lists are equal when they have the same length and equal items at each position. -/
theorem list_beq_iff_getElem? {α : Type} [BEq α] {xs ys : List α} :
    (xs == ys) = true ↔ xs.length = ys.length ∧
      ∀ (i : Nat) (x y : α), xs[i]? = some x → ys[i]? = some y → (x == y) = true := by
  rw [list_beq_iff, List.forall₂_iff_get]
  refine and_congr_right fun hlength => ⟨?_, ?_⟩
  · intro h i x y hx hy
    obtain ⟨hi, rfl⟩ := List.getElem?_eq_some_iff.mp hx
    obtain ⟨hi', rfl⟩ := List.getElem?_eq_some_iff.mp hy
    exact h i hi hi'
  · intro h i hi hi'
    exact h i _ _ (List.getElem?_eq_getElem hi) (List.getElem?_eq_getElem hi')

/-! ## Cells -/

theorem leadingNumber?_empty : leadingNumber? "" = none := by
  decide +kernel

namespace Renderer

namespace Cell

variable {raw raw' : String} {type : Option ColumnType}

/-- The cell in a number column, which is nothing for the empty text like for other texts without
    a number. -/
theorem of_number (raw : String) :
    of raw (some .number) = ((leadingNumber? raw).map fun x => number (.finite x)).getD null := by
  unfold of
  split
  · rename_i hempty
    rw [hempty, leadingNumber?_empty]
    rfl
  · cases leadingNumber? raw <;> rfl

/-- The cell elsewhere. -/
theorem of_not_number (h : type ≠ some .number) (raw : String) :
    of raw type = if raw = "" then null else text raw := by
  unfold of
  split
  · rfl
  · split
    · exact absurd rfl h
    · rfl

theorem of_beq_iff : (of raw type == of raw' type) = true ↔ TextsAlike raw raw' type := by
  by_cases h : type = some .number
  · subst h
    rw [of_number, of_number]
    show _ ↔ (_ == _) = true
    cases leadingNumber? raw <;> cases leadingNumber? raw' <;> rfl
  · have htexts : TextsAlike raw raw' type ↔ raw = raw' := by
      unfold TextsAlike
      split
      · exact absurd rfl h
      · rfl
    rw [htexts, of_not_number h, of_not_number h]
    -- The empty text is the only one whose cell is null, so null says which text it was.
    by_cases hraw : raw = "" <;> by_cases hraw' : raw' = ""
    · rw [if_pos hraw, if_pos hraw']
      exact iff_of_true rfl (hraw.trans hraw'.symm)
    · rw [if_pos hraw, if_neg hraw']
      exact iff_of_false nofun fun heq => hraw' (heq ▸ hraw)
    · rw [if_neg hraw, if_pos hraw']
      exact iff_of_false nofun fun heq => hraw (heq ▸ hraw')
    · rw [if_neg hraw, if_neg hraw']
      show (raw == raw') = true ↔ _
      exact beq_iff_eq

end Cell

/-! ## Tables -/

namespace Table

theorem length_row (d : Dataset) (cells : List String) : (row d cells).length = cells.length := by
  simp [row]

theorem beq_eq (s t : Table) :
    (s == t) = (s.id == t.id && (s.dimensions == t.dimensions && s.source == t.source)) := rfl

/-- The rows of two datasets with the same columns are compared text by text. -/
theorem row_beq_iff {d e : Dataset} (columns : d.columns = e.columns)
    {cells cells' : List String} :
    (row d cells == row e cells') = true ↔ cells.length = cells'.length ∧
      ∀ (j : Nat) (raw raw' : String), cells[j]? = some raw → cells'[j]? = some raw' →
        TextsAlike raw raw' (d.columnType? j) := by
  have htypes (j : Nat) : e.columnType? j = d.columnType? j := by
    rw [Dataset.columnType?, Dataset.columnType?, columns]
  rw [list_beq_iff_getElem?, length_row, length_row]
  simp only [getElem?_row, htypes]
  refine and_congr_right fun _ => ⟨?_, ?_⟩
  · intro h j raw raw' hraw hraw'
    refine Cell.of_beq_iff.mp (h j _ _ ?_ ?_)
    · rw [hraw, Option.map_some]
    · rw [hraw', Option.map_some]
  · intro h j c c' hc hc'
    obtain ⟨raw, hraw, rfl⟩ := Option.map_eq_some_iff.mp hc
    obtain ⟨raw', hraw', rfl⟩ := Option.map_eq_some_iff.mp hc'
    exact Cell.of_beq_iff.mpr (h j raw raw' hraw hraw')

theorem source_beq_iff (d e : Dataset) :
    ((Table.of d).source == (Table.of e).source) = true ↔
      d.rows.length = e.rows.length ∧ ∀ (i : Nat) (cells cells' : List String),
        d.rows[i]? = some cells → e.rows[i]? = some cells' →
          (row d cells == row e cells') = true := by
  show (d.rows.map (row d) == e.rows.map (row e)) = true ↔ _
  rw [list_beq_iff_getElem?, List.length_map, List.length_map]
  simp only [List.getElem?_map, Option.map_eq_some_iff]
  refine and_congr_right fun _ => ⟨?_, ?_⟩
  · intro h i cells cells' hcells hcells'
    exact h i _ _ ⟨cells, hcells, rfl⟩ ⟨cells', hcells', rfl⟩
  · rintro h i _ _ ⟨cells, hcells, rfl⟩ ⟨cells', hcells', rfl⟩
    exact h i cells cells' hcells hcells'

/-- Two datasets with the same columns have equal tables exactly when they are read alike. -/
theorem of_beq_iff_readAlike {d e : Dataset} (columns : d.columns = e.columns) :
    (Table.of d == Table.of e) = true ↔ d.ReadAlike e := by
  have hdimensions : (Table.of d).dimensions = (Table.of e).dimensions :=
    congrArg (List.map Column.name) columns
  rw [beq_eq, hdimensions, Bool.and_eq_true, Bool.and_eq_true, source_beq_iff]
  simp only [beq_iff_eq, beq_self_eq_true, true_and, row_beq_iff columns]
  constructor
  · rintro ⟨hid, hheight, hrows⟩
    exact ⟨hid, hheight, fun i cells cells' hcells hcells' => (hrows i _ _ hcells hcells').1,
      fun i j cells cells' raw raw' hcells hcells' => (hrows i _ _ hcells hcells').2 j raw raw'⟩
  · intro h
    exact ⟨h.id, h.height, fun i cells cells' hcells hcells' =>
      ⟨h.width i _ _ hcells hcells', fun j raw raw' => h.texts i j _ _ raw raw' hcells hcells'⟩⟩

/-- A dataset with rows that are too long, too short and empty. -/
def raggedDataset : Dataset where
  id := "ragged"
  columns := [⟨"size", .number⟩, ⟨"note", .string⟩]
  rows := [["0", "", "beyond"], ["12px"], [], ["none", " x"]]

/-- The same dataset with other texts for the same numbers. -/
def respelledDataset : Dataset :=
  { raggedDataset with rows := [["-0.0", "", "beyond"], [" 1.2e1"], [], ["", " x"]] }

theorem of_beq_iff_readAlike_ragged :
    raggedDataset.columns = respelledDataset.columns ∧
      raggedDataset.ReadAlike respelledDataset := by
  have hcolumns : raggedDataset.columns = respelledDataset.columns := rfl
  have hequal : (Table.of raggedDataset == Table.of respelledDataset) = true := by
    decide +kernel
  exact ⟨hcolumns, (of_beq_iff_readAlike hcolumns).mp hequal⟩

end Table

end Renderer

end ChartDoc
