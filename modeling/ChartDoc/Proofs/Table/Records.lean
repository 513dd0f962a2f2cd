/-
  The table of a dataset that was made from records, told from the records alone.

  `Records.Shows numbers value cell` says which cell shows the value that a record has under a
  header, if it has one; `numbers` says whether every value under the header, in all records, is
  a number or null. Loading writes a number as text and making the table reads it again. The
  text is that of a literal that stands for the number, and the reader takes all of it, so
  nothing is lost on the way (`leadingNumber?_numberText`).
-/
import ChartDoc.Proofs.Binary64.ReadBack
import ChartDoc.Proofs.Decimal.Scan
import ChartDoc.Renderer.Cell
import ChartDoc.Table.Records
import Mathlib.Data.List.Forall2

namespace ChartDoc

/-! ## Texts of numbers -/

namespace Json.Number

/-- The literal that a number is written as. -/
def literal : Number → Literal
  | whole n _ =>
    { sign := if n < 0 then some .minus else none, whole := Digit.ofNat n.natAbs, fraction := none,
      exponent := none, some_digit := fun h => Digit.ofNat_ne_nil _ h.1 }
  | float x => x.literal style

theorem text_eq (n : Number) : n.text = String.ofList n.literal.text := by
  cases n with
  | whole n fits =>
    show integerText n = _
    unfold integerText naturalText
    split
    · rename_i hneg
      simp [literal, Literal.text, Literal.fractionText, Literal.exponentText, hneg, Sign.text,
        Sign.char]
    · rename_i hneg
      simp [literal, Literal.text, Literal.fractionText, Literal.exponentText, hneg, Sign.text]
  | float x => rfl

theorem value_literal (n : Number) : n.literal.value = n.toBinary64 := by
  cases n with
  | whole n fits =>
    have hsign : decide ((if n < 0 then some Sign.minus else none) = some Sign.minus) =
        decide (n < 0) := by
      split <;> simp [*]
    show Binary64.ofDecimal (decide ((if n < 0 then some Sign.minus else none) = some Sign.minus))
      (Digit.number (Digit.ofNat n.natAbs ++ [])) 0 = Binary64.ofDecimal (decide (n < 0)) n.natAbs 0
    rw [hsign, List.append_nil, Digit.number_ofNat]
  | float x => exact x.value_literal style

end Json.Number

/-- The number at the front of the text of a number is the number. -/
theorem leadingNumber?_numberText (n : Json.Number) :
    ∃ x, leadingNumber? n.text = some x ∧ n.toBinary64 = .finite x := by
  obtain ⟨x, hx⟩ := Binary64.isFinite_iff.mp n.toBinary64_isFinite
  refine ⟨x, ?_, hx⟩
  rw [n.text_eq, leadingNumber?_text, n.value_literal, hx]
  rfl

theorem Json.Number.text_ne_empty (n : Json.Number) : n.text ≠ "" := by
  rw [n.text_eq]
  intro h
  have hnil : n.literal.text = [] := by
    have htoList := congrArg String.toList h
    rwa [String.toList_ofList] at htoList
  exact n.literal.text_ne_nil hnil

/-! ## Cells -/

open Renderer

namespace Records

/-- Every value under a header is a number or null. -/
def OnlyNumbers (records : List (Entries Json)) (header : String) : Prop :=
  ∀ record ∈ records, ∀ v, List.lookup header record = some v → v ≠ .null → ∃ n, v = .number n

/-- The cell that shows the value of a record under a header. -/
inductive Shows (numbers : Prop) : Option Json → Cell → Prop where
  | missing : Shows numbers none .null
  | null : Shows numbers (some .null) .null
  | emptyText : Shows numbers (some (.string "")) .null
  | number (only : numbers) (n : Json.Number) :
    Shows numbers (some (.number n)) (.number n.toBinary64)
  | numeral (mixed : ¬numbers) (n : Json.Number) :
    Shows numbers (some (.number n)) (.text n.text)
  | text {s : String} (full : s ≠ "") : Shows numbers (some (.string s)) (.text s)
  | true : Shows numbers (some (.bool true)) (.text "true")
  | false : Shows numbers (some (.bool false)) (.text "false")

theorem isNull_eq_false_iff {v : Json} : isNull v = false ↔ v ≠ .null := by
  cases v <;> simp [isNull]

theorem isNumber_iff {v : Json} : isNumber v = true ↔ ∃ n, v = .number n := by
  cases v <;> simp [isNumber]

/-- A column has numbers when it has a value and every value in it is a number. -/
theorem columnType_eq_number_iff {values : List Json} :
    columnType values = .number ↔
      (∃ v ∈ values, v ≠ .null) ∧ ∀ v ∈ values, v ≠ .null → ∃ n, v = .number n := by
  have hpresent : ∀ v, v ∈ values.filter (fun v => !isNull v) ↔ v ∈ values ∧ v ≠ .null := by
    intro v
    rw [List.mem_filter, Bool.not_eq_true', isNull_eq_false_iff]
  unfold columnType
  simp only []
  split
  · rename_i h
    rw [Bool.and_eq_true, Bool.not_eq_true', List.isEmpty_eq_false_iff_exists_mem,
      List.all_eq_true] at h
    obtain ⟨⟨v, hv⟩, hall⟩ := h
    refine ⟨fun _ => ⟨⟨v, (hpresent v).mp hv⟩, fun w hw hne => ?_⟩, fun _ => rfl⟩
    exact isNumber_iff.mp (hall w ((hpresent w).mpr ⟨hw, hne⟩))
  · rename_i h
    refine ⟨nofun, fun ⟨⟨v, hv, hne⟩, hall⟩ => absurd ?_ h⟩
    rw [Bool.and_eq_true, Bool.not_eq_true', List.isEmpty_eq_false_iff_exists_mem,
      List.all_eq_true]
    refine ⟨⟨v, (hpresent v).mpr ⟨hv, hne⟩⟩, fun w hw => ?_⟩
    obtain ⟨hmem, hnotnull⟩ := (hpresent w).mp hw
    exact isNumber_iff.mpr (hall w hmem hnotnull)

theorem filterMap_get? (records : List (Entries Json)) (header : String) :
    (records.map Json.object).filterMap (Json.get? header) =
      records.filterMap (List.lookup header) := by
  rw [List.filterMap_map]
  rfl

/-- The type of the column of a header under which some record has a value. -/
theorem columnType_iff {records : List (Entries Json)} {header : String} {record : Entries Json}
    (hmem : record ∈ records) {v : Json} (given : List.lookup header record = some v)
    (hne : v ≠ .null) :
    (column (records.map .object) header).type = .number ↔ OnlyNumbers records header := by
  show columnType ((records.map Json.object).filterMap (Json.get? header)) = .number ↔ _
  rw [filterMap_get?, columnType_eq_number_iff]
  constructor
  · rintro ⟨-, hall⟩ record' hmem' w given'
    exact hall w (List.mem_filterMap.mpr ⟨record', hmem', given'⟩)
  · intro hall
    refine ⟨⟨v, List.mem_filterMap.mpr ⟨record, hmem, given⟩, hne⟩, fun w hw => ?_⟩
    obtain ⟨record', hmem', given'⟩ := List.mem_filterMap.mp hw
    exact hall record' hmem' w given'

theorem columnType_of_not_number {records : List (Entries Json)} {header : String}
    {record : Entries Json} (hmem : record ∈ records) {v : Json}
    (given : List.lookup header record = some v) (hne : v ≠ .null)
    (hnumber : ∀ n, v ≠ .number n) : (column (records.map .object) header).type = .string := by
  have hnot : ¬OnlyNumbers records header := fun hall =>
    (hall record hmem v given hne).elim hnumber
  rw [← columnType_iff hmem given hne] at hnot
  cases htype : (column (records.map .object) header).type with
  | string => rfl
  | number => exact absurd htype hnot

theorem of_text {raw : String} (h : raw ≠ "") : Cell.of raw (some .string) = .text raw :=
  if_neg h

theorem of_numberText (n : Json.Number) : Cell.of n.text (some .number) = .number n.toBinary64 := by
  obtain ⟨x, hread, hfloat⟩ := leadingNumber?_numberText n
  unfold Cell.of
  rw [if_neg n.text_ne_empty]
  simp only [hread, hfloat]

/-- The cell of a loaded value shows the value. -/
theorem shows_of_cell? {records : List (Entries Json)} {header : String} {record : Entries Json}
    (hmem : record ∈ records) {raw : String}
    (hraw : cell? (List.lookup header record) = some raw) :
    Shows (OnlyNumbers records header) (List.lookup header record)
      (Cell.of raw (some (column (records.map .object) header).type)) := by
  cases given : List.lookup header record with
  | none =>
    rw [given] at hraw
    cases hraw
    exact .missing
  | some v =>
    rw [given] at hraw
    cases v with
    | null =>
      cases hraw
      exact .null
    | bool b =>
      have htype := columnType_of_not_number hmem given (by simp) (by simp)
      cases hraw
      rw [htype]
      cases b with
      | true => exact .true
      | false => exact .false
    | number n =>
      have htype := columnType_iff hmem given (by simp)
      cases hraw
      by_cases only : OnlyNumbers records header
      · rw [htype.mpr only, of_numberText]
        exact .number only n
      · have hstring : (column (records.map .object) header).type = .string := by
          cases hcolumn : (column (records.map .object) header).type with
          | string => rfl
          | number => exact absurd (htype.mp hcolumn) only
        rw [hstring, of_text n.text_ne_empty]
        exact .numeral only n
    | string s =>
      have htype := columnType_of_not_number hmem given (by simp) (by simp)
      cases hraw
      rw [htype]
      by_cases hempty : raw = ""
      · rw [hempty]
        exact .emptyText
      · rw [of_text hempty]
        exact .text hempty
    | array items => cases hraw
    | object members => cases hraw

/-! ## Rows -/

theorem mapM_eq_ok_iff {α β ε : Type} {f : α → Except ε β} {xs : List α} {ys : List β} :
    xs.mapM f = .ok ys ↔ List.Forall₂ (fun x y => f x = .ok y) xs ys := by
  induction xs generalizing ys with
  | nil => cases ys <;> simp [pure, Except.pure]
  | cons x xs ih =>
    rw [List.mapM_cons]
    cases hx : f x with
    | error e => cases ys <;> simp [bind, Except.bind, hx]
    | ok y =>
      cases hxs : xs.mapM f with
      | error e => cases ys <;> simp [bind, Except.bind, ← ih, hxs, hx]
      | ok zs => cases ys <;> simp [bind, Except.bind, pure, Except.pure, ← ih, hxs, hx]

/-- A row that is loaded has the cells of its record. -/
theorem row_eq_ok {headers : List String} {position : Nat} {record : Entries Json}
    {cells : List String} (h : row headers position record = .ok cells) :
    List.Forall₂ (fun header raw => cell? (List.lookup header record) = some raw) headers cells := by
  refine (mapM_eq_ok_iff.mp h).imp fun header raw hcell => ?_
  split at hcell
  · rename_i cell hraw
    cases hcell
    exact hraw
  · cases hcell

/-- Items that are loaded are records, and each has its row. -/
theorem rows_eq_ok {headers : List String} {position : Nat} {items : List Json}
    {rows : List (List String)} (h : Records.rows headers position items = .ok rows) :
    ∃ records : List (Entries Json), items = records.map .object ∧
      List.Forall₂ (fun record cells => List.Forall₂ (fun header raw =>
        cell? (List.lookup header record) = some raw) headers cells) records rows := by
  induction items generalizing position rows with
  | nil =>
    cases h
    exact ⟨[], rfl, .nil⟩
  | cons item items ih =>
    unfold Records.rows at h
    cases hrow : itemRow headers position item with
    | error e =>
      rw [hrow] at h
      cases h
    | ok cells =>
      cases hrest : Records.rows headers (position + 1) items with
      | error e =>
        rw [hrow, hrest] at h
        cases h
      | ok rest =>
        rw [hrow, hrest] at h
        cases h
        obtain ⟨records, rfl, hrecords⟩ := ih hrest
        cases item with
        | object record => exact ⟨record :: records, rfl, .cons (row_eq_ok hrow) hrecords⟩
        | _ => cases hrow

/-- The cells of a row are read by the types of the columns, column by column. -/
theorem forall₂_row {d : Dataset} {headers : List String} {type : String → ColumnType}
    {R : String → String → Prop} {cells : List String} {position : Nat}
    (hcells : List.Forall₂ R headers cells)
    (htypes : ∀ i, d.columnType? (position + i) = headers[i]?.map type) :
    List.Forall₂ (fun header cell => ∃ raw, R header raw ∧ cell = Cell.of raw (some (type header)))
      headers ((cells.zipIdx position).map fun e => Cell.of e.1 (d.columnType? e.2)) := by
  induction hcells generalizing position with
  | nil => exact .nil
  | cons hcell _ ih =>
    rw [List.zipIdx_cons, List.map_cons]
    refine .cons ⟨_, hcell, ?_⟩ (ih fun i => ?_)
    · have hfirst := htypes 0
      rw [Nat.add_zero] at hfirst
      rw [hfirst]
      rfl
    · have hnext := htypes (i + 1)
      rwa [← Nat.add_assoc, Nat.add_right_comm] at hnext

/-- Records that make a dataset, and the dataset that they make. -/
theorem ofRecords_eq_ok {id : String} {v : Json} {d : Dataset}
    (h : Dataset.ofRecords id v = .ok d) :
    ∃ (first : Entries Json) (rest : List (Entries Json)) (rows : List (List String)),
      v = .array ((first :: rest).map .object) ∧
      d = ⟨id, first.keys.map (column ((first :: rest).map .object)), rows⟩ ∧
      List.Forall₂ (fun record cells => List.Forall₂ (fun header raw =>
        cell? (List.lookup header record) = some raw) first.keys cells) (first :: rest) rows := by
  unfold Dataset.ofRecords at h
  split at h
  · cases h
  · rename_i first items
    simp only [] at h
    cases hrows : Records.rows (Entries.keys first) 0 (.object first :: items) with
    | error e =>
      rw [hrows] at h
      cases h
    | ok rows =>
      rw [hrows] at h
      cases h
      obtain ⟨records, hrecords, hcells⟩ := rows_eq_ok hrows
      cases records with
      | nil => cases hrecords
      | cons record rest =>
        cases hrecords
        exact ⟨first, rest, rows, rfl, rfl, hcells⟩
  · cases h
  · cases h

end Records

/-- The table of a dataset made from records loses nothing: its dimensions are the keys of the
    first record, it has a row for each record and in it a cell for each key, and the cell shows
    the value that the record has under the key. -/
theorem Dataset.table_ofRecords {id : String} {v : Json} {d : Dataset}
    (h : ofRecords id v = .ok d) :
    ∃ first rest, v = .array ((first :: rest).map .object) ∧
      (Table.of d).dimensions = Entries.keys first ∧
      List.Forall₂ (fun record cells => List.Forall₂ (fun header cell =>
          Records.Shows (Records.OnlyNumbers (first :: rest) header)
            (List.lookup header record) cell)
        (Entries.keys first) cells) (first :: rest) (Table.of d).source := by
  obtain ⟨first, rest, rows, rfl, rfl, hrows⟩ := Records.ofRecords_eq_ok h
  refine ⟨first, rest, rfl, ?_, ?_⟩
  · show (first.keys.map _).map Column.name = _
    rw [List.map_map]
    exact List.map_id _
  · have htypes (i : Nat) : columnType?
        ⟨id, first.keys.map (Records.column ((first :: rest).map .object)), rows⟩ (0 + i) =
        first.keys[i]?.map fun header =>
          (Records.column ((first :: rest).map .object) header).type := by
      rw [columnType?, Nat.zero_add, List.getElem?_map, Option.map_map]
      rfl
    have hmembers := (List.forall₂_and_left _ _).mpr
      ⟨fun record (hmem : record ∈ first :: rest) => hmem, hrows⟩
    refine List.forall₂_map_right_iff.mpr (hmembers.imp ?_)
    rintro record cells ⟨hmem, hcells⟩
    refine (Records.forall₂_row hcells htypes).imp ?_
    rintro header cell ⟨raw, hraw, rfl⟩
    exact Records.shows_of_cell? hmem hraw

/-- Records with a number column, whose numbers are written as a great whole number, with a sign
    and with exponents, and a column with other values in it. -/
def mixedRecords : Json :=
  .array
    [.object [("size", .number (.whole 18446744073709551615 (by decide))), ("tag", .string "a")],
     .object [("tag", .number (.whole (-7) (by decide))), ("size", .null)],
     .object [("size", .number (.float ⟨true, 1, by decide⟩)), ("tag", .bool true),
       ("more", .array [])],
     .object [("size", .number (.float ⟨false, 0x7FEFFFFFFFFFFFFF, by decide⟩)),
       ("tag", .string "")]]

/-- The dataset that the mixed records make. -/
def mixedDataset : Dataset where
  id := "mixed"
  columns := [⟨"size", .number⟩, ⟨"tag", .string⟩]
  rows :=
    [["18446744073709551615", "a"], ["", "-7"], ["-5e-324", "true"], ["1.7976931348623157e+308", ""]]

theorem Dataset.table_mixedRecords :
    ofRecords "mixed" mixedRecords = .ok mixedDataset ∧
      (Table.of mixedDataset).dimensions = ["size", "tag"] ∧
      (Table.of mixedDataset).source.length = 4 := by
  have hload : ofRecords "mixed" mixedRecords = .ok mixedDataset := by decide +kernel
  obtain ⟨first, rest, hrecords, hdimensions, hsource⟩ := table_ofRecords hload
  have hitems := Json.array.inj hrecords
  have hfirst := Json.object.inj (List.cons.inj hitems).1
  have hlength := congrArg List.length hitems
  refine ⟨hload, ?_, ?_⟩
  · rw [hdimensions, ← hfirst]
    rfl
  · rw [← hsource.length_eq, ← List.length_map Json.object, ← hlength]
    rfl

end ChartDoc
