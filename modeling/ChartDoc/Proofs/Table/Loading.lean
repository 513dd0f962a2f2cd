/-
  Which records are loaded, as what, and why others are refused. Three relations say it without
  the loader. `Records.Tabulates` relates records to the dataset that they make: a column for each
  key of the first record, and in each record's row the text of its value under each of these
  keys. `Records.FaultAt` says which items, and which values in records, no dataset can be made
  of; a fault has an address, the index of the item and then that of the column. `Records.Refused`
  says which error an input that is refused has: it is the fault with the first address, once
  there is a first record.

  The loader goes through the items in order and through the columns for each of them, and stops
  at the first fault (`Records.findsFirst_rows`). It reads records under the keys of the first one
  only, so what they have under other keys changes nothing (`Dataset.ofRecords_outcome`).
-/
import ChartDoc.Proofs.Foremost
import ChartDoc.Proofs.Table.Records

namespace ChartDoc

/-! ## Errors of computations -/

/-- The error of a computation that fails. -/
def errorOf? {α ε : Type} : Except ε α → Option ε
  | .error e => some e
  | .ok _ => none

theorem errorOf?_eq_some_iff {α ε : Type} {result : Except ε α} {e : ε} :
    errorOf? result = some e ↔ result = .error e := by
  cases result <;> simp [errorOf?]

theorem errorOf?_eq_none_iff {α ε : Type} {result : Except ε α} :
    errorOf? result = none ↔ ∃ a, result = .ok a := by
  cases result <;> simp [errorOf?]

/-- Computations one after the other fail with the first error. -/
theorem errorOf?_mapM {α β ε : Type} (f : α → Except ε β) (xs : List α) :
    errorOf? (xs.mapM f) = xs.findSome? fun x => errorOf? (f x) := by
  induction xs with
  | nil => rfl
  | cons x xs ih =>
    rw [List.mapM_cons, List.findSome?_cons]
    cases f x with
    | error e => rfl
    | ok y =>
      show errorOf? (xs.mapM f >>= fun ys => pure (y :: ys)) = xs.findSome? fun x => errorOf? (f x)
      rw [← ih]
      cases xs.mapM f <;> rfl

theorem mapM_congr {α β ε : Type} {f g : α → Except ε β} {xs : List α}
    (h : ∀ x ∈ xs, f x = g x) : xs.mapM f = xs.mapM g := by
  induction xs with
  | nil => rfl
  | cons x xs ih =>
    obtain ⟨hx, hxs⟩ := List.forall_mem_cons.mp h
    rw [List.mapM_cons, List.mapM_cons, hx, ih hxs]

namespace Records

variable {id : String} {headers : List String} {header : String} {record : Entries Json}
  {records : List (Entries Json)} {item item' v : Json} {items items' : List Json} {d : Dataset}
  {e : RecordsError}

/-! ## Cells -/

/-- `Spelled value raw`: the text in the cell for a value, which may be missing. -/
inductive Spelled : Option Json → String → Prop where
  | missing : Spelled none ""
  | null : Spelled (some .null) ""
  | true : Spelled (some (.bool true)) "true"
  | false : Spelled (some (.bool false)) "false"
  | number (n : Json.Number) : Spelled (some (.number n)) n.text
  | string (s : String) : Spelled (some (.string s)) s

/-- A value that has no text: an array or an object. -/
def Nested (value : Option Json) : Prop :=
  ∃ v, value = some v ∧ (v.kind = .array ∨ v.kind = .object)

theorem cell?_eq_some_iff {value : Option Json} {raw : String} :
    cell? value = some raw ↔ Spelled value raw := by
  constructor
  · intro h
    cases value with
    | none =>
      cases h
      exact .missing
    | some v =>
      cases v with
      | null =>
        cases h
        exact .null
      | bool b =>
        cases h
        cases b with
        | true => exact .true
        | false => exact .false
      | number n =>
        cases h
        exact .number n
      | string s =>
        cases h
        exact .string raw
      | array items => cases h
      | object members => cases h
  · intro h
    cases h <;> rfl

theorem cell?_eq_none_iff {value : Option Json} : cell? value = none ↔ Nested value := by
  cases value with
  | none => simp [cell?, Nested]
  | some v => cases v <;> simp [cell?, Nested, Json.kind]

/-! ## Loaded records -/

/-- Some record has a value that is not null under a header. -/
def HasValue (records : List (Entries Json)) (header : String) : Prop :=
  ∃ record ∈ records, ∃ v, List.lookup header record = some v ∧ v ≠ .null

/-- `Tabulates id headers records d`: the dataset has a column of the right type for each header,
    in order, and a row for each record, in order, with the text of the record's value under each
    header. -/
structure Tabulates (id : String) (headers : List String) (records : List (Entries Json))
    (d : Dataset) : Prop where
  id : d.id = id
  columns : List.Forall₂ (fun header column => column.name = header ∧
    (column.type = .number ↔ HasValue records header ∧ OnlyNumbers records header))
    headers d.columns
  rows : List.Forall₂ (fun record cells => List.Forall₂ (fun header raw =>
    Spelled (List.lookup header record) raw) headers cells) records d.rows

theorem column_type_iff :
    (column (records.map .object) header).type = .number ↔
      HasValue records header ∧ OnlyNumbers records header := by
  show columnType ((records.map Json.object).filterMap (Json.get? header)) = .number ↔ _
  rw [filterMap_get?, columnType_eq_number_iff]
  simp only [HasValue, OnlyNumbers, List.mem_filterMap]
  constructor
  · rintro ⟨⟨v, ⟨record, hmem, given⟩, hne⟩, hall⟩
    exact ⟨⟨record, hmem, v, given, hne⟩, fun record' hmem' w given' =>
      hall w ⟨record', hmem', given'⟩⟩
  · rintro ⟨⟨record, hmem, v, given, hne⟩, hall⟩
    exact ⟨⟨v, ⟨record, hmem, given⟩, hne⟩, fun w ⟨record', hmem', given'⟩ =>
      hall record' hmem' w given'⟩

/-- There are two types, so a column's type is known when it is known whether it is a number
    column. -/
theorem columnType_eq_iff {s t : ColumnType} : s = t ↔ (s = .number ↔ t = .number) := by
  cases s <;> cases t <;> simp

theorem column_eq_iff {c : Column} :
    column (records.map .object) header = c ↔ c.name = header ∧
      (c.type = .number ↔ HasValue records header ∧ OnlyNumbers records header) := by
  rw [← column_type_iff, ← columnType_eq_iff]
  obtain ⟨name, type⟩ := c
  constructor
  · rintro ⟨⟩
    exact ⟨rfl, rfl⟩
  · rintro ⟨hname, htype⟩
    exact congrArg₂ Column.mk hname.symm htype.symm

theorem map_column_eq_iff {columns : List Column} :
    headers.map (column (records.map .object)) = columns ↔
      List.Forall₂ (fun header c => c.name = header ∧
        (c.type = .number ↔ HasValue records header ∧ OnlyNumbers records header))
        headers columns := by
  simp only [← column_eq_iff]
  rw [← List.forall₂_eq_eq_eq, List.forall₂_map_left_iff]

/-! ## Rows of records -/

theorem itemRow_object (headers : List String) (position : Nat) (record : Entries Json) :
    itemRow headers position (.object record) = row headers position record := rfl

theorem itemRow_of_kind_ne (h : item.kind ≠ .object) (headers : List String) (position : Nat) :
    itemRow headers position item = .error (.notObject position) := by
  cases item with
  | object record => exact absurd rfl h
  | _ => rfl

theorem exists_record (h : item.kind = .object) : ∃ record, item = .object record := by
  cases item with
  | object record => exact ⟨record, rfl⟩
  | _ => cases h

theorem ofRecords_object {first : Entries Json} :
    Dataset.ofRecords id (.array (.object first :: items)) =
      (Records.rows (Entries.keys first) 0 (.object first :: items)).map fun rows =>
        ⟨id, (Entries.keys first).map (column (.object first :: items)), rows⟩ := by
  show (do
    let rows ← Records.rows (Entries.keys first) 0 (.object first :: items)
    return Dataset.mk id ((Entries.keys first).map (column (.object first :: items))) rows) = _
  cases Records.rows (Entries.keys first) 0 (.object first :: items) <;> rfl

/-- The row of a record whose values have texts. -/
theorem row_eq_of_spelled {cells : List String}
    (h : List.Forall₂ (fun header raw => Spelled (List.lookup header record) raw) headers cells)
    (position : Nat) : row headers position record = .ok cells := by
  refine mapM_eq_ok_iff.mpr (h.imp fun header raw hraw => ?_)
  rw [cell?_eq_some_iff.mpr hraw]

/-- The rows of records whose values have texts. -/
theorem rows_eq_of_spelled {rows : List (List String)}
    (h : List.Forall₂ (fun record cells => List.Forall₂ (fun header raw =>
      Spelled (List.lookup header record) raw) headers cells) records rows) (position : Nat) :
    Records.rows headers position (records.map .object) = .ok rows := by
  induction h generalizing position with
  | nil => rfl
  | cons hcells _ ih =>
    rw [List.map_cons, Records.rows, itemRow_object, row_eq_of_spelled hcells, ih]
    rfl

theorem ofRecords_eq_ok_iff :
    Dataset.ofRecords id v = .ok d ↔ ∃ first rest, v = .array ((first :: rest).map .object) ∧
      Tabulates id (Entries.keys first) (first :: rest) d := by
  constructor
  · intro h
    obtain ⟨first, rest, rows, rfl, rfl, hrows⟩ := ofRecords_eq_ok h
    simp only [cell?_eq_some_iff] at hrows
    exact ⟨first, rest, rfl, rfl, map_column_eq_iff.mp rfl, hrows⟩
  · rintro ⟨first, rest, rfl, hid, hcolumns, hrows⟩
    rw [List.map_cons, ofRecords_object, ← List.map_cons, rows_eq_of_spelled hrows,
      map_column_eq_iff.mpr hcolumns, ← hid]
    rfl

/-! ## Faults -/

/-- `FaultAt headers items address e`: the item at an index is no record, or a record's value under
    the header at the second index has no text. -/
inductive FaultAt (headers : List String) (items : List Json) : Address → RecordsError → Prop where
  | notObject {i : Nat} {item : Json} (given : items[i]? = some item) (h : item.kind ≠ .object) :
    FaultAt headers items [i] (.notObject i)
  | unsupportedValue {i j : Nat} {record : Entries Json} {header : String}
    (given : items[i]? = some (.object record)) (column : headers[j]? = some header)
    (h : Nested (List.lookup header record)) :
    FaultAt headers items [i, j] (.unsupportedValue header i)

/-- The error for the value under a header. -/
def cellFault? (record : Entries Json) (position : Nat) (header : String) : Option RecordsError :=
  if (cell? (List.lookup header record)).isNone then some (.unsupportedValue header position)
  else none

theorem errorOf?_row (headers : List String) (position : Nat) (record : Entries Json) :
    errorOf? (row headers position record) = headers.findSome? (cellFault? record position) := by
  rw [row, errorOf?_mapM]
  congr 1
  funext header
  unfold cellFault?
  cases cell? (List.lookup header record) <;> rfl

theorem rows_eq_mapM (headers : List String) (position : Nat) (items : List Json) :
    Records.rows headers position items =
      (items.zipIdx position).mapM fun entry => itemRow headers entry.2 entry.1 := by
  induction items generalizing position with
  | nil => rfl
  | cons item items ih =>
    rw [List.zipIdx_cons, List.mapM_cons, ← ih]
    rfl

theorem cellFault?_eq_some_iff {position : Nat} :
    cellFault? record position header = some e ↔
      Nested (List.lookup header record) ∧ e = .unsupportedValue header position := by
  unfold cellFault?
  rw [← cell?_eq_none_iff, ← Option.isNone_iff_eq_none]
  split <;> simp [*, eq_comm]

/-- The faults of one item, at the indices of the columns. -/
inductive ItemFault (headers : List String) (position : Nat) :
    Json → Address → RecordsError → Prop where
  | notObject {item : Json} (h : item.kind ≠ .object) :
    ItemFault headers position item [] (.notObject position)
  | unsupportedValue {j : Nat} {record : Entries Json} {header : String}
    (column : headers[j]? = some header) (h : Nested (List.lookup header record)) :
    ItemFault headers position (.object record) [j] (.unsupportedValue header position)

theorem findsFirst_itemRow (headers : List String) (position : Nat) (item : Json) :
    FindsFirst (ItemFault headers position item) (errorOf? (itemRow headers position item)) := by
  by_cases hobject : item.kind = .object
  · obtain ⟨record, rfl⟩ := exists_record hobject
    rw [itemRow_object, errorOf?_row]
    have hcells := FindsFirst.findSome? fun header (_ : header ∈ headers) =>
      FindsFirst.here (cellFault? record position header)
    refine hcells.congr fun address e => ⟨?_, ?_⟩
    · rintro ⟨column, rfl, hfault⟩
      obtain ⟨hnested, rfl⟩ := cellFault?_eq_some_iff.mp hfault
      exact .unsupportedValue column hnested
    · rintro (hne | ⟨column, hnested⟩)
      · exact absurd rfl hne
      · exact .item column ⟨rfl, cellFault?_eq_some_iff.mpr ⟨hnested, rfl⟩⟩
  · rw [itemRow_of_kind_ne hobject, errorOf?]
    refine (FindsFirst.here _).congr fun address e => ⟨?_, ?_⟩
    · rintro ⟨rfl, h⟩
      cases h
      exact .notObject hobject
    · rintro (_ | _)
      · exact ⟨rfl, rfl⟩
      · exact absurd rfl hobject

/-- Loading stops at the fault with the first address, and only at a fault. -/
theorem findsFirst_rows (headers : List String) (items : List Json) :
    FindsFirst (FaultAt headers items) (errorOf? (Records.rows headers 0 items)) := by
  rw [rows_eq_mapM, errorOf?_mapM]
  have hitems := FindsFirst.findSome? fun entry (_ : entry ∈ items.zipIdx 0) =>
    findsFirst_itemRow headers entry.2 entry.1
  -- The position that goes along with an item is its index.
  have hgiven {i k : Nat} {item : Json} :
      (items.zipIdx 0)[i]? = some (item, k) ↔ items[i]? = some item ∧ k = i := by
    rw [List.getElem?_zipIdx, Option.map_eq_some_iff]
    simp [eq_comm]
  refine hitems.congr fun address e => ⟨?_, ?_⟩
  · intro h
    cases h with
    | @item i entry address e given hfault =>
      obtain ⟨item, k⟩ := entry
      obtain ⟨given, rfl⟩ := hgiven.mp given
      cases hfault with
      | notObject h => exact .notObject given h
      | unsupportedValue column h => exact .unsupportedValue given column h
  · intro h
    cases h with
    | notObject given h => exact .item (hgiven.mpr ⟨given, rfl⟩) (.notObject h)
    | unsupportedValue given column h =>
      exact .item (hgiven.mpr ⟨given, rfl⟩) (.unsupportedValue column h)

/-- There is one fault at an address. -/
theorem FaultAt.eq (address : Address)
    (e e' : RecordsError) (h : FaultAt headers items address e)
    (h' : FaultAt headers items address e') : e = e' := by
  cases h with
  | notObject given h =>
    cases h' with
    | notObject given' h' => rfl
  | unsupportedValue given column h =>
    cases h' with
    | unsupportedValue given' column' h' =>
      rw [column] at column'
      cases column'
      rfl

theorem rows_eq_error_iff :
    Records.rows headers 0 items = .error e ↔ Foremost (FaultAt headers items) e := by
  rw [← errorOf?_eq_some_iff, (findsFirst_rows headers items).eq_some_iff FaultAt.eq]

/-- There is no fault when every item is a record and all its values have texts. -/
theorem forall_not_faultAt_iff :
    (∀ address e, ¬FaultAt headers items address e) ↔
      ∀ item ∈ items, ∃ record, item = .object record ∧
        ∀ header ∈ headers, ¬Nested (List.lookup header record) := by
  constructor
  · intro h item hitem
    obtain ⟨i, given⟩ := List.getElem?_of_mem hitem
    cases item with
    | object record =>
      refine ⟨record, rfl, fun header hheader hnested => ?_⟩
      obtain ⟨j, column⟩ := List.getElem?_of_mem hheader
      exact h _ _ (.unsupportedValue given column hnested)
    | _ => exact absurd (.notObject given nofun) (h _ _)
  · intro h address e hfault
    cases hfault with
    | notObject given hkind =>
      obtain ⟨record, rfl, -⟩ := h _ (List.mem_of_getElem? given)
      exact hkind rfl
    | unsupportedValue given column hnested =>
      obtain ⟨record, hrecord, hflat⟩ := h _ (List.mem_of_getElem? given)
      cases hrecord
      exact hflat _ (List.mem_of_getElem? column) hnested

theorem exists_rows_iff :
    (∃ rows, Records.rows headers 0 items = .ok rows) ↔
      ∀ address e, ¬FaultAt headers items address e := by
  have hfirst := findsFirst_rows headers items
  rw [← errorOf?_eq_none_iff]
  cases herror : errorOf? (Records.rows headers 0 items) with
  | none =>
    rw [herror] at hfirst
    exact iff_of_true rfl hfirst
  | some e =>
    rw [herror] at hfirst
    obtain ⟨address, hfault, -⟩ := hfirst
    exact iff_of_false nofun fun h => h address e hfault

theorem exists_ofRecords_iff :
    (∃ d, Dataset.ofRecords id v = .ok d) ↔ ∃ first items, v = .array (.object first :: items) ∧
      ∀ item ∈ Json.object first :: items, ∃ record, item = .object record ∧
        ∀ header ∈ Entries.keys first, ¬Nested (List.lookup header record) := by
  constructor
  · rintro ⟨d, h⟩
    obtain ⟨first, rest, rows, rfl, -, hrows⟩ := ofRecords_eq_ok h
    simp only [cell?_eq_some_iff] at hrows
    have hloaded := rows_eq_of_spelled hrows 0
    exact ⟨first, rest.map .object, rfl,
      forall_not_faultAt_iff.mp (exists_rows_iff.mp ⟨rows, hloaded⟩)⟩
  · rintro ⟨first, items, rfl, hitems⟩
    obtain ⟨rows, hrows⟩ := exists_rows_iff.mpr (forall_not_faultAt_iff.mpr hitems)
    rw [ofRecords_object, hrows]
    exact ⟨_, rfl⟩

/-- `Refused v e`: records cannot be loaded from the value `v`, for the reason `e`. -/
inductive Refused : Json → RecordsError → Prop where
  | notArray {v : Json} (h : v.kind ≠ .array) : Refused v .notArray
  | empty : Refused (.array []) .empty
  | firstNotObject {item : Json} {items : List Json} (h : item.kind ≠ .object) :
    Refused (.array (item :: items)) .firstNotObject
  | fault {first : Entries Json} {items : List Json} {e : RecordsError}
    (h : Foremost (FaultAt (Entries.keys first) (.object first :: items)) e) :
    Refused (.array (.object first :: items)) e

theorem ofRecords_eq_error_iff :
    Dataset.ofRecords id v = .error e ↔ Refused v e := by
  constructor
  · intro h
    cases v with
    | array items =>
      cases items with
      | nil =>
        cases h
        exact .empty
      | cons item items =>
        cases item with
        | object first =>
          rw [ofRecords_object] at h
          cases hrows : Records.rows (Entries.keys first) 0 (.object first :: items) with
          | error e' =>
            rw [hrows] at h
            cases h
            exact .fault (rows_eq_error_iff.mp hrows)
          | ok rows =>
            rw [hrows] at h
            cases h
        | _ =>
          cases h
          exact .firstNotObject nofun
    | _ =>
      cases h
      exact .notArray nofun
  · intro h
    cases h with
    | notArray h =>
      cases v with
      | array items => exact absurd rfl h
      | _ => rfl
    | empty => rfl
    | @firstNotObject item items h =>
      cases item with
      | object first => exact absurd rfl h
      | _ => rfl
    | fault h =>
      rw [ofRecords_object, rows_eq_error_iff.mpr h]
      rfl

/-! ## Keys of later records -/

/-- Two items are the same under some headers: both are records and have the same value under each
    of the headers, or neither is a record. -/
inductive SameUnder (headers : List String) : Json → Json → Prop where
  | record {record record' : Entries Json}
    (h : ∀ header ∈ headers, List.lookup header record = List.lookup header record') :
    SameUnder headers (.object record) (.object record')
  | noRecord {item item' : Json} (h : item.kind ≠ .object) (h' : item'.kind ≠ .object) :
    SameUnder headers item item'

theorem SameUnder.get?_eq (h : SameUnder headers item item') (hheader : header ∈ headers) :
    item.get? header = item'.get? header := by
  have hnone {v : Json} (hv : v.kind ≠ .object) : v.get? header = none := by
    cases v with
    | object members => exact absurd rfl hv
    | _ => rfl
  cases h with
  | record h => exact h header hheader
  | noRecord h h' => rw [hnone h, hnone h']

theorem SameUnder.itemRow_eq (h : SameUnder headers item item') (position : Nat) :
    itemRow headers position item = itemRow headers position item' := by
  cases h with
  | record h => exact mapM_congr fun header hheader => by rw [h header hheader]
  | noRecord h h' => rw [itemRow_of_kind_ne h, itemRow_of_kind_ne h']

theorem rows_congr (h : List.Forall₂ (SameUnder headers) items items') (position : Nat) :
    Records.rows headers position items = Records.rows headers position items' := by
  induction h generalizing position with
  | nil => rfl
  | cons hitem _ ih => rw [Records.rows, Records.rows, hitem.itemRow_eq, ih]

theorem column_congr (h : List.Forall₂ (SameUnder headers) items items')
    (hheader : header ∈ headers) : column items header = column items' header := by
  have hvalues : items.filterMap (Json.get? header) = items'.filterMap (Json.get? header) := by
    induction h with
    | nil => rfl
    | cons hitem _ ih => rw [List.filterMap_cons, List.filterMap_cons, hitem.get?_eq hheader, ih]
  rw [column, column, hvalues]

theorem ofRecords_congr {first : Entries Json}
    (h : List.Forall₂ (SameUnder (Entries.keys first)) items items') :
    Dataset.ofRecords id (.array (.object first :: items)) =
      Dataset.ofRecords id (.array (.object first :: items')) := by
  have hall : List.Forall₂ (SameUnder (Entries.keys first))
      (.object first :: items) (.object first :: items') := .cons (.record fun _ _ => rfl) h
  rw [ofRecords_object, ofRecords_object, rows_congr hall,
    List.map_congr_left fun header hheader => column_congr hall hheader]

end Records

/-- What loading answers. Records are loaded exactly when the input is an array of records, of
    which there is at least one, and no record has an array or an object under a key of the first
    one; then they become the dataset that tabulates them. Everything else is refused, and an
    array that begins with a record is refused for its first fault. What later records have under
    keys that the first one does not have changes nothing. -/
theorem Dataset.ofRecords_outcome (id : String) (v : Json) :
    ((∃ d, ofRecords id v = .ok d) ↔ ∃ first items, v = .array (.object first :: items) ∧
      ∀ item ∈ Json.object first :: items, ∃ record, item = .object record ∧
        ∀ header ∈ Entries.keys first, ¬Records.Nested (List.lookup header record)) ∧
    (∀ d, ofRecords id v = .ok d ↔ ∃ first rest, v = .array ((first :: rest).map .object) ∧
      Records.Tabulates id (Entries.keys first) (first :: rest) d) ∧
    (∀ e, ofRecords id v = .error e ↔ Records.Refused v e) ∧
    (∀ first items items', v = .array (.object first :: items) →
      List.Forall₂ (Records.SameUnder (Entries.keys first)) items items' →
      ofRecords id v = ofRecords id (.array (.object first :: items'))) := by
  refine ⟨Records.exists_ofRecords_iff, fun d => Records.ofRecords_eq_ok_iff,
    fun e => Records.ofRecords_eq_error_iff, ?_⟩
  rintro first items items' rfl hsame
  exact Records.ofRecords_congr hsame

/-- Two records, of which the second has a member under a key of its own. -/
def paddedRecords : Json :=
  .array
    [.object [("size", .number (.whole 7 (by decide)))],
     .object [("more", .array []), ("size", .null)]]

/-- The same records without that member. -/
def bareRecords : Json :=
  .array [.object [("size", .number (.whole 7 (by decide)))], .object [("size", .null)]]

theorem Dataset.ofRecords_outcome_paddedRecords :
    ofRecords "d" paddedRecords = ofRecords "d" bareRecords ∧
      ofRecords "d" bareRecords = .ok ⟨"d", [⟨"size", .number⟩], [["7"], [""]]⟩ := by
  refine ⟨?_, by decide +kernel⟩
  refine (ofRecords_outcome "d" paddedRecords).2.2.2 _ _ _ rfl (.cons (.record ?_) .nil)
  intro header hheader
  rw [List.mem_singleton.mp hheader]
  rfl

end ChartDoc
