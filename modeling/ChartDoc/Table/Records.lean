/-
  Tables from records. Records are the objects of a JSON array; the keys of the first one name
  the columns, and each record becomes a row. Null and a missing key become the empty text. A
  column holds numbers when some record has a value in it and every such value is a number.

  A record with an array or an object under a key of the first record is refused, and so is an
  item that is no object. The first offending place counts: records in order, and in a record
  the columns in order.
-/
import ChartDoc.Document.Dataset

namespace ChartDoc

/-- Why records do not make a table. -/
inductive RecordsError where
  | notArray
  | empty
  /-- The first item is no object. -/
  | firstNotObject
  /-- A later item is no object. -/
  | notObject (position : Nat)
  /-- A record has an array or an object in a column. -/
  | unsupportedValue (header : String) (position : Nat)
deriving DecidableEq

/-- The message of an error. -/
def RecordsError.message : RecordsError → String
  | notArray => "Input data must be a JSON array of objects"
  | empty => "Input data array is empty"
  | firstNotObject => "Items in array must be objects"
  | notObject position => "Item " ++ naturalText position ++ " in array is not an object"
  | unsupportedValue header position =>
    "Unsupported value type for field '" ++ header ++ "' in item " ++ naturalText position

namespace Records

/-- The cell for the value under a key, which may be missing; arrays and objects have none. -/
def cell? : Option Json → Option String
  | none => some ""
  | some .null => some ""
  | some (.bool b) => some (if b then "true" else "false")
  | some (.number n) => some n.text
  | some (.string s) => some s
  | some (.array _) => none
  | some (.object _) => none

/-- Whether a value is a number. -/
def isNumber : Json → Bool
  | .number _ => true
  | _ => false

/-- Whether a value is null. -/
def isNull : Json → Bool
  | .null => true
  | _ => false

/-- The type of a column with the given values, nulls included. -/
def columnType (values : List Json) : ColumnType :=
  let present := values.filter fun v => !isNull v
  if !present.isEmpty && present.all isNumber then .number else .string

/-- The row of a record. -/
def row (headers : List String) (position : Nat) (record : Entries Json) :
    Except RecordsError (List String) :=
  headers.mapM fun header =>
    match cell? (List.lookup header record) with
    | some cell => .ok cell
    | none => .error (.unsupportedValue header position)

/-- The row of an item. -/
def itemRow (headers : List String) (position : Nat) (item : Json) :
    Except RecordsError (List String) :=
  match item with
  | .object record => row headers position record
  | _ => .error (.notObject position)

/-- The rows of the items from a position on. -/
def rows (headers : List String) (position : Nat) :
    List Json → Except RecordsError (List (List String))
  | [] => .ok []
  | item :: items => do
    let first ← itemRow headers position item
    let rest ← rows headers (position + 1) items
    return first :: rest

/-- The column of a header. -/
def column (items : List Json) (header : String) : Column :=
  ⟨header, columnType (items.filterMap (Json.get? header))⟩

end Records

/-- The dataset that records make, under an identifier. -/
def Dataset.ofRecords (id : String) (records : Json) : Except RecordsError Dataset :=
  match records with
  | .array [] => .error .empty
  | .array (.object first :: rest) => do
    let items := .object first :: rest
    let headers := Entries.keys first
    let rows ← Records.rows headers 0 items
    return { id, columns := headers.map (Records.column items), rows }
  | .array _ => .error .firstNotObject
  | _ => .error .notArray

end ChartDoc
