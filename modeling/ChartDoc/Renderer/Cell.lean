/-
  The cells and tables of a renderer configuration. A cell of a number column holds the number
  at the front of its text, or nothing; every other cell keeps its text, and an empty text is
  nothing everywhere. Rows keep their lengths: a cell beyond the last column keeps its text.
-/
import ChartDoc.Document.Dataset
import ChartDoc.Table.Number

namespace ChartDoc

namespace Renderer

/-- A cell with its type. -/
inductive Cell where
  | null
  | number (value : Binary64)
  | text (value : String)
deriving BEq

namespace Cell

/-- The cell for a raw text in a column of the given type, if there is a column. -/
def of (raw : String) (type : Option ColumnType) : Cell :=
  if raw = "" then null
  else
    match type with
    | some .number =>
      match leadingNumber? raw with
      | some x => number (.finite x)
      | none => null
    | _ => text raw

/-- The number in a cell. -/
def number? : Cell → Option Binary64
  | number x => some x
  | _ => none

/-- Whether a cell holds nothing. -/
def isNull : Cell → Bool
  | null => true
  | _ => false

/-- A cell as JSON. -/
def json : Cell → Json
  | null => .null
  | number x => .ofBinary64 x
  | text s => .string s

end Cell

/-- A table: the names of its dimensions, and rows of cells. -/
structure Table where
  id : String
  dimensions : List String
  source : List (List Cell)
deriving BEq

namespace Table

/-- The cells of a row, each read by the type of the column at its position. -/
def row (d : Dataset) (cells : List String) : List Cell :=
  cells.zipIdx.map fun entry => Cell.of entry.1 (d.columnType? entry.2)

theorem getElem?_row (d : Dataset) (cells : List String) (position : Nat) :
    (row d cells)[position]? =
      cells[position]?.map fun raw => Cell.of raw (d.columnType? position) := by
  rw [row, List.getElem?_map, List.getElem?_zipIdx, Option.map_map, Nat.zero_add]
  rfl

/-- The table of a dataset. -/
def of (d : Dataset) : Table where
  id := d.id
  dimensions := d.columns.map Column.name
  source := d.rows.map (row d)

/-- A table as JSON. -/
def json (t : Table) : Json :=
  .record
    [Json.always "id" (.string t.id), Json.always "dimensions" (.ofStrings t.dimensions),
     Json.always "source" (.list (.list Cell.json) t.source)]

end Table

end Renderer

end ChartDoc
