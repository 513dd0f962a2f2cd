/-
  Datasets: tables whose cells are all texts. The type of a column says how its cells are to be
  understood; an empty text stands for a missing value in every column. Rows need not have as
  many cells as there are columns.
-/
import ChartDoc.Json.Record
import ChartDoc.Vocabulary

namespace ChartDoc

/-- What the cells of a column contain. -/
inductive ColumnType where
  | string
  | number
deriving DecidableEq

instance : Vocabulary ColumnType where
  all := [.string, .number]
  word
    | .string => "string"
    | .number => "number"
  mem_all a := by cases a <;> decide
  word_injective a b := by cases a <;> cases b <;> decide

/-- A named column with its type. -/
structure Column where
  name : String
  type : ColumnType
deriving DecidableEq

/-- A table with an identifier, under which marks refer to it. -/
structure Dataset where
  id : String
  columns : List Column
  rows : List (List String)
deriving DecidableEq

namespace Column

/-- A column as JSON. -/
def json (c : Column) : Json :=
  .record [Json.always "name" (.string c.name), Json.always "type" (Vocabulary.json c.type)]

/-- The column that a JSON value describes. -/
def ofJson? (v : Json) : Option Column := do
  let members ← v.members?
  let name ← Json.required? "name" Json.string? members
  let type ← Json.required? "type" Vocabulary.ofJson? members
  return { name, type }

end Column

namespace Dataset

/-- A dataset as JSON. -/
def json (d : Dataset) : Json :=
  .record
    [Json.always "id" (.string d.id), Json.always "columns" (.list Column.json d.columns),
     Json.always "rows" (.list (.list .string) d.rows)]

/-- The dataset that a JSON value describes. -/
def ofJson? (v : Json) : Option Dataset := do
  let members ← v.members?
  let id ← Json.required? "id" Json.string? members
  let columns ← Json.required? "columns" (Json.list? Column.ofJson?) members
  let rows ← Json.required? "rows" (Json.list? (Json.list? Json.string?)) members
  return { id, columns, rows }

/-- The type of the column at a position, if there is a column. -/
def columnType? (d : Dataset) (position : Nat) : Option ColumnType :=
  d.columns[position]?.map Column.type

end Dataset

end ChartDoc
