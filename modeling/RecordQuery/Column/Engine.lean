import RecordQuery.Error
import RecordQuery.Ordering.Spec

/-!
What queries ask of a library of tables. Its tables and columns are its own: they are made, read,
filtered and sorted by its operations alone, and each of these may fail.
-/

namespace RecordQuery

/-- The end that null keys go to. -/
inductive NullPlacement where
  | atStart | atEnd
deriving DecidableEq, Repr, Inhabited

namespace NullPlacement

/-- The word for a placement. -/
def word : NullPlacement → String
  | .atStart => "at_start"
  | .atEnd => "at_end"

/-- The placement that a word names. -/
def ofWord? (word : String) : Option NullPlacement :=
  [.atStart, .atEnd].find? (·.word == word)

end NullPlacement

namespace Row

/-- The value of a row under the name of a column. -/
def cell (name : String) (row : Value) : Value :=
  match row with
  | .dict entries =>
    (entries.findSome? fun (k, v) =>
      match k with
      | .str n => if n = name then some v else none
      | _ => none).getD .null
  | _ => .null

/-- The names of the columns of a row. -/
def names : Value → List String
  | .dict entries => entries.filterMap fun (k, _) =>
    match k with
    | .str n => some n
    | _ => none
  | _ => []

end Row

/-- A library of tables. -/
structure Engine where
  Table : Type
  /-- A column that is in no table yet and has no name. -/
  Column : Type
  /-- The names and types of the columns of a table, in their order. -/
  columns : Table → List (String × ColumnType)
  /-- The number of rows of a table. -/
  size : Table → Nat
  /-- The rows of a table, each as a mapping from the names of the columns to its values. -/
  records : Table → Except Error (List Value)
  /-- The table with the rows for which the mask is true. -/
  filter : List Bool → Table → Except Error Table
  /-- The table with the rows at the given positions, in their order. -/
  take : List Nat → Table → Except Error Table
  /-- The table of records that has the given columns. -/
  ofRecords : List (String × ColumnType) → List Value → Except Error Table
  /-- The table of records whose columns are found from the records. -/
  inferRecords : List Value → Except Error Table
  /-- The column of values, of the type that fits them. -/
  column : List Value → Except Error Column
  columnType : Column → ColumnType
  /-- The table of columns under the given names. -/
  ofColumns : List (String × Column) → Except Error Table
  /-- The positions of the rows of a table when they are sorted by the named columns, the most
  significant one first. Nulls go to one end, and rows that agree keep their order. -/
  sortIndices : NullPlacement → List (String × Direction) → Table → Except Error (List Nat)

/-- The items for which a mask is true. -/
def keepMasked {α : Type} (mask : List Bool) (items : List α) : List α :=
  ((items.zip mask).filter (·.2)).map (·.1)

end RecordQuery
