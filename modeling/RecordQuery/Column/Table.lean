import RecordQuery.Association
import RecordQuery.Column.Engine
import RecordQuery.Column.Storage

/-!
Tables: typed columns and the rows over them. Every cell holds a value as its column's type stores
it. A table can hold a struct that has two fields of one name, or a text that is none, but its rows
cannot be read then.
-/

namespace RecordQuery

namespace ColumnType

mutual

/-- Can a value be read as one of the type? The fields of its structs need names of their own. -/
def isReadable (t : ColumnType) (v : Value) : Bool :=
  match t, v with
  | _, .null => true
  | .list item, .list items => items.all (isReadable item)
  | .struct fields, .dict entries => (fields.map (·.1)).Nodup && areReadable fields entries
  | .bool, .bool _ | .float64, .float _ | .string, .str _ | .binary, .bytes _ => true
  | t, .int i => t.range?.any (inRange · i)
  | _, _ => false

def areReadable (fields : List (String × ColumnType)) (entries : List (Value × Value)) : Bool :=
  match fields, entries with
  | [], [] => true
  | (n, t) :: fields, (.str m, v) :: entries =>
    n == m && isReadable t v && areReadable fields entries
  | _, _ => false

end

end ColumnType

/-- A table, as its columns and its rows. -/
structure Table where
  columns : List (String × ColumnType)
  rows : List (List Value)
deriving Inhabited

namespace Table

/-- The rows whose cells are given column by column. A table without columns has no rows. -/
def transpose (cells : List (List Value)) : List (List Value) :=
  match cells with
  | [] => []
  | first :: _ =>
    (List.range first.length).map fun i => cells.map fun column => (column[i]?).getD .null

/-- Do all columns have as many cells as the first one? -/
def areAligned (cells : List (List Value)) : Bool :=
  match cells with
  | [] => true
  | first :: rest => rest.all fun column => column.length == first.length

/-- A table from its columns, with the values of each as they were given. -/
def ofColumns (columns : List (String × ColumnType)) (values : List (List Value)) :
    Except Error Table := do
  let cells ← (columns.zip values).mapM fun ((_, t), vs) => ColumnType.storeAll .given t vs
  if areAligned cells then return { columns, rows := transpose cells } else fail .columnValue

/-- A row as a mapping from the names of the columns; of columns of one name the last counts. -/
def record (columns : List (String × ColumnType)) (row : List Value) : Value :=
  .dict (((columns.map (·.1)).zip row).foldl (fun all (n, v) => put all n v) []
    |>.map fun (n, v) => (.str n, v))

/-- Does a row have a cell for each column, all of which can be read? -/
def isReadable (columns : List (String × ColumnType)) (row : List Value) : Bool :=
  row.length == columns.length && ((columns.map (·.2)).zip row).all fun (t, v) => t.isReadable v

/-- The rows as mappings. No row is read if there is one that cannot be. -/
def records (t : Table) : Except Error (List Value) :=
  if t.rows.all (isReadable t.columns) then .ok (t.rows.map (record t.columns))
  else fail .wrongValue

/-- The table of records with the given columns. -/
def ofRecords (columns : List (String × ColumnType)) (records : List Value) :
    Except Error Table :=
  ofColumns columns (columns.map fun (n, _) => records.map (Row.cell n))

/-- The table of records, with the columns of the first one, each of the type that fits its
values. -/
def inferRecords (records : List Value) : Except Error Table := do
  let names := (records.head?.map Row.names).getD []
  let columns ← names.mapM fun n => do
    let (t, held) ← ColumnType.column (records.map (Row.cell n))
    return ((n, t), held)
  return { columns := columns.map (·.1), rows := transpose (columns.map (·.2)) }

end Table
end RecordQuery
