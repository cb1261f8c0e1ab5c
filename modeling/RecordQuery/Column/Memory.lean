import RecordQuery.Column.Sorting
import RecordQuery.Value.Identity

/-!
The library of tables that are held in memory.
-/

namespace RecordQuery

namespace Table

/-- The table with the rows for which a mask of as many truth values as there are rows is true. -/
def filter (mask : List Bool) (t : Table) : Except Error Table :=
  if mask.length = t.rows.length then .ok { t with rows := keepMasked mask t.rows }
  else fail .columnValue

/-- The table with the rows at positions. -/
def take (positions : List Nat) (t : Table) : Except Error Table := do
  let rows ← positions.mapM fun i =>
    match t.rows[i]? with
    | some row => .ok row
    | none => fail .noIndex
  return { t with rows }

/-- The table of columns under names, all of one length. -/
def ofNamed (columns : List (String × ColumnType × List Value)) : Except Error Table :=
  let cells := columns.map (·.2.2)
  if areAligned cells then
    .ok { columns := columns.map fun (n, t, _) => (n, t), rows := transpose cells }
  else fail .columnValue

/-- The type and the cells of the column of a name. -/
def named (name : String) (t : Table) : Except Error (ColumnType × List Value) :=
  match t.columns.zipIdx.find? (·.1.1 == name) with
  | some ((_, type), i) => .ok (type, t.rows.map fun row => (row[i]?).getD .null)
  | none => fail .noKey

/-- The positions of the rows in the order of the named columns. -/
def sortIndices (placement : NullPlacement) (keys : List (String × Direction)) (t : Table) :
    Except Error (List Nat) := do
  let leaves ← keys.mapM fun (name, direction) => do
    let (type, cells) ← t.named name
    ColumnSort.leaves direction type cells
  return ColumnSort.sort placement leaves.flatten (List.range t.rows.length)

/-- The table with a number for everything in its cells that has none. -/
def numbered (t : Table) : Numbering Table := do
  return { t with rows := ← t.rows.mapM numberedItems }

end Table

/-- Tables that are held in memory. -/
abbrev Engine.inMemory : Engine where
  Table := RecordQuery.Table
  Column := ColumnType × List Value
  columns := Table.columns
  size t := t.rows.length
  records := Table.records
  filter := Table.filter
  take := Table.take
  ofRecords := Table.ofRecords
  inferRecords := Table.inferRecords
  column := ColumnType.column
  columnType := Prod.fst
  ofColumns := Table.ofNamed
  sortIndices := Table.sortIndices

end RecordQuery
