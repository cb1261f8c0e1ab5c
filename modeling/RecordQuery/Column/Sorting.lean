import RecordQuery.Column.Engine
import RecordQuery.Column.Table
import RecordQuery.Value.Order

/-!
Sorting tables by key columns. Nulls go to one end whatever the direction, with NaN next to them;
structs are compared field by field; rows that agree on all keys keep their order.
-/

namespace RecordQuery

namespace ColumnSort

/-- Nulls, NaNs and values as the three classes of keys. -/
def keyClass : Value → Nat
  | .null => 0
  | .float (.nan _) => 1
  | _ => 2

/-- The order of two values of one column type. -/
def compareValues (a b : Value) : Ordering :=
  match a, b with
  | .str s, .str t => compare s t
  | .bytes s, .bytes t => Value.compareBytes s t
  | a, b =>
    match a.number?, b.number? with
    | some x, some y => (x.compare? y).getD .eq
    | _, _ => .eq

/-- The order of two keys: by class first, then by value in the direction of the sort. -/
def compareKeys (placement : NullPlacement) (direction : Direction) (a b : Value) : Ordering :=
  let classes := match placement with
    | .atStart => compare (keyClass a) (keyClass b)
    | .atEnd => compare (keyClass b) (keyClass a)
  let values := match direction with
    | .ascending => compareValues a b
    | .descending => compareValues b a
  classes.then values

/-- One key column without parts: its values, one for each row, and the direction of its sort. -/
structure Leaf where
  values : List Value
  direction : Direction
deriving Inhabited

mutual

/-- The columns without parts that a key column consists of. A null struct has null fields, and a
list cannot be a key. -/
def leaves (direction : Direction) (t : ColumnType) (values : List Value) :
    Except Error (List Leaf) :=
  match t with
  | .struct fields => fieldLeaves direction fields values
  | .list _ => fail .columnType
  | _ => .ok [{ values, direction }]

def fieldLeaves (direction : Direction) (fields : List (String × ColumnType))
    (values : List Value) : Except Error (List Leaf) :=
  match fields with
  | [] => .ok []
  | (n, t) :: rest => do
    let first ← leaves direction t (values.map (Row.cell n))
    return first ++ (← fieldLeaves direction rest values)

end

/-- A row with its keys, the most significant first. -/
structure Keyed (α : Type) where
  keys : List (Value × Direction)
  row : α

/-- The order of two lists of keys: that of the first keys that differ. -/
def compareAll (placement : NullPlacement) :
    List (Value × Direction) → List (Value × Direction) → Ordering
  | (a, d) :: as, (b, _) :: bs => (compareKeys placement d a b).then (compareAll placement as bs)
  | _, _ => .eq

/-- The rows with their keys. -/
def keyed {α : Type} (leaves : List Leaf) (rows : List α) : List (Keyed α) :=
  rows.zipIdx.map fun (row, i) =>
    { keys := leaves.map fun l => ((l.values[i]?).getD .null, l.direction), row }

/-- The rows in the order of their keys. -/
def sort {α : Type} (placement : NullPlacement) (leaves : List Leaf) (rows : List α) : List α :=
  ((keyed leaves rows).mergeSort fun a b => compareAll placement a.keys b.keys != .gt).map (·.row)

end ColumnSort
end RecordQuery
