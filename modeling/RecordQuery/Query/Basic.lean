import RecordQuery.Capture
import RecordQuery.Column.Engine
import RecordQuery.Projection
import RecordQuery.Query.RunSort
import RecordQuery.Value.Identity

/-!
Queries: rows of one schema, held in a list or in a table, with sort keys that may be pending. The
tables are those of a library, whatever it is. Sorting is lazy: `Query.rows` is where pending keys
are applied, so a key that cannot be sorted by shows there.
-/

namespace RecordQuery

/-- What rows are sorted by. -/
inductive KeySource where
  | accessor (a : Accessor)
  | lambda (f : Lambda)
  | captured (c : Captured)
deriving Inhabited

namespace KeySource

/-- The key of a row. -/
def read (d : Directory) (k : KeySource) (row : Value) : Except Error Value :=
  match k with
  | .accessor a => a.read d.catalog row
  | .lambda f => (f.call d [row]).result
  | .captured c => c.call d [row]

/-- What a key is called: the path of a chain, or the name of a lambda. -/
def label : KeySource → String
  | .accessor a => if a.path.isEmpty then a.text else a.path
  | .lambda f => f.name
  | .captured c => c.text

/-- What the key of a table sort is called: the path of a chain, or its number. -/
def columnLabel (k : KeySource) (i : Nat) : String :=
  match k with
  | .accessor a => a.path
  | _ => "key_" ++ toString i

end KeySource

/-- A pending sort key. -/
structure SortKey where
  source : KeySource
  direction : Direction
deriving Inhabited

/-- What holds the rows of a query. -/
inductive RowSource (E : Engine) where
  | list (rows : List Value)
  | table (t : E.Table) (placement : NullPlacement)
deriving Inhabited

/-- The rows in the order in which they are held. -/
def RowSource.rows {E : Engine} : RowSource E → Except Error (List Value)
  | .list rows => .ok rows
  | .table t _ => E.records t

/-- A query. Its keys, the most significant first, are pending until the rows are asked for; a query
that was never sorted has none. -/
structure Query (E : Engine) where
  source : RowSource E
  schema : Schema
  keys : Option (List SortKey) := none
deriving Inhabited

namespace Query

variable {E : Engine}

/-- The kind of a query. -/
def kind (q : Query E) : String :=
  match q.source, q.keys with
  | .list _, none => "ListQuery"
  | .list _, some _ => "OrderedListQuery"
  | .table .., none => "ArrowQuery"
  | .table .., some _ => "OrderedArrowQuery"

def isOrdered (q : Query E) : Bool :=
  q.keys.isSome

/-- The shown form of a query. -/
def text (q : Query E) : String :=
  q.kind ++ "(" ++ q.schema.name ++ ")"

/-- The sort keys by name, and whether they are descending, the most significant first. -/
def sortKeys? (q : Query E) : Option (List (String × Bool)) :=
  q.keys.map fun keys => keys.map fun k => (k.source.label, k.direction.isDescending)

/-- Does a key sort before another? Null sorts before everything else, and equal keys do not sort
before each other, whether they could be ordered or not. -/
def keyBefore (catalog : Catalog) (a b : Value) : Except Error Bool :=
  match a.isNull, b.isNull with
  | true, other => .ok !other
  | false, true => .ok false
  | false, false => do
    if ← a.matching catalog b then return false
    a.compares catalog .lt b

/-- A row beside its key. -/
abbrev KeyedRow := Value × Value

/-- The rows in the order of their keys. -/
def sortKeyed (catalog : Catalog) (direction : Direction) (rows : List KeyedRow) :
    Except Error (List KeyedRow) :=
  RunSort.sortIn (fun a b => keyBefore catalog a.1 b.1) direction.isDescending rows

/-- The rows sorted by one key, which is computed once for every row. -/
def sortByKey (d : Directory) (key : SortKey) (rows : List Value) : Except Error (List Value) := do
  let keyed : List KeyedRow ← rows.mapM fun row => do return (← key.source.read d row, row)
  return (← sortKeyed d.catalog key.direction keyed).map (·.2)

/-- The failure of a sort, named after its key if it is about the types of values. -/
def namingKey (key : SortKey) (x : Except Error (List Value)) : Except Error (List Value) :=
  match x with
  | .error e => .error (if e.isTypeError then .unsortableKey key.source.label else e)
  | x => x

/-- The rows sorted by all keys: by the least significant one first, so that the others keep its
order among equals. -/
def sortList (d : Directory) (keys : List SortKey) (rows : List Value) :
    Except Error (List Value) :=
  keys.reverse.foldlM (fun rows key => namingKey key (sortByKey d key rows)) rows

/-- The column that the values of a key make. A key that is null everywhere makes none. -/
def keyColumn (key : SortKey) (i : Nat) (values : List Value) : Except Error (Option E.Column) :=
  match E.column values with
  | .ok column => .ok (if E.columnType column matches .null then none else some column)
  | .error (.fault .columnValue) | .error (.fault .columnType) =>
    .error (.untypedKey (key.source.columnLabel i))
  | .error e => .error e

/-- The column of a key, under a name that says which key it is of. -/
structure KeyColumn (E : Engine) where
  name : String
  column : E.Column
  direction : Direction

/-- The columns of all keys, of which the first has the given number. -/
def keyColumns (d : Directory) (records : List Value) :
    Nat → List SortKey → Except Error (List (KeyColumn E))
  | _, [] => .ok []
  | i, key :: keys => do
    let values ← records.mapM (key.source.read d)
    let column ← keyColumn key i values
    let rest ← keyColumns d records (i + 1) keys
    return (column.map (⟨"key_" ++ toString i, ·, key.direction⟩)).toList ++ rest

/-- The failure of a sort by key columns, if it is that columns of their types cannot be sorted. -/
def namingKeys (x : Except Error (List Nat)) : Except Error (List Nat) :=
  match x with
  | .error (.fault .columnUnsupported) => .error .unsortableKeys
  | x => x

/-- A table with its rows sorted by all keys: in the order in which the table of the keys is sorted.
Without rows or keys it is not looked at. -/
def sortTable (d : Directory) (keys : List SortKey) (placement : NullPlacement) (t : E.Table) :
    Except Error E.Table :=
  if E.size t == 0 || keys.isEmpty then .ok t
  else do
    let columns ← keyColumns (E := E) d (← E.records t) 0 keys
    if columns.isEmpty then return t
    let keyTable ← E.ofColumns (columns.map fun c => (c.name, c.column))
    let indices ← namingKeys
      (E.sortIndices placement (columns.map fun c => (c.name, c.direction)) keyTable)
    E.take indices t

/-- The rows of a query in their order, as the list or the table that it holds. -/
def sorted (d : Directory) (q : Query E) : Except Error (RowSource E) :=
  match q.source with
  | .list rows => do return .list (← sortList d (q.keys.getD []) rows)
  | .table t placement => do return .table (← sortTable d (q.keys.getD []) placement t) placement

/-- The rows of a query in their order. -/
def rows (d : Directory) (q : Query E) : Except Error (List Value) := do
  (← q.sorted d).rows

/-- The number of rows, for which nothing is sorted. -/
def size (q : Query E) : Nat :=
  match q.source with
  | .list rows => rows.length
  | .table t _ => E.size t

/-- The first row, or the default if there is none. -/
def first (d : Directory) (q : Query E) (default : Value) : Except Error Value := do
  return (← q.rows d).headD default

/-- The table of a query that holds one. -/
def toTable (d : Directory) (q : Query E) : Except Error E.Table := do
  match q.source with
  | .list _ => fail .noAttribute
  | .table t placement => sortTable d (q.keys.getD []) placement t

/-- The members of every object. -/
def objectMembers : List String :=
  ["__class__", "__delattr__", "__dir__", "__doc__", "__eq__", "__format__", "__ge__",
   "__getattribute__", "__getstate__", "__gt__", "__hash__", "__init__", "__init_subclass__",
   "__le__", "__lt__", "__ne__", "__new__", "__reduce__", "__reduce_ex__", "__repr__",
   "__setattr__", "__sizeof__", "__str__", "__subclasshook__"]

/-- The members of a query of its kind. -/
def members (q : Query E) : List String :=
  ["capture", "first", "map_to", "order_by", "order_by_desc", "schema", "select", "to_list",
   "where", "where_if", "where_if_bound", "where_if_not_null", "where_if_not_null_or_empty",
   "_apply_filter", "_apply_projection", "_apply_sort", "_schema", "__iter__", "__len__",
   "__abstractmethods__", "__dict__", "__module__", "__slots__", "__weakref__", "_abc_impl"]
  ++ objectMembers
  ++ (match q.source with
    | .list _ => ["_rows"]
    | .table .. =>
      ["from_pandas", "to_arrow", "to_pandas", "_derive", "_null_placement", "_table"])
  ++ if q.isOrdered then
      ["sort_keys", "then_by", "then_by_desc", "_apply_then_sort", "_keys", "__annotations__"]
    else []

/-- The members of null, which stands for a query that is missing. -/
def missingMembers : List String :=
  "__bool__" :: objectMembers

/-- The query with a number for everything in its rows that has none. How the library numbers what
is in a table is its own. -/
def numbered (numberTable : E.Table → Numbering E.Table) (q : Query E) : Numbering (Query E) := do
  match q.source with
  | .list rows => return { q with source := .list (← rows.mapM Value.numbered) }
  | .table t placement => return { q with source := .table (← numberTable t) placement }

/-- A query over the rows of a list. -/
def ofList (rows : List Value) (schema : Schema) : Query E :=
  { source := .list rows, schema }

/-- A query over a table. Unless a schema is given, the table describes its own under `name`, which
is told by its number from those of other tables. -/
def ofTable (t : E.Table) (placement : NullPlacement) (name : String) (schema : Option Schema)
    (serial : Nat := 0) : Query E :=
  { source := .table t placement,
    schema := schema.getD (Schema.ofColumns (.anonymous name serial) name (E.columns t)) }

end Query
end RecordQuery
