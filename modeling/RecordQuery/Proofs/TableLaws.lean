import RecordQuery.Proofs.ColumnValue
import RecordQuery.Proofs.KeyOrder

/-!
# What is asked of a library of tables

The facts about a library of tables that queries rely on. A filter or a choice of positions selects
rows and keeps the columns (`Engine.SelectsRows`); the table of the keys is made of their values and
sorted stably, with nulls at one end (`Engine.SortsStably`); and tables are made of records and read
as records (`Engine.KeepsRecords`). No more than this is known of a library that queries are not
written for.
-/

namespace RecordQuery

/-! ### Keys that columns hold -/

/-- The kinds of values that a column of keys holds. -/
inductive CellKind where
  | bool | integer | text

/-- The type of the columns that hold values of the kind. -/
def CellKind.type : CellKind → ColumnType
  | bool => .bool
  | integer => .int64
  | text => .string

/-- The kind of keys that the values are. -/
def CellKind.keyKind : CellKind → KeyKind
  | bool | integer => .number
  | text => .text

namespace Value

/-- The value is null or of the kind; integers have 64 bits. -/
inductive IsCell : CellKind → Value → Prop
  | null (kind : CellKind) : IsCell kind .null
  | bool (b : Bool) : IsCell .bool (.bool b)
  | int {i : Int} (hi : -2 ^ 63 ≤ i ∧ i < 2 ^ 63) : IsCell .integer (.int i)
  | str (s : String) : IsCell .text (.str s)

theorem IsCell.isKey {kind : CellKind} {v : Value} (h : v.IsCell kind) : v.IsKey kind.keyKind := by
  cases h with
  | null => exact .null _
  | bool b => exact .bool b
  | int => exact .int _
  | str s => exact .str s

end Value

/-! ### Nulls at one end -/

namespace NullPlacement

variable {placement : NullPlacement} {direction : Direction} {x y z : Rank}

/-- Does a rank come before another one if null comes at the end of the placement, whatever the
direction? -/
def Before (placement : NullPlacement) (direction : Direction) (x y : Rank) : Prop :=
  match placement with
  | .atStart => y ≠ ⊥ ∧ (x = ⊥ ∨ direction.Before x y)
  | .atEnd => x ≠ ⊥ ∧ (y = ⊥ ∨ direction.Before x y)

theorem Before.asymm (h : placement.Before direction x y) : ¬ placement.Before direction y x := by
  intro h'
  cases placement with
  | atStart => exact (h.2.resolve_left h'.1).asymm (h'.2.resolve_left h.1)
  | atEnd => exact (h.2.resolve_left h'.1).asymm (h'.2.resolve_left h.1)

/-- Of two ranks in order, a third one stands behind the first or before the second. -/
theorem Before.or (h : placement.Before direction x z) (y : Rank) :
    placement.Before direction x y ∨ placement.Before direction y z := by
  by_cases hy : y = ⊥
  · cases placement with
    | atStart => exact .inr ⟨h.1, .inl hy⟩
    | atEnd => exact .inl ⟨h.1, .inl hy⟩
  · cases placement with
    | atStart =>
      rcases h.2 with hx | hxz
      · exact .inl ⟨hy, .inl hx⟩
      · exact (hxz.or y).imp (fun hxy => ⟨hy, .inr hxy⟩) fun hyz => ⟨h.1, .inr hyz⟩
    | atEnd =>
      rcases h.2 with hz | hxz
      · exact .inr ⟨hy, .inl hz⟩
      · exact (hxz.or y).imp (fun hxy => ⟨h.1, .inr hxy⟩) fun hyz => ⟨hy, .inr hyz⟩

theorem not_before_self : ¬ placement.Before direction x x := fun h => h.asymm h

end NullPlacement

/-- Do the named columns of a table put the first row before the second one? -/
def Row.KeysBefore (placement : NullPlacement) (keys : List (String × Direction)) (a b : Value) :
    Prop :=
  Lexicographic (fun key a b => placement.Before key.2 (cell key.1 a).rank (cell key.1 b).rank)
    keys a b

/-! ### The laws -/

namespace Engine

/-- Rows are selected by a mask or by their positions, and the columns stay. -/
structure SelectsRows (E : Engine) : Prop where
  /-- All rows are read. -/
  size {t : E.Table} {rows : List Value} : E.records t = .ok rows → rows.length = E.size t
  columns_filter {mask : List Bool} {t t' : E.Table} :
    E.filter mask t = .ok t' → E.columns t' = E.columns t
  columns_take {positions : List Nat} {t t' : E.Table} :
    E.take positions t = .ok t' → E.columns t' = E.columns t
  /-- A mask with a truth value for each row keeps the rows where it is true. -/
  filter {mask : List Bool} {t : E.Table} {rows : List Value} :
    E.records t = .ok rows → mask.length = rows.length →
      ∃ t', E.filter mask t = .ok t' ∧ E.records t' = .ok (keepMasked mask rows)
  /-- Positions of rows can be taken in any order. -/
  take {positions : List Nat} {t : E.Table} {rows : List Value} :
    E.records t = .ok rows → (∀ i ∈ positions, i < rows.length) →
      ∃ t', E.take positions t = .ok t' ∧
        E.records t' = .ok (positions.map fun i => rows.getD i .null)

/-- Keys of one kind make a column, columns make a table, and a table is sorted stably by columns of
such keys. -/
structure SortsStably (E : Engine) : Prop where
  /-- Values of one kind make a column of its type, or one of nulls if there are no others. -/
  column {kind : CellKind} {values : List Value} : (∀ v ∈ values, v.IsCell kind) →
    ∃ column, E.column values = .ok column ∧
      ((E.columnType column = .null ∧ ∀ v ∈ values, v = .null) ∨
        E.columnType column = kind.type)
  /-- Truth values and integers make no column together. -/
  column_mixed {values : List Value} {column : E.Column} : E.column values = .ok column →
    (∀ v ∈ values, v.IsCell .bool ∨ v.IsCell .integer) →
      (∀ v ∈ values, v.IsCell .bool) ∨ ∀ v ∈ values, v.IsCell .integer
  /-- Columns of one length make a table under distinct names, whose rows have their values. -/
  ofColumns {columns : List (String × E.Column × List Value)} {n : Nat} : columns ≠ [] →
    (columns.map (·.1)).Nodup →
    (∀ c ∈ columns, E.column c.2.2 = .ok c.2.1 ∧ c.2.2.length = n ∧
      ∃ kind, E.columnType c.2.1 = CellKind.type kind ∧ ∀ v ∈ c.2.2, v.IsCell kind) →
    ∃ t rows, E.ofColumns (columns.map fun c => (c.1, c.2.1)) = .ok t ∧
      E.columns t = columns.map (fun c => (c.1, E.columnType c.2.1)) ∧
      E.records t = .ok rows ∧ rows.length = n ∧ ∀ c ∈ columns, rows.map (Row.cell c.1) = c.2.2
  /-- The positions of the rows in the order of the named columns; rows that agree on them keep
  their order. -/
  sortIndices {placement : NullPlacement} {keys : List (String × Direction)} {t : E.Table}
    {rows : List Value} : E.records t = .ok rows → keys ≠ [] → ((E.columns t).map (·.1)).Nodup →
    (∀ key ∈ keys, ∃ kind : CellKind, (key.1, kind.type) ∈ E.columns t ∧
      ∀ row ∈ rows, (Row.cell key.1 row).IsCell kind) →
    ∃ positions, E.sortIndices placement keys t = .ok positions ∧
      positions.Perm (List.range rows.length) ∧
      positions.Pairwise fun i j =>
        Row.KeysBefore placement keys (rows.getD i .null) (rows.getD j .null) ∨
        ¬ Row.KeysBefore placement keys (rows.getD j .null) (rows.getD i .null) ∧ i < j

/-- Tables are made of records and read as records. -/
structure KeepsRecords (E : Engine) : Prop where
  columns_ofRecords {columns : List (String × ColumnType)} {records : List Value} {t : E.Table} :
    E.ofRecords columns records = .ok t → E.columns t = columns
  /-- Records of the columns are read as they were given. -/
  records_ofRecords {columns : List (String × ColumnType)} {records : List Value} {t : E.Table} :
    columns ≠ [] → (ColumnType.struct columns).IsPlain →
    (∀ r ∈ records, Row.HasColumns columns r) → E.ofRecords columns records = .ok t →
      E.records t = .ok records
  /-- Columns that are found from records are named like the first record. -/
  names_inferRecords {records : List Value} {t : E.Table} : E.inferRecords records = .ok t →
    (E.columns t).map (·.1) = (records.head?.map Row.names).getD []
  size_inferRecords {t : E.Table} : E.inferRecords [] = .ok t → E.size t = 0
  /-- What is read are values of the columns. -/
  hasColumns {t : E.Table} {records : List Value} : E.records t = .ok records →
    (ColumnType.struct (E.columns t)).IsPlain → ∀ r ∈ records, Row.HasColumns (E.columns t) r

end Engine

/-- What the library converts to a plain type is a value of the type. -/
def Catalog.CastsToPlain (catalog : Catalog) : Prop :=
  ∀ {t : ColumnType} {v w : Value}, t.IsPlain → catalog.cast t v = .ok w → t.Holds w

end RecordQuery
