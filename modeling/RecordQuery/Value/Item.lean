import RecordQuery.Value.Key

/-!
Items of values, by position in a sequence and by key in a mapping.
-/

namespace RecordQuery.Value

/-- The value as an integer, where one is expected. -/
def index? : Value → Option Int
  | .bool b => some (if b then 1 else 0)
  | .int i => some i
  | _ => none

/-- A position in a sequence of the given length, counted from the end if it is negative. -/
def position? (length : Nat) (i : Int) : Option Nat :=
  let i := if i < 0 then i + length else i
  if 0 ≤ i && i < length then some i.toNat else none

/-- A boundary in a sequence of the given length: counted from the end if it is negative, and moved
to the nearer end if it is outside. -/
def boundary (length : Nat) (i : Int) : Nat :=
  let i := if i < 0 then i + length else i
  min i.toNat length

/-- The item of a sequence at a position. -/
def itemAt (items : List Value) (key : Value) : Except Error Value :=
  match key.index? with
  | none => fail .wrongType
  | some i =>
    match (position? items.length i).bind (items[·]?) with
    | some v => .ok v
    | none => fail .noIndex

/-- The item of a value under a key. -/
def item (catalog : Catalog) (v key : Value) : Except Error Value :=
  match v with
  | .dict entries => do
    match ← entry? catalog entries key with
    | some w => return w
    | none => fail .noKey
  | .list items | .tuple items => itemAt items key
  | .str s => itemAt (s.toList.map fun c => .str (String.singleton c)) key
  | .bytes bs => itemAt (bs.map fun b => .int b.toNat) key
  | _ => fail .wrongType

end RecordQuery.Value
