import RecordQuery.Column.Storage
import RecordQuery.Column.Text

/-!
Conversion of column values from one type to another. Numbers must not lose anything on the way;
lists and structs are converted part by part. The fields of a struct are found by name, those that
the source lacks are null, and no name may stand for two fields.
-/

namespace RecordQuery.ColumnType

/-- A converted value, if there is one. -/
def orInvalid (v : Option Value) : Except Error Value :=
  match v with
  | some v => .ok v
  | none => fail .columnValue

/-- An integer of the type's range. -/
def castInteger (range : Int × Int) (i : Int) : Option Value :=
  if inRange range i then some (.int i) else none

/-- A value of one of the types that hold no parts, converted to another of them. -/
def castScalar (target : ColumnType) (v : Value) : Except Error Value :=
  match target, v with
  | .bool, .bool b => .ok (.bool b)
  | .bool, .int i => .ok (.bool (i != 0))
  | .bool, .float d => .ok (.bool !d.isZero)
  | .bool, .str s => orInvalid ((ColumnText.bool? s.toList).map .bool)
  | .float64, .bool b => .ok (.float (.ofInt (if b then 1 else 0)))
  | .float64, .int i =>
    orInvalid (if i.natAbs ≤ Nat.pow 2 53 then some (.float (.ofInt i)) else none)
  | .float64, .float d => .ok (.float d.unmarked)
  | .float64, .str s => orInvalid ((ColumnText.double? s.toList).map .float)
  | .string, .bool b => .ok (.str (if b then "true" else "false"))
  | .string, .int i => .ok (.str (toString i))
  | .string, .float d => .ok (.str (Double.columnLayout.text d))
  | .string, .str s => .ok (.str s)
  | .binary, .str s => .ok (.bytes (utf8 s))
  | .binary, .bytes bs => .ok (.bytes bs)
  | target, v =>
    match target.range?, target.width?, v with
    | some _, _, .bool b => .ok (.int (if b then 1 else 0))
    | some range, _, .int i => orInvalid (castInteger range i)
    | some range, _, .float d => orInvalid (d.toInt?.bind (castInteger range))
    | some range, some width, .str s =>
      orInvalid ((ColumnText.integer? range width s.toList).map .int)
    | _, _, _ => fail .columnUnsupported

/-- Bytes are converted like the text that they are, if they are one. -/
def castAtom (target : ColumnType) (v : Value) : Except Error Value :=
  match target, v with
  | .binary, v => castScalar .binary v
  | target, .bytes bs =>
    match utf8? bs with
    | some s => castScalar target (.str s)
    | none => fail .columnValue
  | target, v => castScalar target v

mutual

/-- A value of a column of type `source` converted to the type `target`. -/
def cast (source target : ColumnType) (v : Value) : Except Error Value :=
  match target with
  | .list item =>
    match source, v with
    | .null, _ => .ok .null
    | .list from', .list items => do return .list (← items.mapM (cast from' item))
    | .list _, .null => .ok .null
    | _, _ => fail .columnUnsupported
  | .struct fields =>
    match source, v with
    | .null, _ => .ok .null
    | .struct from', .dict entries =>
      if (fields.map (·.1)).Nodup then do return .dict (← castFields from' fields entries)
      else fail .columnType
    | .struct _, .null => .ok .null
    | _, _ => fail .columnUnsupported
  | target =>
    match source, v with
    | .null, _ => .ok .null
    | .list _, _ | .struct _, _ => fail .columnUnsupported
    | _, .null => .ok .null
    | _, v => castAtom target v

def castFields (source target : List (String × ColumnType)) (entries : List (Value × Value)) :
    Except Error (List (Value × Value)) :=
  match target with
  | [] => .ok []
  | (n, t) :: rest => do
    let given := entries.findSome? fun (k, w) =>
      match k with
      | .str m => if m = n then some w else none
      | _ => none
    let converted ←
      match source.lookup n, given with
      | some from', some w => cast from' t w
      | _, _ => .ok .null
    return (.str n, converted) :: (← castFields source rest entries)

end

/-- A single value converted to a column type, by way of the type that fits it. -/
def castValue (target : ColumnType) (v : Value) : Except Error Value := do
  let (source, held) ← column [v]
  cast source target (held.headD .null)

end RecordQuery.ColumnType
