import RecordQuery.Error
import RecordQuery.Value.Depth

/-!
The type that fits the values of a column. Values are looked at from the left, and in one sequence
no further than the first truth value, double, text or bytes: what stands behind it has to fit. The
fields of a struct come in the order in which their names are met.
-/

namespace RecordQuery

/-- The text of bytes in UTF-8. -/
def utf8? (bs : List UInt8) : Option String :=
  String.fromUTF8? ⟨bs.toArray⟩

/-- The bytes of a text in UTF-8. -/
def utf8 (s : String) : List UInt8 :=
  s.toUTF8.data.toList

namespace ColumnType

/-- The items of a value that is a sequence. -/
def sequence? : Value → Option (List Value)
  | .list items | .tuple items => some items
  | _ => none

/-- The entries of a value that is a mapping. -/
def mapping? : Value → Option (List (Value × Value))
  | .dict entries => some entries
  | _ => none

/-- The field that a key of a mapping names. -/
def fieldName : Value → Except Error String
  | .str name => .ok name
  | .bytes bs =>
    match utf8? bs with
    | some name => .ok name
    | none => fail .badDecoding
  | _ => fail .columnType

/-- Values that no column can hold. -/
def isForeign : Value → Bool
  | .null | .bool _ | .int _ | .float _ | .str _ | .bytes _ | .list _ | .tuple _ | .dict _ => false
  | _ => true

/-- Is nothing looked at behind the value in its sequence? -/
def settles : Value → Bool
  | .bool _ | .float _ | .str _ | .bytes _ => true
  | _ => false

/-- The part of a sequence that is looked at. -/
def seen : List Value → List Value
  | [] => []
  | v :: vs => if settles v then [v] else v :: seen vs

mutual

/-- Looks at a value: it and its parts have to be of kinds that columns hold, and its keys have to
be texts or bytes. -/
def inspect : Value → Except Error Unit
  | .list items | .tuple items => inspectAll items
  | .dict entries => inspectEntries entries
  | v => if isForeign v then fail .columnValue else .ok ()

def inspectAll : List Value → Except Error Unit
  | [] => .ok ()
  | v :: vs => do
    inspect v
    if settles v then return () else inspectAll vs

def inspectEntries : List (Value × Value) → Except Error Unit
  | [] => .ok ()
  | (k, v) :: rest => do
    match k with
    | .str _ | .bytes _ => inspect v
    | _ => fail .columnType
    inspectEntries rest

end

/-- The type of values that are neither sequences nor mappings: doubles come before integers,
integers before truth values, bytes before text. -/
def scalarType (values : List Value) : ColumnType :=
  if values.any (· matches .float _) then .float64
  else if values.any (· matches .int _) then .int64
  else if values.any (· matches .bool _) then .bool
  else if values.any (· matches .bytes _) then .binary
  else if values.any (· matches .str _) then .string
  else .null

/-- The values of one field among entries. -/
def fieldValues (name : String) (entries : List (String × Value)) : List Value :=
  (entries.filter (·.1 == name)).map (·.2)

/-- The type that fits values nested at most `depth` levels deep. Sequences and mappings cannot be
mixed with anything but nulls. -/
def inferWithin : Nat → List Value → Except Error ColumnType
  | depth, all =>
    let values := all.filter (!·.isNull)
    let sequences := values.filterMap sequence?
    let mappings := values.filterMap mapping?
    if sequences.isEmpty && mappings.isEmpty then .ok (scalarType values)
    else
      match depth with
      | 0 => fail .columnValue
      | depth + 1 =>
        if sequences.length = values.length then do
          return .list (← inferWithin depth (sequences.flatMap seen))
        else if mappings.length = values.length then do
          let entries ← mappings.flatten.mapM fun (k, v) => do return (← fieldName k, v)
          let fields ← (entries.map (·.1)).eraseDups.mapM fun n => do
            return (n, ← inferWithin depth (fieldValues n entries))
          return .struct fields
        else fail .columnValue

/-- The type that fits all the values. Bytes behind a text make the column one of bytes. -/
def infer (values : List Value) : Except Error ColumnType := do
  inspectAll values
  match ← inferWithin (depthOfValues values) (seen values) with
  | .string => return if values.any (· matches .bytes _) then .binary else .string
  | t => return t

end ColumnType
end RecordQuery
