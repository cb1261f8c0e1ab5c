import RecordQuery.Column.Inference
import RecordQuery.Number.Double

/-!
Values as columns hold them. A struct column takes mappings, tuples of as many items as it has
fields, or sequences of named items, and its keys are texts or bytes: the first value that is not
null settles which, for all values at that place of the column.

Bytes among the texts of a column have to be UTF-8 if the column's type was given. If it was found
from the values, bytes that are no text stay bytes.
-/

namespace RecordQuery.ColumnType

/-- Where the type of a column comes from. -/
inductive Origin where
  | given
  /-- It is the type that fits the values. -/
  | found
deriving DecidableEq, Repr, Inhabited

/-- The forms in which the values of a struct can be given. -/
inductive StructForm where
  | mapping
  /-- One item for every field, in the order of the fields. -/
  | positional
  /-- Pairs of a name and a value, in the order of the fields. -/
  | named
deriving DecidableEq, Repr, Inhabited

/-- What names the fields in the values of a struct. -/
inductive KeyForm where
  | text | bytes
deriving DecidableEq, Repr, Inhabited

/-- What is settled about the struct at one place of a column's type. -/
structure Settled where
  form : Option StructForm := none
  keys : Option KeyForm := none
deriving Inhabited

/-- What is settled about the structs of a column, by their places in its type. -/
abbrev Settings := List (List Nat × Settled)

/-- Storing values one after the other. -/
abbrev Storing := StateT Settings (Except Error)

/-- The integers that a word of 64 bits holds, with a sign if the given range needs one. -/
def wordRange (range : Int × Int) : Int × Int :=
  if range.1 < 0 then (-Int.pow 2 63, Int.pow 2 63 - 1) else (0, Int.pow 2 64 - 1)

/-- A number as a column of integers of the given range holds it. An integer has to fit a word
first, and a double loses its fraction. -/
def storeInteger (range : Int × Int) : Value → Except Error Value
  | .int i =>
    if !inRange (wordRange range) i then fail .overflow
    else if inRange range i then .ok (.int i)
    else fail .columnValue
  | .float d =>
    match d.truncate? with
    | some i => if inRange range i then .ok (.int i) else fail .columnValue
    | none => fail .columnValue
  | .bool _ => fail .columnType
  | _ => fail .columnValue

/-- A number as a column of doubles holds it. Integers have to be small enough to be exact. -/
def storeDouble : Value → Except Error Value
  | .float d => .ok (.float d.unmarked)
  | .bool b => .ok (.float (.ofInt (if b then 1 else 0)))
  | .int i => if i.natAbs ≤ Nat.pow 2 53 then .ok (.float (.ofInt i)) else fail .columnValue
  | _ => fail .columnValue

/-- A value that is neither a sequence nor a mapping, as a column of the type holds it. -/
def storeScalar (origin : Origin) (t : ColumnType) (v : Value) : Except Error Value :=
  match t, v with
  | .bool, .bool b => .ok (.bool b)
  | .string, .str s => .ok (.str s)
  | .string, .bytes bs =>
    match utf8? bs, origin with
    | some s, _ => .ok (.str s)
    | none, .found => .ok (.bytes bs)
    | none, .given => fail .columnValue
  | .string, _ => fail .columnType
  | .binary, .bytes bs => .ok (.bytes bs)
  | .binary, .str s => .ok (.bytes (utf8 s))
  | .binary, _ => fail .columnType
  | .float64, v => storeDouble v
  | .float32, _ | .other .., _ => fail .columnUnsupported
  | t, v =>
    match t.range? with
    | some range => storeInteger range v
    | none => fail .columnValue

/-- The items of a value that a list column takes: those of a sequence, or the single characters of
a text and the numbers of bytes. -/
def elements? : Value → Option (List Value)
  | .str s => some (s.toList.map fun c => .str (String.singleton c))
  | .bytes bs => some (bs.map fun b => .int b.toNat)
  | v => sequence? v

/-- What is settled about the struct at a place. -/
def settledAt (place : List Nat) : Storing Settled := do
  return ((← get).lookup place).getD {}

def settle (place : List Nat) (s : Settled) : Storing Unit :=
  modify fun all => (place, s) :: all

/-- The form that a value has. -/
def StructForm.of? : Value → Option StructForm
  | .dict _ => some .mapping
  | .tuple _ => some .positional
  | v => (elements? v).map fun _ => .named

/-- The form of the values at a place, settled by the given one if it is the first. -/
def formAt (place : List Nat) (v : Value) : Storing StructForm := do
  let s ← settledAt place
  match s.form, StructForm.of? v with
  | some form, _ => return form
  | none, some form =>
    settle place { s with form := some form }
    return form
  | none, none => throw (.fault .columnType)

/-- The form of a key that names one of the fields. -/
def KeyForm.of? (names : List String) : Value → Option KeyForm
  | .str n => if names.contains n then some .text else none
  | .bytes bs => if (names.map utf8).contains bs then some .bytes else none
  | _ => none

/-- The form of the first key that names a field. The keys may be missing where they are looked
for. -/
def KeyForm.first? (names : List String) : List (Except Error Value) → Except Error (Option KeyForm)
  | [] => .ok none
  | key :: keys => do
    match KeyForm.of? names (← key) with
    | some form => return some form
    | none => first? names keys

/-- The form of the keys at a place, settled by the given ones if they are the first to name a
field. -/
def keysAt (place : List Nat) (names : List String) (keys : List (Except Error Value)) :
    Storing (Option KeyForm) := do
  let s ← settledAt place
  match s.keys with
  | some form => return some form
  | none =>
    let form ← KeyForm.first? names keys
    settle place { s with keys := form }
    return form

/-- Does the key name the field? -/
def KeyForm.names (form : KeyForm) (name : String) : Value → Bool
  | .str n => form == .text && n == name
  | .bytes bs => form == .bytes && bs == utf8 name
  | _ => false

/-- The name and the value of a named item. -/
def namedItem : Value → Except Error (Value × Value)
  | .tuple [k, v] => .ok (k, v)
  | _ => fail .columnType

/-- The value of a field that a named item gives. -/
def KeyForm.itemValue (form : KeyForm) (name : String) (item : Value) : Except Error Value := do
  let (k, v) ← namedItem item
  if form.names name k then return v
  match k with
  | .str _ | .bytes _ => fail .columnValue
  | _ => fail .columnType

/-- The values of the fields of a struct, each of which may be missing where it is looked for. -/
def fieldsOf (place : List Nat) (names : List String) (v : Value) :
    Storing (List (Except Error Value)) := do
  let absent := names.map fun _ => .ok .null
  match ← formAt place v, v with
  | .mapping, .dict entries =>
    match ← keysAt place names (entries.map fun e => .ok e.1) with
    | some form =>
      return names.map fun n =>
        Except.ok (((entries.find? fun e => form.names n e.1).map (·.2)).getD .null)
    | none => return absent
  | .positional, .tuple items =>
    if items.length = names.length then return items.map .ok else throw (.fault .columnValue)
  | .named, v =>
    match elements? v with
    | some items =>
      match ← keysAt place names (items.map fun i => return (← namedItem i).1) with
      | some form =>
        return (names.zip items).map (fun (n, i) => form.itemValue n i) ++ absent.drop items.length
      | none => return absent
    | none => throw (.fault .columnType)
  | _, _ => throw (.fault .columnType)

mutual

/-- A value as a column of the type holds it, at a place of the column's type. -/
def store (origin : Origin) (t : ColumnType) (place : List Nat) (v : Value) : Storing Value :=
  if v.isNull then return .null
  else
    match t with
    | .list item =>
      match elements? v with
      | some items => do return .list (← items.mapM (store origin item (0 :: place)))
      | none => throw (.fault .columnType)
    | .struct fields => do
      let given ← fieldsOf place (fields.map (·.1)) v
      return .dict (← storeFields origin fields place 0 given)
    | t => storeScalar origin t v

def storeFields (origin : Origin) (fields : List (String × ColumnType)) (place : List Nat)
    (i : Nat) (given : List (Except Error Value)) : Storing (List (Value × Value)) :=
  match fields with
  | [] => return []
  | (n, t) :: rest => do
    let v ← (given.headD (.ok .null) : Except Error Value)
    let held ← store origin t (i :: place) v
    return (.str n, held) :: (← storeFields origin rest place (i + 1) given.tail)

end

/-- The values as a column of the type holds them. -/
def storeAll (origin : Origin) (t : ColumnType) (values : List Value) :
    Except Error (List Value) :=
  (values.mapM (store origin t [])).run' []

/-- The type that fits all the values, and the values as a column of that type holds them. -/
def column (values : List Value) : Except Error (ColumnType × List Value) := do
  let t ← infer values
  return (t, ← storeAll .found t values)

end RecordQuery.ColumnType
