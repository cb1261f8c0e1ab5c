import RecordQuery.Number.Numeral
import RecordQuery.Value.Printer
import RecordQuery.Record.Attribute

/-!
Calling a built-in class with one value: the conversions between numbers, texts and containers.
-/

namespace RecordQuery.Value

/-- What going through a value yields, item by item. -/
def iterate? : Value → Option (List Value)
  | .list items | .tuple items => some items
  | .str s => some (s.toList.map fun c => .str (String.singleton c))
  | .bytes bs => some (bs.map fun b => .int b.toNat)
  | .dict entries => some (entries.map (·.1))
  | .schema s => some (s.fields.map .field)
  | _ => none

/-- The items of a value, if it has any. -/
def iterate (v : Value) : Except Error (List Value) :=
  match v.iterate? with
  | some items => .ok items
  | none => fail .wrongType

/-- The text of bytes, each a character of the same number. -/
def latinText (bs : List UInt8) : String :=
  String.ofList (bs.map fun b => Char.ofNat b.toNat)

/-- A number read from text. -/
def orBadValue (v : Option Value) : Except Error Value :=
  match v with
  | some v => .ok v
  | none => fail .wrongValue

/-- Bytes outside ASCII are no part of a number. -/
def asciiText? (bs : List UInt8) : Option String :=
  if bs.all (· < 128) then some (latinText bs) else none

def toInt : Value → Except Error Value
  | .bool b => .ok (.int (if b then 1 else 0))
  | .int i => .ok (.int i)
  | .float d =>
    match d with
    | .nan _ => fail .wrongValue
    | .infinity _ => fail .overflow
    | d => .ok (.int (d.truncate?.getD 0))
  | .str s => orBadValue ((Numeral.integer? s).map .int)
  | .bytes bs => orBadValue (((asciiText? bs).bind Numeral.integer?).map .int)
  | _ => fail .wrongType

/-- An integer as a double, if there is one of its size. -/
def doubleOfInt (i : Int) : Except Error Double :=
  match Double.ofInt? i with
  | some d => .ok d
  | none => fail .overflow

def toFloat : Value → Except Error Value
  | .bool b => .ok (.float (.ofInt (if b then 1 else 0)))
  | .int i => do return .float (← doubleOfInt i)
  | .float d => .ok (.float d)
  | .str s => orBadValue ((Numeral.double? s).map .float)
  | .bytes bs => orBadValue (((asciiText? bs).bind Numeral.double?).map .float)
  | _ => fail .wrongType

/-- The most bytes that are made at once. -/
def byteLimit : Int := Int.pow 2 27

/-- From here on a number of bytes, with what a byte sequence holds besides, is too large for a word
of 64 bits. -/
def byteOverflow : Int := Int.pow 2 63 - 33

/-- A single byte. -/
def toByte : Value → Except Error UInt8
  | .bool b => .ok (if b then 1 else 0)
  | .int i => if 0 ≤ i && i < 256 then .ok i.toNat.toUInt8 else fail .wrongValue
  | _ => fail .wrongType

def toBytes : Value → Except Error Value
  | .bool b => .ok (.bytes (if b then [0] else []))
  | .int i =>
    if i < 0 then (if i < -Int.pow 2 63 then fail .overflow else fail .wrongValue)
    else if byteOverflow ≤ i then fail .overflow
    else if byteLimit < i then fail .outOfMemory
    else .ok (.bytes (List.replicate i.toNat 0))
  | .str _ => fail .wrongType
  | .bytes bs => .ok (.bytes bs)
  | v => do
    let items ← v.iterate
    return .bytes (← items.mapM toByte)

/-- The key and the value that an item of a sequence of pairs stands for. -/
def toPair (v : Value) : Except Error (Value × Value) := do
  match ← v.iterate with
  | [k, w] => return (k, w)
  | _ => fail .wrongValue

def toDict (catalog : Catalog) : Value → Except Error Value
  | .dict entries => .ok (.dict entries)
  | v => do
    let items ← v.iterate
    let entries ← items.foldlM (fun all item => do
      let (k, w) ← item.toPair
      setEntry catalog k w all) []
    return .dict entries

/-- The classes whose instances are classes. -/
def classKinds : List String :=
  ["type", "_AnyMeta", "_TypedDictMeta"]

/-- Is the value a class? -/
def isClass (v : Value) : Bool :=
  match v with
  | .type _ | .object .. => classKinds.contains v.typeName
  | _ => false

/-- Fails for a value that is no complex number and no text of one. -/
def checkComplex : Value → Except Error Unit
  | .bool _ | .float _ => .ok ()
  | .int i => do
    let _ ← doubleOfInt i
    return ()
  | .str s => if Numeral.isComplex s then .ok () else fail .wrongValue
  | _ => fail .wrongType

/-- The class of what goes backwards through a value: lists and mappings have one of their own. -/
def reversedKind? : Value → Option String
  | .list _ => some "list_reverseiterator"
  | .dict _ => some "dict_reversekeyiterator"
  | .str _ | .bytes _ | .tuple _ => some "reversed"
  | _ => none

/-- An instance of which only the class is known. -/
def instanceOf (cls : String) : Value :=
  .object cls ("<" ++ cls ++ ">")

/-- Calls a built-in class of whose instances only the class is known. -/
def toOther (catalog : Catalog) (cls : String) (v : Value) : Except Error Value :=
  match cls with
  | "set" | "frozenset" => do
    (← v.iterate).forM (checkKey catalog)
    return instanceOf cls
  | "bytearray" => do
    let _ ← v.toBytes
    return instanceOf cls
  | "range" =>
    match v with
    | .bool _ | .int _ => .ok (instanceOf cls)
    | _ => fail .wrongType
  | "complex" => do
    v.checkComplex
    return instanceOf cls
  | "enumerate" | "zip" => do
    let _ ← v.iterate
    return instanceOf cls
  | "reversed" =>
    match v.reversedKind? with
    | some kind => .ok (instanceOf kind)
    | none => fail .wrongType
  | "memoryview" =>
    match v with
    | .bytes _ => .ok (instanceOf cls)
    | _ => fail .wrongType
  | "super" => if v.isClass then .ok (instanceOf cls) else fail .wrongType
  | "classmethod" | "property" | "slice" | "staticmethod" | "type" => .ok (instanceOf cls)
  | _ =>
    if Builtin.isException cls && !Builtin.exactingExceptions.contains cls then
      .ok (instanceOf cls)
    else fail .wrongType

/-- Calls a built-in class with the value. -/
def toBuiltin (catalog : Catalog) (b : Builtin) (v : Value) : Except Error Value :=
  match b with
  | .int => v.toInt
  | .float => v.toFloat
  | .str => do return .str (← v.plainText catalog)
  | .bool => do return .bool (← v.truthy)
  | .bytes => v.toBytes
  | .list => do return .list (← v.iterate)
  | .tuple => do return .tuple (← v.iterate)
  | .dict => v.toDict catalog
  | .object => fail .wrongType
  | .other cls => v.toOther catalog cls

end RecordQuery.Value
