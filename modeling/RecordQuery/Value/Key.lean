import RecordQuery.Value.Equality

/-!
Keys of mappings. What a key is compared by must not change, so lists, mappings and instances of
data classes that are not frozen are no keys, and neither is what holds one of them. Entries keep
the order in which their keys were first set.
-/

namespace RecordQuery.Value

/-- Does the class of the instance allow it to be a key? Instances of plain classes are told apart
by identity. -/
def isKeyClass (catalog : Catalog) (cls : String) : Bool :=
  match catalog.dataClass? cls with
  | some { kind := .data frozen _, .. } => frozen
  | _ => true

/-- Fails for a value that is no key, whose parts are checked by `parts`. -/
def checkKeyBy (parts : Value → Except Error Unit) (catalog : Catalog) :
    Value → Except Error Unit
  | .list _ | .dict _ => fail .wrongType
  | .tuple items => items.forM parts
  | .record cls _ attrs =>
    if !isKeyClass catalog cls then fail .wrongType
    else if (catalog.dataClass? cls).isSome then do
      (← catalog.fieldValues cls attrs).forM parts
    else .ok ()
  | _ => .ok ()

/-- Fails for a value that is no key and nests less deep than `depth`. -/
def checkKeyWithin (catalog : Catalog) : (depth : Nat) → Value → Except Error Unit
  | 0 => fun _ => fail .tooDeep
  | depth + 1 => checkKeyBy (checkKeyWithin catalog depth) catalog

/-- Fails for a value that is no key. -/
def checkKey (catalog : Catalog) (v : Value) : Except Error Unit :=
  checkKeyWithin catalog (catalog.nesting v + 1) v

/-- The value of a mapping under a key. -/
def entry? (catalog : Catalog) (entries : List (Value × Value)) (key : Value) :
    Except Error (Option Value) := do
  checkKey catalog key
  return findEntry (equal catalog) key entries

/-- The entries with a key set: in place if a matching key is there, otherwise at the end. -/
def putEntry (catalog : Catalog) (key value : Value) : List (Value × Value) → List (Value × Value)
  | [] => [(key, value)]
  | (k, v) :: rest =>
    if ((k.matching catalog key).toOption.getD false) then (k, value) :: rest
    else (k, v) :: putEntry catalog key value rest

/-- The entries with a key set that may be no key. -/
def setEntry (catalog : Catalog) (key value : Value) (entries : List (Value × Value)) :
    Except Error (List (Value × Value)) := do
  checkKey catalog key
  return putEntry catalog key value entries

end RecordQuery.Value
