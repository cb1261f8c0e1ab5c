import RecordQuery.Record.Attribute

/-!
Building records. A data class is built from the values of its fields, a plain class from nothing
with attributes assigned afterwards, and a mapping from its keys with null for those not given.
-/

namespace RecordQuery.Catalog

/-- The arguments of a call by position and by name, as pairs in the order of the parameters. None
if there are too many arguments, an unknown name, or a parameter given twice. -/
def bindArguments? (params : List String) (args : List Value) (named : List (String × Value)) :
    Option (List (String × Value)) :=
  let positional := params.zip args
  if params.length < args.length then none
  else if named.all fun (n, _) => params.contains n && !positional.any (·.1 == n) then
    some (positional ++ named)
  else none

/-- The attributes of an instance after storing one more. -/
def store (catalog : Catalog) (cls : String) (attrs : List (String × Value)) (name : String)
    (value : Value) : Except Error (List (String × Value)) :=
  Value.storeAttr catalog cls attrs value catalog.propertyCount name

/-- Stores the value that one field of a new instance gets: the given one, or its default. A field
that the constructor does not take stores a default only if that is made for each instance. -/
def storeField (catalog : Catalog) (cls : String) (given attrs : List (String × Value))
    (f : FieldDecl) : Except Error (List (String × Value)) :=
  match f.initial, given.lookup f.name, f.default with
  | true, some v, _ => catalog.store cls attrs f.name v
  | true, none, some d => catalog.store cls attrs f.name d.instantiate
  | true, none, none => fail .wrongType
  | false, _, some .newList => catalog.store cls attrs f.name (.list [])
  | false, _, some .newDict => catalog.store cls attrs f.name (.dict [])
  | false, _, _ => .ok attrs

/-- What makes the instances of a class: the fields of a data class, or a constructor. -/
inductive Construction where
  | byFields
  | by (c : Constructor)
deriving Inhabited

/-- The construction that the class or its nearest base prescribes. -/
def construction? (catalog : Catalog) (cls : String) : Option Construction :=
  (catalog.lineage cls).reverse.findSome? fun c =>
    if c.isData then some .byFields else c.constructor.map .by

/-- Calls a class with arguments. -/
def construct (catalog : Catalog) (cls : String) (args : List Value)
    (named : List (String × Value)) : Except Error Value := do
  match catalog.construction? cls with
  | some .byFields =>
    let fields := catalog.dataFields cls
    match bindArguments? ((fields.filter (·.initial)).map (·.name)) args named with
    | none => fail .wrongType
    | some given =>
      return .record cls 0 (← fields.foldlM (catalog.storeField cls given) [])
  | some (.by c) =>
    match bindArguments? c.required args named with
    | some given =>
      if c.required.all fun n => given.any (·.1 == n) then
        return .record cls 0
          (← c.stored.foldlM (fun attrs (n, v) => Value.assignAttr catalog cls attrs n v) [])
      else fail .wrongType
    | none => fail .wrongType
  | none => if args.isEmpty && named.isEmpty then return .record cls 0 [] else fail .wrongType

/-- Assigns attributes one after the other. -/
def assignAll (catalog : Catalog) (v : Value) (values : List (String × Value)) :
    Except Error Value :=
  values.foldlM (fun v (n, w) => v.assign catalog n w) v

/-- The constructor arguments that values for members make: required fields that are not given are
null, and fields with a default are left to it. -/
def constructorArguments (fields : List FieldDecl) (values : List (String × Value)) :
    List (String × Value) :=
  (fields.filter (·.initial)).filterMap fun f =>
    match values.lookup f.name, f.default with
    | some v, _ => some (f.name, v)
    | none, none => some (f.name, .null)
    | none, some _ => none

/-- A new instance of a class with values for its members. What its constructor does not take is
assigned afterwards. -/
def newInstance (catalog : Catalog) (cls : String) (values : List (String × Value)) :
    Except Error Value := do
  if (catalog.dataClass? cls).isSome then
    let args := constructorArguments (catalog.dataFields cls) values
    let v ← catalog.construct cls [] args
    catalog.assignAll v (values.filter fun (n, _) => !args.any (·.1 == n))
  else
    catalog.assignAll (← catalog.construct cls [] []) values

/-- An instance as it is written down: the fields that its constructor takes are passed to it and
all others are stored, whether the class is frozen or not. -/
def writtenInstance (catalog : Catalog) (cls : String) (serial : Nat)
    (values : List (String × Value)) : Except Error Value := do
  let args :=
    if (catalog.dataClass? cls).isSome then
      values.filter fun (n, _) => (catalog.dataFields cls).any fun f => f.initial && f.name == n
    else []
  match ← catalog.construct cls [] args with
  | .record _ _ attrs =>
    let rest := values.filter fun (n, _) => !args.any (·.1 == n)
    return .record cls (if (catalog.dataClass? cls).isSome then 0 else serial)
      (← rest.foldlM (fun attrs (n, v) => catalog.store cls attrs n v) attrs)
  | v => return v

end RecordQuery.Catalog

namespace RecordQuery.Schema

/-- A mapping from names, with null for the writable members that are not given. -/
def newMapping (s : Schema) (values : List (String × Value)) : Value :=
  let blank := (s.fields.filter (·.writable)).foldl (fun all f => put all f.name Value.null) []
  .dict ((values.foldl (fun all (n, v) => put all n v) blank).map fun (n, v) => (.str n, v))

/-- The name that no member can be given under. -/
def reservedName : String := "self"

/-- A new record with the given values for its members. -/
def new (catalog : Catalog) (s : Schema) (values : List (String × Value)) : Except Error Value :=
  if values.any (·.1 == reservedName) then fail .wrongType
  else
    match s.maker with
    | .nothing => .error (.notConstructible s.name)
    | .uninstantiable => fail .wrongType
    | .mapping => .ok (s.newMapping values)
    | .instance cls => catalog.newInstance cls values

end RecordQuery.Schema
