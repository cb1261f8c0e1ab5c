import RecordQuery.Value.Key

/-!
Reading and assigning the attributes of values: those of instances through their classes, and those
that values of the other kinds have of their own.
-/

namespace RecordQuery

namespace Value

/-- The attributes of numbers that are numbers themselves. -/
def numberAttr? (n : Number) (name : String) : Option Value :=
  match n, name with
  | .int i, "real" | .int i, "numerator" => some (.int i)
  | .int _, "imag" => some (.int 0)
  | .int _, "denominator" => some (.int 1)
  | .float d, "real" => some (.float d)
  | .float _, "imag" => some (.float (.zero false))
  | _, _ => none

/-- An attribute of a value of a built-in class. -/
def builtinAttr (catalog : Catalog) (v : Value) (name : String) : Except Error Value :=
  match v.number?.bind (numberAttr? · name) with
  | some w => .ok w
  | none =>
    if (catalog.methodNames v).contains name then .ok (.method v name) else fail .noAttribute

/-- A declared type as a value. Null, texts and schemas are what they are; the classes of mappings
are of a kind of their own. -/
def ofType (catalog : Catalog) (t : TypeExpr) : Value :=
  match t with
  | .null => .null
  | .text s => .str s
  | .schema name members =>
    .schema ((catalog.schemas.lookup name).getD
      { key := .declared name, name, fields := members.map fun m => { name := m } })
  | .record name =>
    if (catalog.lineage name).any (·.kind == .mapping) then .object "_TypedDictMeta" t.objectText
    else .type t
  | t => .type t

/-- The methods of schemas. -/
def schemaMethods : List String :=
  ["names", "get", "candidates", "lookup", "matches", "new"]

/-- The class of the records of a schema, if it has one. -/
def recordType (catalog : Catalog) (s : Schema) : Value :=
  match s.key, s.maker with
  | .ofType t, _ =>
    match t with
    | .record _ | .builtin _ | .nullType | .any => ofType catalog t
    | _ => .null
  | _, .mapping => .type (.builtin .dict)
  | _, _ => .null

/-- An attribute of a schema used as a value. -/
def schemaAttr (catalog : Catalog) (s : Schema) (name : String) : Except Error Value :=
  match name with
  | "name" => .ok (.str s.name)
  | "is_mapping" => .ok (.bool s.isMapping)
  | "fields" => .ok (.tuple (s.fields.map .field))
  | "record_type" => .ok (recordType catalog s)
  | name =>
    if schemaMethods.contains name then .ok (.method (.schema s) name) else fail .noAttribute

/-- The methods of the members of schemas. -/
def fieldMethods : List String :=
  ["read", "write", "member_schema"]

/-- An attribute of a member of a schema used as a value. -/
def fieldAttr (catalog : Catalog) (f : Field) (name : String) : Except Error Value :=
  match name with
  | "name" => .ok (.str f.name)
  | "declared_type" => .ok (ofType catalog f.type)
  | "readable" => .ok (.bool f.readable)
  | "writable" => .ok (.bool f.writable)
  | "access" => .ok (.str f.access.word)
  | name => if fieldMethods.contains name then .ok (.method (.field f) name) else fail .noAttribute

/-- An attribute of a resolved chain used as a value. -/
def accessorAttr (catalog : Catalog) (a : Accessor) (name : String) : Except Error Value :=
  match name with
  | "root" => .ok (.schema a.root)
  | "fields" => .ok (.tuple (a.fields.map .field))
  | "chain" => .ok (.tuple (a.chain.map .str))
  | "path" => .ok (.str a.path)
  | "result_type" => .ok (ofType catalog a.resultType)
  | _ => fail .noAttribute

/-- The attribute of a value. Null has none. -/
def readAttr (catalog : Catalog) (v : Value) (name : String) : Except Error Value :=
  match v with
  | .record cls _ attrs => catalog.attributeOf cls attrs name
  | .schema s => schemaAttr catalog s name
  | .field f => fieldAttr catalog f name
  | .accessor a => accessorAttr catalog a name
  | .null => fail .noAttribute
  | v => v.builtinAttr catalog name

/-- Does the class forbid assigning the attribute? A frozen data class forbids it for its own
instances, and for instances of derived classes where its fields are concerned. -/
def isFrozen (catalog : Catalog) (cls name : String) : Bool :=
  match catalog.dataClass? cls with
  | some { name := owner, kind := .data true _, .. } =>
    owner == cls || (catalog.dataFields owner).any (·.name == name)
  | _ => false

/-- Stores an attribute of an instance, through the setter of a property if there is one. What a
setter does is an assignment again, which the class may forbid. -/
def storeAttr (catalog : Catalog) (cls : String) (attrs : List (String × Value))
    (value : Value) : Nat → String → Except Error (List (String × Value))
  | fuel, name =>
    match catalog.member? cls name with
    | some (.property p) =>
      match p.setter, fuel with
      | none, _ => fail .noAttribute
      | some _, 0 => fail .tooDeep
      | some a, fuel + 1 =>
        if isFrozen catalog cls a then fail .frozen else storeAttr catalog cls attrs value fuel a
    | _ => .ok (put attrs name value)

/-- Assigns an attribute of an instance, if its class does not forbid it. -/
def assignAttr (catalog : Catalog) (cls : String) (attrs : List (String × Value)) (name : String)
    (value : Value) : Except Error (List (String × Value)) :=
  if isFrozen catalog cls name then fail .frozen
  else storeAttr catalog cls attrs value catalog.propertyCount name

/-- The value with an attribute assigned. -/
def assign (catalog : Catalog) (v : Value) (name : String) (value : Value) : Except Error Value :=
  match v with
  | .record cls serial attrs => do
    return .record cls serial (← assignAttr catalog cls attrs name value)
  | _ => fail .noAttribute

/-- Do the values of this one's class never change? Instances of a data class do unless it is
frozen; those of a plain class are told apart by identity. -/
def isImmutable (catalog : Catalog) : Value → Bool
  | .list _ | .dict _ => false
  | .record cls _ _ => isKeyClass catalog cls
  | _ => true

end Value

namespace Field

/-- The value of the member in an instance. A mapping without the key has null there; what is no
mapping may have an attribute in place of the look-up, but none that does it. -/
def read (catalog : Catalog) (f : Field) (v : Value) : Except Error Value :=
  match f.access with
  | .attr => v.readAttr catalog f.name
  | .item =>
    match v with
    | .dict entries => do return (← Value.entry? catalog entries (.str f.name)).getD .null
    | v => do
      let _ ← v.readAttr catalog "get"
      fail .wrongType

/-- The instance with the member assigned. -/
def write (catalog : Catalog) (f : Field) (v value : Value) : Except Error Value :=
  match f.access with
  | .attr => v.assign catalog f.name value
  | .item =>
    match v with
    | .dict entries => .ok (.dict (Value.putEntry catalog (.str f.name) value entries))
    | _ => fail .wrongType

end Field

end RecordQuery
