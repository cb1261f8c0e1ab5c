import RecordQuery.Catalog.Basic

/-!
The attributes of instances. A property takes precedence over a stored attribute, and a stored
attribute over a default that the class shares.
-/

namespace RecordQuery.Catalog

/-- An attribute of an instance, with `fuel` properties still allowed on the way. -/
def instanceAttr (catalog : Catalog) (cls : String) (attrs : List (String × Value)) :
    Nat → String → Except Error Value
  | fuel, name =>
    match catalog.member? cls name with
    | some (.property p) =>
      match p.getter with
      | none => fail .noAttribute
      | some (.constant v) => .ok v
      | some (.attr a) =>
        match fuel with
        | 0 => fail .tooDeep
        | fuel + 1 => instanceAttr catalog cls attrs fuel a
    | some (.shared v) => .ok ((attrs.lookup name).getD v)
    | none =>
      match attrs.lookup name with
      | some v => .ok v
      | none => fail .noAttribute

/-- The attribute of an instance. -/
def attributeOf (catalog : Catalog) (cls : String) (attrs : List (String × Value)) (name : String) :
    Except Error Value :=
  catalog.instanceAttr cls attrs catalog.propertyCount name

/-- The values of the fields of an instance of a data class, in the order of the fields. Reading
one that the instance does not have fails. -/
def fieldValues (catalog : Catalog) (cls : String) (attrs : List (String × Value)) :
    Except Error (List Value) :=
  (catalog.dataFields cls).mapM fun f => catalog.attributeOf cls attrs f.name

end RecordQuery.Catalog
