import RecordQuery.Catalog.Annotation

/-!
The schema of a type. Data classes expose their fields and then their properties, plain classes
their public annotations and then their properties, mapping types their keys; all other types have
no members.
-/

namespace RecordQuery.Catalog

/-- Names that start with an underscore are private. -/
def isPrivate (name : String) : Bool :=
  name.startsWith "_"

/-- Is it a fault of references that are passed over? -/
def isPassedOver (f : Fault) : Bool :=
  f == .noName || f == .wrongType

/-- The fault that keeps the annotations of a class and the types of its public properties from
being looked up, if it cannot be passed over. -/
def annotationFault? (catalog : Catalog) (name : String) : Option Fault :=
  let properties := ((catalog.lineage name).flatMap (·.properties)).filter (!isPrivate ·.name)
  let faults := (catalog.resolved name).map (fun _ => ()) ::
    properties.map fun p => (catalog.resolvedProperty p).map fun _ => ()
  faults.findSome? fun
    | .error f => if isPassedOver f then none else some f
    | .ok _ => none

/-- The public properties of a class and its bases, the root first. A name that was seen before is
passed over, so the declaration nearest to the root decides. -/
def propertyFields (catalog : Catalog) (name : String) (seen : List String) : List Field :=
  let properties := (catalog.lineage name).flatMap (·.properties)
  (properties.foldl (fun (fields : List (String × Field)) p =>
      if isPrivate p.name || seen.contains p.name || fields.any (·.1 == p.name) then fields
      else
        fields ++ [(p.name,
          { name := p.name, type := catalog.propertyType p,
            readable := p.getter.isSome, writable := p.setter.isSome })])
    []).map (·.2)

/-- The members of a data class. A field that the constructor takes can be given to a frozen record
too. -/
def dataMembers (catalog : Catalog) (name : String) (frozen : Bool) : List Field :=
  let types := catalog.annotations name
  let fields := catalog.dataFields name
  fields.map (fun f =>
    { name := f.name, type := (types.lookup f.name).getD f.type, writable := f.initial || !frozen })
    ++ catalog.propertyFields name (fields.map (·.name))

/-- The members of a plain class. -/
def plainMembers (catalog : Catalog) (name : String) : List Field :=
  let exposed := (catalog.annotations name).filter fun (n, t) => !isPrivate n && !t.isClassVar
  exposed.map (fun (n, t) => { name := n, type := t })
    ++ catalog.propertyFields name (exposed.map (·.1))

/-- The members of a mapping type. -/
def mappingMembers (catalog : Catalog) (name : String) : List Field :=
  (catalog.annotations name).map fun (n, t) => { name := n, type := t, access := .item }

/-- The schema of a declared class. -/
def classSchema (catalog : Catalog) (name : String) : Schema :=
  let key := .ofType (.record name)
  match catalog.dataClass? name with
  | some { kind := .data frozen _, .. } =>
    { key, name, fields := catalog.dataMembers name frozen, maker := .instance name }
  | _ =>
    if (catalog.lineage name).any (·.kind == .mapping) then
      { key, name, fields := catalog.mappingMembers name, maker := .mapping }
    else { key, name, fields := catalog.plainMembers name, maker := .instance name }

/-- A schema declared by hand, by the name it was declared under. -/
def declaredSchema? (catalog : Catalog) (name : String) : Option Schema :=
  (catalog.schemas.lookup name).map fun s => { s with key := .declared name }

/-- The schema of a type. -/
def schemaOf (catalog : Catalog) (t : TypeExpr) : Schema :=
  match t with
  | .record name => catalog.classSchema name
  | .schema name _ =>
    (catalog.declaredSchema? name).getD { key := .declared name, name, fields := [] }
  | .any => { key := .ofType .any, name := t.name, fields := [], maker := .uninstantiable }
  | t => { key := .ofType t, name := t.name, fields := [] }

/-- Can the type be described? The references in it have to be expressions that mean something. -/
def checkDescribable (catalog : Catalog) (t : TypeExpr) : Except Error Unit :=
  match t with
  | .record name =>
    match catalog.annotationFault? name with
    | some f => fail f
    | none => .ok ()
  | _ => .ok ()

end RecordQuery.Catalog
