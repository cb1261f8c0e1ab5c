import RecordQuery.Record.Attribute
import RecordQuery.TypeExpr.Formation

/-!
Declaring types. A field of a data class that is written without a default has what its class finds
under the name as its default. A data class is refused when a default could be changed by an
instance, when a member at class level asks for a new container, when the class and its base
disagree on being frozen, or when a field without a default follows one with a default.
-/

namespace RecordQuery.Catalog

/-- Does a constructor argument without a default follow one with a default? -/
def hasLateRequired : List FieldDecl → Bool
  | [] => false
  | f :: fs => (f.default.isSome && fs.any (·.default.isNone)) || hasLateRequired fs

/-- What is wrong with the default of a field. All instances would share a default that they can
change, and nothing makes a new container for a member at class level. -/
def defaultFault? (catalog : Catalog) (f : FieldDecl) : Option Fault :=
  match f.type.isClassVar, f.default with
  | false, some (.value v) | false, some (.inherited v) =>
    if v.isImmutable catalog then none else some .wrongValue
  | true, some .newList | true, some .newDict => some .wrongType
  | _, _ => none

/-- A property as a value. -/
def propertyObject : Value :=
  .object "property" "<property object>"

/-- What the class itself has for a member: the shared value, or the property. -/
def memberValue : ClassMember → Value
  | .property _ => propertyObject
  | .shared v => v

/-- The field with its default. A property of the same class takes the field's place in the class;
what a base class has under the name is the default of a field written without one. -/
def withDefault (catalog : Catalog) (c : ClassDecl) (f : FieldDecl) : FieldDecl :=
  if c.properties.any (·.name == f.name) then
    { f with default := some (.inherited propertyObject), initial := true }
  else if f.initial && f.default.isNone then
    let found := c.base.bind (catalog.member? · f.name)
    { f with default := found.map fun m => .inherited (memberValue m) }
  else f

/-- Is one of the two data classes frozen and the other not? -/
def frozenMismatch : Option ClassDecl → ClassDecl → Bool
  | some { kind := .data f _, .. }, { kind := .data g _, .. } => f != g
  | _, _ => false

/-- A class as it is kept: with the defaults of its fields settled if it is a data class. -/
def settled (catalog : Catalog) (c : ClassDecl) : ClassDecl :=
  if c.isData then { c with fields := c.fields.map (catalog.withDefault c) } else c

/-- The types of a mapping's keys have to be parts of a type. -/
def checkKeyTypes (c : ClassDecl) : Except Fault Unit :=
  c.fields.forM fun f => do
    let _ ← f.type.part

/-- The catalog with one more class. -/
def declare (catalog : Catalog) (c : ClassDecl) : Except Error Catalog := do
  let c := catalog.settled c
  let extended := { catalog with classes := c :: catalog.classes }
  if c.kind == .mapping then ofFault (checkKeyTypes c)
  if !c.isData then .ok extended
  else match c.fields.findSome? catalog.defaultFault? with
  | some fault => fail fault
  | none =>
    if frozenMismatch (c.base.bind catalog.dataClass?) c then fail .wrongType
    else if hasLateRequired ((extended.dataFields c.name).filter (·.initial)) then fail .wrongType
    else .ok extended

/-- The catalog with one more schema, by the name it is declared under. -/
def declareSchema (catalog : Catalog) (s : Schema) : Catalog :=
  { catalog with schemas := (s.name, s) :: catalog.schemas }

end RecordQuery.Catalog
