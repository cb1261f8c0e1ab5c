import RecordQuery.Association
import RecordQuery.Column.Cast
import RecordQuery.Value.MethodNames

/-!
The catalog of declared types: record classes with their fields and properties, mapping types and
hand-made schemas. A class has at most one base class, which was declared before it; `lineage` lists
a class with all its bases, the root first.
-/

namespace RecordQuery

/-- How a property gets its value. -/
inductive Getter where
  | constant (v : Value)
  | attr (name : String)
deriving Inhabited

/-- A computed member of a class. A property without a getter cannot be read, and one without a
setter cannot be assigned; the setter names the attribute that it stores into. -/
structure Property where
  name : String
  type : Option TypeExpr
  getter : Option Getter
  setter : Option String
deriving Inhabited

/-- The default of a field: a value, or a new empty container for each instance. -/
inductive Default where
  | value (v : Value)
  /-- What the class has under the field's name for another reason: the value that a base class
  shares, or a property. -/
  | inherited (v : Value)
  | newList
  | newDict
deriving Inhabited

/-- The default as an instance receives it. -/
def Default.instantiate : Default → Value
  | .value v | .inherited v => v
  | .newList => .list []
  | .newDict => .dict []

/-- A declared field of a class. -/
structure FieldDecl where
  name : String
  type : TypeExpr
  default : Option Default := none
  /-- Is the field an argument of the constructor? -/
  initial : Bool := true
deriving Inhabited

/-- The three kinds of declared classes. -/
inductive ClassKind where
  /-- Instances hold the declared fields and are compared by them. -/
  | data (frozen ordered : Bool)
  /-- Instances hold whatever is stored and are compared by identity. -/
  | plain
  /-- Instances are mappings with the declared keys. -/
  | mapping
deriving DecidableEq, Repr, Inhabited

/-- The constructor of a plain class: the arguments it insists on and the attributes it stores. -/
structure Constructor where
  required : List String := []
  stored : List (String × Value) := []
deriving Inhabited

structure ClassDecl where
  name : String
  kind : ClassKind
  base : Option String := none
  fields : List FieldDecl := []
  properties : List Property := []
  constructor : Option Constructor := none
deriving Inhabited

namespace ClassDecl

def isData (c : ClassDecl) : Bool :=
  match c.kind with
  | .data .. => true
  | _ => false

/-- The values that a class has for its instances. -/
def values (c : ClassDecl) : List Value :=
  (c.properties.filterMap fun p =>
    match p.getter with
    | some (.constant v) => some v
    | _ => none) ++
  c.fields.filterMap fun f =>
    match f.default with
    | some (.value v) | some (.inherited v) => some v
    | _ => none

end ClassDecl

/-- Class-level types are no fields of instances. -/
def TypeExpr.isClassVar : TypeExpr → Bool
  | .classVar _ => true
  | _ => false

/-- The declared types, the latest first. -/
structure Catalog where
  classes : List ClassDecl := []
  schemas : List (String × Schema) := []
  /-- The names of the methods of a value whose class is none of the declared ones. -/
  methodNames : Value → List String := Value.methods
  /-- How the library of tables converts a single value to a column type. -/
  cast : ColumnType → Value → Except Error Value := ColumnType.castValue
deriving Inhabited

namespace Catalog

/-- The class and its bases, the root first, looked for among classes listed the latest first. -/
def lineageIn (name : String) : List ClassDecl → List ClassDecl
  | [] => []
  | c :: earlier =>
    if c.name = name then
      (match c.base with
        | some base => lineageIn base earlier
        | none => []) ++ [c]
    else lineageIn name earlier

def lineage (catalog : Catalog) (name : String) : List ClassDecl :=
  lineageIn name catalog.classes

/-- The class of this name. -/
def class? (catalog : Catalog) (name : String) : Option ClassDecl :=
  catalog.classes.find? (·.name == name)

/-- The nearest data class among a class and its bases. -/
def dataClass? (catalog : Catalog) (name : String) : Option ClassDecl :=
  (catalog.lineage name).reverse.find? (·.isData)

/-- The fields of a data class in the order of its constructor: inherited fields first, and a name
declared again keeps its place, whether as a field or at class level. -/
def dataFields (catalog : Catalog) (name : String) : List FieldDecl :=
  ((catalog.lineage name).filter (·.isData)).flatMap (·.fields)
    |>.foldl (fun fields f => put fields f.name f) []
    |>.map (·.2)
    |>.filter (!·.type.isClassVar)

/-- What a class itself says about an attribute: a property, or a value that its instances share. -/
inductive ClassMember where
  | property (p : Property)
  | shared (v : Value)
deriving Inhabited

/-- The member that one class declares, its properties before its defaults. -/
def ownMember? (c : ClassDecl) (name : String) : Option ClassMember :=
  match c.properties.reverse.find? (·.name == name) with
  | some p => some (.property p)
  | none =>
    match c.fields.reverse.find? (·.name == name) with
    | some { default := some (.value v), .. } => some (.shared v)
    | _ => none

/-- The member that the class or its nearest base declares. -/
def member? (catalog : Catalog) (cls name : String) : Option ClassMember :=
  (catalog.lineage cls).reverse.findSome? (ownMember? · name)

/-- How deep a value nests when the values that its class has are counted as its parts: each of them
was made from classes that were declared before. -/
def nesting (catalog : Catalog) (v : Value) : Nat :=
  catalog.classes.foldl (fun total c => total + (depthOfValues c.values + 1)) v.depth

/-- The number of declared properties: reading an attribute goes through each at most once, unless
they refer to each other in a circle. -/
def propertyCount (catalog : Catalog) : Nat :=
  catalog.classes.foldl (fun total c => total + c.properties.length) 0

end Catalog

end RecordQuery
