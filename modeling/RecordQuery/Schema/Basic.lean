import RecordQuery.TypeExpr.Printer
import RecordQuery.Text.Casing

/-!
Schemas: the ordered members that a record type exposes. `Schema.candidates` states how a written
name is matched: an exact readable member wins, otherwise all readable members that agree with the
name up to case are candidates, in their order.
-/

namespace RecordQuery

/-- How a member is read and written: as an attribute of an object or as an item of a mapping. -/
inductive Access where
  | attr | item
deriving DecidableEq, Repr, Inhabited

/-- The word for a way of reading. -/
def Access.word : Access → String
  | .attr => "attribute"
  | .item => "item"

/-- Where the schema of a member's value comes from. -/
inductive Nesting where
  /-- From the declared type. -/
  | declaredType
  /-- The declared type is a struct whose schema goes by the given name. -/
  | struct (name : String)
  /-- A schema given by the name it was declared under. -/
  | given (name : String)
deriving DecidableEq, Repr, Inhabited

/-- A member of a record type. -/
structure Field where
  name : String
  type : TypeExpr := .any
  readable : Bool := true
  writable : Bool := true
  access : Access := .attr
  nesting : Nesting := .declaredType
deriving Inhabited

/-- The shown form of a member: its name, its type and whether it can be read and written. -/
def Field.text (f : Field) : String :=
  "FieldDescriptor(" ++ Text.quoted f.name ++ ", " ++ f.type.name ++ ", " ++
    (if f.readable then "r" else "-") ++ (if f.writable then "w" else "-") ++ ")"

/-- What a schema builds when it is given values. -/
inductive Maker where
  | nothing
  /-- A mapping with every writable member. -/
  | mapping
  /-- An instance of the declared class of this name. -/
  | instance (cls : String)
  /-- An instance of a class that cannot be instantiated. -/
  | uninstantiable
deriving DecidableEq, Repr, Inhabited

/-- Which schema it is: schemas introspected from equal types are one schema, and those that were
made neither from a type nor by a declaration are told apart by numbers. -/
inductive SchemaKey where
  | ofType (t : TypeExpr)
  | declared (name : String)
  | anonymous (name : String) (serial : Nat := 0)
deriving Inhabited

/-- Two keys stand for the same schema. -/
def SchemaKey.same : SchemaKey → SchemaKey → Bool
  | .ofType a, .ofType b => a.sameKey b
  | .declared a, .declared b => a == b
  | .anonymous a i, .anonymous b j => a == b && i == j
  | _, _ => false

/-- The ordered members of a record type. -/
structure Schema where
  key : SchemaKey
  name : String
  fields : List Field
  maker : Maker := .nothing
deriving Inhabited

namespace Schema

def names (s : Schema) : List String :=
  s.fields.map (·.name)

/-- The first member of exactly this name, readable or not. -/
def get? (s : Schema) (name : String) : Option Field :=
  s.fields.find? (·.name == name)

/-- The readable members that a written name may mean, best match first. -/
def candidates (s : Schema) (name : String) : List Field :=
  let folded := s.fields.filter fun f => f.readable && Text.sameFold f.name name
  match s.get? name with
  | some f => if f.readable then [f] else folded
  | none => folded

/-- Records of the schema are mappings. -/
def isMapping (s : Schema) : Bool :=
  !s.fields.isEmpty && s.fields.all (·.access == .item)

/-- Both schemas expose the same members, read the same way. -/
def agrees (s t : Schema) : Bool :=
  s.fields.length == t.fields.length &&
    (s.fields.zip t.fields).all fun (f, g) =>
      f.name == g.name && f.access == g.access && f.type.same g.type

def text (s : Schema) : String :=
  TypeExpr.schemaText s.name s.names

/-- The schema of a table or struct with the given columns; struct columns get schemas whose names
extend this one's. -/
def ofColumns (key : SchemaKey) (name : String) (columns : List (String × ColumnType)) :
    Schema where
  key := key
  name := name
  fields := columns.map fun (column, t) =>
    { name := column, type := .column t, access := .item,
      nesting := match t with
        | .struct _ => .struct (name ++ "." ++ column)
        | _ => .declaredType }
  maker := .mapping

end Schema
end RecordQuery
