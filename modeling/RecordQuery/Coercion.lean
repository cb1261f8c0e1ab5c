import RecordQuery.Column.Cast
import RecordQuery.Record.Construction
import RecordQuery.Value.Conversion

/-!
Coercions: the conversion of a member's value to the declared type of another member. Null and
values that already have the type pass unchanged; otherwise the class of the type is called with the
value. Every failure to convert is one error that names the member, both types and the value.
-/

namespace RecordQuery

/-- A conversion between the declared types of two members. -/
structure Coercion where
  source : TypeExpr
  target : TypeExpr
deriving Inhabited

namespace Coercion

/-- The class that values of a type are instances of, if the type has one. -/
def originClass? : TypeExpr → Option TypeExpr
  | .list _ => some (.builtin .list)
  | .plain cls _ => some (.builtin cls)
  | .dict .. => some (.builtin .dict)
  | .tuple _ => some (.builtin .tuple)
  | t@(.builtin _) | t@(.record _) | t@.any | t@.nullType => some t
  | _ => none

/-- Is the value an instance of a built-in class? Truth values are integers too, classes of any kind
are types, and errors are instances of all classes that theirs is derived from. -/
def isBuiltin (b : Builtin) (v : Value) : Bool :=
  match b, v with
  | .object, _ => true
  | .int, .int _ | .int, .bool _ | .bool, .bool _ | .float, .float _ | .str, .str _
  | .bytes, .bytes _ | .list, .list _ | .tuple, .tuple _ | .dict, .dict _ => true
  | .other cls, .object kind _ =>
    kind == cls || cls == "type" && v.isClass ||
      Builtin.isException kind && (Builtin.exceptionLineage kind).contains cls
  | .other cls, .type _ => cls == "type" && v.isClass
  | _, _ => false

/-- Is the value an instance of the class? The test cannot be made for mapping types, nor for the
type of all values. -/
def isInstance (catalog : Catalog) (cls : TypeExpr) (v : Value) : Except Error Bool :=
  match cls with
  | .builtin b => .ok (isBuiltin b v)
  | .record name =>
    if (catalog.lineage name).any (·.kind == .mapping) then fail .wrongType
    else
      match v with
      | .record c _ _ => .ok ((catalog.lineage c).any (·.name == name))
      | _ => .ok false
  | .nullType => .ok v.isNull
  | _ => fail .wrongType

/-- Is the value an instance of one of the members of a union? They are tried in order, and a test
that cannot be made ends the search with a failure. -/
def isMember (catalog : Catalog) (v : Value) : List TypeExpr → Except Error Bool
  | [] => .ok false
  | t :: ts => do
    match originClass? t with
    | some cls => if ← isInstance catalog cls v then return true
    | none => pure ()
    isMember catalog v ts

/-- Converts a value that is not null to a type that is not a union with null. -/
def convert (catalog : Catalog) (target : TypeExpr) (v : Value) : Except Error Value :=
  match target with
  | .any => .ok v
  | .column t => catalog.cast t v
  | .union _ members => do
    if ← isMember catalog v members then return v else fail .wrongType
  | target =>
    match originClass? target with
    | none => fail .wrongType
    | some cls => do
      if ← isInstance catalog cls v then return v
      match target with
      | .builtin b => v.toBuiltin catalog b
      | .record name => catalog.construct name [v] []
      | _ => fail .wrongType

/-- Errors of a conversion that mean that the value does not fit the type. -/
def isMisfit : Error → Bool
  | .fault .wrongType | .fault .wrongValue | .fault .overflow | .fault .divisionByZero
  | .fault .badDecoding | .fault .columnValue | .fault .columnType
  | .fault .columnUnsupported => true
  | e => e.isTypeError

/-- Applies the coercion to a value of the named member. -/
def apply (catalog : Catalog) (c : Coercion) (field : String) (v : Value) : Except Error Value :=
  if v.isNull then .ok .null
  else
    match convert catalog c.target.unwrapOptional v with
    | .ok w => .ok w
    | .error e =>
      if isMisfit e then do
        let shown ← v.text catalog
        .error (.coercionFailure field c.source c.target v shown)
      else .error e

/-- The shown form of a coercion. -/
def text (c : Coercion) : String :=
  "Coercion(" ++ c.source.name ++ " -> " ++ c.target.name ++ ")"

end Coercion
end RecordQuery
