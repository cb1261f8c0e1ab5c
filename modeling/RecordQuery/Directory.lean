import RecordQuery.Schema.Introspection
import RecordQuery.Value.Method

/-!
The directory of schemas. Equal types share one schema: it is described under the spelling of the
type that was asked for first, which shows in the names of unions. Only a text and the column type
that it names do not share one, though they are equal.
-/

namespace RecordQuery

/-- The declared types together with the types that were described before, the first one first. -/
structure Directory where
  catalog : Catalog := {}
  described : List TypeExpr := []
  /-- What calling a method of a value gives whose class is none of the declared ones. It depends on
  the value, the name and the arguments alone: a method that changes its receiver, such as one that
  takes an item out of a list, is not described by it. -/
  callMethod : Catalog → Value → String → Arguments → Except Error Value := Value.callMethod
deriving Inhabited

namespace Directory

/-- The spelling under which a type was described first. -/
def spelling (d : Directory) (t : TypeExpr) : TypeExpr :=
  (d.described.find? (·.sameKey t)).getD t

theorem spelling_cases (d : Directory) (t : TypeExpr) :
    d.spelling t = t ∨ (d.spelling t ∈ d.described ∧ (d.spelling t).sameKey t = true) := by
  rw [spelling]
  cases h : d.described.find? (·.sameKey t) with
  | none => exact .inl rfl
  | some u =>
    have hsame := List.find?_some h
    exact .inr ⟨List.mem_of_find?_eq_some h, hsame⟩

/-- The schema of a type. -/
def schemaOf (d : Directory) (t : TypeExpr) : Schema :=
  d.catalog.schemaOf (d.spelling t)

/-- The directory after a type was described. -/
def describe (d : Directory) (t : TypeExpr) : Directory :=
  if d.described.any (·.sameKey t) then d else { d with described := d.described ++ [t] }

/-- The fields of a struct type as columns. -/
def structFields : TypeExpr → List (String × ColumnType)
  | .column (.struct fields) => fields
  | _ => []

/-- The schema of the value that a member holds. An optional type is that of its value. -/
def memberSchema (d : Directory) (f : Field) : Schema :=
  match f.nesting with
  | .declaredType => d.schemaOf f.type.unwrapOptional
  | .struct name => Schema.ofColumns (.anonymous name) name (structFields f.type)
  | .given name => d.schemaOf ((d.catalog.declared? name).getD (.schema name []))

/-- The type whose schema is asked for when that of a member's value is, if it is asked by type. -/
def valueType? (f : Field) : Option TypeExpr :=
  match f.nesting with
  | .declaredType => some f.type.unwrapOptional
  | _ => none

/-- Can the value that a member holds be described? -/
def checkMember (d : Directory) (f : Field) : Except Error Unit :=
  match valueType? f with
  | some t => d.catalog.checkDescribable t
  | none => .ok ()

/-- The schema of the value that a member holds, which has to be one that can be described. -/
def enter (d : Directory) (f : Field) : Outcome Schema where
  described := (valueType? f).toList
  result := do
    d.checkMember f
    return d.memberSchema f

end Directory
end RecordQuery
