import RecordQuery.Coercion
import RecordQuery.Directory

/-!
Projection plans: copying members of one schema into records of another. A member is copied when the
target can be assigned it and the source has a readable member of exactly the same name; a coercion
goes with it when the declared types differ.
-/

namespace RecordQuery

/-- The copy of one member. -/
structure Binding where
  target : Field
  source : Field
  coercion : Option Coercion := none
deriving Inhabited

namespace Binding

def name (b : Binding) : String :=
  b.target.name

/-- The value that the target member gets from a source record. -/
def valueFrom (catalog : Catalog) (b : Binding) (v : Value) : Except Error Value := do
  let w ← b.source.read catalog v
  match b.coercion with
  | some c => c.apply catalog b.name w
  | none => return w

def text (b : Binding) : String :=
  "Binding(" ++ b.name ++ (b.coercion.elim "" fun c => " via " ++ c.text) ++ ")"

/-- The binding of a target member, if it gets one. -/
def ofTarget? (source : Schema) (target : Field) : Option Binding :=
  if !target.writable then none
  else
    match source.get? target.name with
    | some f =>
      if f.readable then
        some { target, source := f,
               coercion := if f.type.same target.type then none
                 else some { source := f.type, target := target.type } }
      else none
    | none => none

end Binding

/-- How a record of the target schema is built from one of the source schema. -/
structure ProjectionPlan where
  source : Schema
  target : Schema
  bindings : List Binding
deriving Inhabited

namespace ProjectionPlan

/-- The plan that copies every member it can. -/
def between (source target : Schema) : ProjectionPlan where
  source := source
  target := target
  bindings := target.fields.filterMap (Binding.ofTarget? source)

/-- The warnings that go with making a plan: projecting into a schema without members gives empty
records. -/
def warnings (target : Schema) : List String :=
  if target.fields.isEmpty then
    ["Projection target '" ++ target.name ++
      "' exposes no members; every projected record will be empty"]
  else []

def names (p : ProjectionPlan) : List String :=
  p.bindings.map (·.name)

/-- The values for the target members, read and converted in their order. -/
def values (catalog : Catalog) (p : ProjectionPlan) (v : Value) :
    Except Error (List (String × Value)) :=
  p.bindings.foldlM (fun all b => do return put all b.name (← b.valueFrom catalog v)) []

/-- A new target record from a source record. -/
def apply (catalog : Catalog) (p : ProjectionPlan) (v : Value) : Except Error Value := do
  p.target.new catalog (← p.values catalog v)

def text (p : ProjectionPlan) : String :=
  "ProjectionPlan(" ++ p.source.name ++ " -> " ++ p.target.name ++ ", " ++
    Text.quotedList p.names ++ ")"

end ProjectionPlan
end RecordQuery
