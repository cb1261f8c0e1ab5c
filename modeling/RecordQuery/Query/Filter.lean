import RecordQuery.Query.Basic

/-!
Filters, and filters that apply only when a condition or a value allows it. A predicate of two
parameters has its second one bound to the value. `none` stands for the query itself, unfiltered.
-/

namespace RecordQuery

/-- What rows are tested by. -/
inductive Predicate where
  | lambda (f : Lambda)
  | captured (c : Captured)
  /-- A lambda of two parameters whose second argument is fixed. -/
  | bound (f : Lambda) (value : Value)
  /-- Something that cannot be called. -/
  | other (v : Value)
deriving Inhabited

namespace Predicate

/-- The value of the predicate on a row. -/
def call (d : Directory) (p : Predicate) (row : Value) : Except Error Value :=
  match p with
  | .lambda f => (f.call d [row]).result
  | .captured c => c.call d [row]
  | .bound f v => (f.call d [row, v]).result
  | .other _ => fail .wrongType

/-- Does the predicate hold of a row? -/
def test (d : Directory) (p : Predicate) (row : Value) : Except Error Bool := do
  (← p.call d row).truthy

/-- The number of arguments that the predicate insists on. -/
def arity : Predicate → Nat
  | .lambda f => f.required
  | .captured c => c.arity
  | .bound .. | .other _ => 1

/-- The predicate with its second parameter fixed. -/
def bindSecond (catalog : Catalog) (p : Predicate) (value : Value) : Except Error Predicate :=
  match p with
  | .lambda f => .ok (.bound f value)
  | .captured c => do return .captured (← c.bind catalog 1 value).result
  | p => .ok p

end Predicate

/-- The items that a test keeps, with the tests made from left to right. -/
def keepIf {α : Type} (test : α → Except Error Bool) : List α → Except Error (List α)
  | [] => .ok []
  | x :: xs => do
    let kept ← test x
    let rest ← keepIf test xs
    return if kept then x :: rest else rest

namespace Query

variable {E : Engine}

/-- The query with the rows that a predicate holds of. Pending keys are applied. -/
def filter (d : Directory) (q : Query E) (p : Predicate) : Except Error (Query E) := do
  match ← q.sorted d with
  | .list rows => return { source := .list (← keepIf (p.test d) rows), schema := q.schema }
  | .table t placement =>
    let mask ← (← E.records t).mapM (p.test d)
    return { source := .table (← E.filter mask t) placement, schema := q.schema }

/-- Filters if a condition is true. -/
def filterIf (d : Directory) (q : Query E) (condition : Value) (p : Predicate) :
    Except Error (Option (Query E)) := do
  if ← condition.truthy then return some (← q.filter d p) else return none

/-- Filters by a predicate of two parameters, the second bound to a value, unless that is null. -/
def filterBound (d : Directory) (q : Query E) (value : Value) (p : Predicate) :
    Except Error (Option (Query E)) := do
  if value.isNull then return none
  else return some (← q.filter d (← p.bindSecond d.catalog value))

/-- Filters unless a value is null. A predicate of two parameters gets the value as its second. -/
def filterIfNotNull (d : Directory) (q : Query E) (value : Value) (p : Predicate) :
    Except Error (Option (Query E)) :=
  if !value.isNull && 2 ≤ p.arity then q.filterBound d value p
  else q.filterIf d (.bool !value.isNull) p

/-- As `filterIfNotNull`, with the empty text counting as null. What comparing an expression with
the empty text captures has no truth value. -/
def filterIfNotNullOrEmpty (d : Directory) (q : Query E) (value : Value) (p : Predicate) :
    Except Error (Option (Query E)) :=
  match value with
  | .str "" => q.filterIfNotNull d .null p
  | .expr _ => .error .noTruthValue
  | value => q.filterIfNotNull d value p

end Query
end RecordQuery
