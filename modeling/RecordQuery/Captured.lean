import RecordQuery.Expr.Evaluation
import RecordQuery.Expr.Serialization
import RecordQuery.Expr.Substitution

/-!
Captured lambdas: parameters and an expression over them. A captured lambda is called with one value
for each parameter; binding a parameter to a constant leaves a lambda with one parameter fewer.
-/

namespace RecordQuery

/-- A captured lambda. -/
structure Captured where
  params : List Param
  body : Expr
deriving Inhabited

/-- The items in front of a boundary and those behind it, where both boundaries count from the end
if they are negative: what is left of a list when the item at `index` is cut out. -/
def cutAt {α : Type} (items : List α) (index : Int) : List α :=
  items.take (Value.boundary items.length index) ++
    items.drop (Value.boundary items.length (index + 1))

namespace Captured

def arity (c : Captured) : Nat :=
  c.params.length

/-- The environment of a call: each parameter's name with its value, a later one replacing an
earlier one of the same name. -/
def environment (c : Captured) (args : List Value) : Env :=
  (c.params.zip args).foldl (fun env (p, v) => put env p.name v) []

/-- Calls the lambda with one value for each parameter. -/
def call (d : Directory) (c : Captured) (args : List Value) : Except Error Value :=
  if args.length = c.arity then c.body.evaluate d (c.environment args)
  else .error (.wrongArgumentCount c.arity args.length)

/-- The parameter at an index, counted from the end if it is negative. -/
def paramAt (c : Captured) (index : Int) : Except Error Param :=
  match (Value.position? c.arity index).bind (c.params[·]?) with
  | some p => .ok p
  | none => fail .noIndex

/-- The lambda with one parameter bound to a constant, and whether its body stayed the same. -/
def bind (catalog : Catalog) (c : Captured) (index : Int) (value : Value) :
    Except Error (Substituted Captured) := do
  let p ← c.paramAt index
  let body ← c.body.substitute catalog p value
  return ⟨{ params := cutAt c.params index, body := body.result }, body.shared⟩

/-- The serialized form of a captured lambda. -/
def serialize (c : Captured) : Value :=
  node "Lambda" [("params", .list (c.params.map fun p => .str p.name)), ("body", c.body.serialize)]

/-- The shown form of a captured lambda: the names of its parameters. -/
def text (c : Captured) : String :=
  "LambdaExpr(" ++ Text.quotedList (c.params.map (·.name)) ++ ")"

end Captured
end RecordQuery
