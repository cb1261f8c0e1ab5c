import RecordQuery.Value.Method

/-!
Lambdas: parameters and a body. How the arguments of a call are matched with the parameters does not
depend on the body.
-/

namespace RecordQuery

/-- The body of a lambda. -/
inductive Term where
  | constant (v : Value)
  | var (name : String)
  | get (x : Term) (name : String)
  | item (x : Term) (key : Value)
  | call (x : Term) (name : String) (args : List Term) (named : List (String × Term))
  | binary (op : BinaryOp) (left right : Term)
  | invert (x : Term)
  | not (x : Term)
  | and (left right : Term)
  | or (left right : Term)
  | list (items : List Term)
  /-- Fails with an error of its own. -/
  | raise
deriving Inhabited

/-- How arguments reach a parameter. -/
inductive ParamKind where
  /-- By position. -/
  | positional
  /-- It takes all further positional arguments. -/
  | rest
  /-- By name only. -/
  | named
deriving DecidableEq, Repr, Inhabited

/-- A parameter of a lambda. -/
structure LambdaParam where
  name : String
  kind : ParamKind := .positional
  default : Option Value := none
deriving Inhabited

/-- A lambda; lambdas that were given no name all go by the same one. -/
structure Lambda where
  name : String := "<lambda>"
  params : List LambdaParam
  body : Term
deriving Inhabited

namespace Lambda

/-- The parameters that are matched by position. -/
def positional (f : Lambda) : List LambdaParam :=
  f.params.filter (·.kind == .positional)

/-- The number of arguments by position that the lambda insists on. -/
def required (f : Lambda) : Nat :=
  (f.positional.filter (·.default.isNone)).length

/-- The value that a parameter gets: the argument at its position, or else its default. -/
def bindPositional : List LambdaParam → List Value → Except Error (List (String × Value))
  | [], _ => .ok []
  | p :: ps, v :: vs => do return (p.name, v) :: (← bindPositional ps vs)
  | p :: ps, [] =>
    match p.default with
    | some v => do return (p.name, v) :: (← bindPositional ps [])
    | none => fail .wrongType

/-- The values of the parameters that no position reaches. -/
def bindOthers (params : List LambdaParam) (extra : List Value) :
    Except Error (List (String × Value)) :=
  params.mapM fun p =>
    match p.kind, p.default with
    | .rest, _ => .ok (p.name, .tuple extra)
    | _, some v => .ok (p.name, v)
    | _, none => fail .wrongType

/-- The values of all parameters for a call with arguments by position. -/
def environment (f : Lambda) (args : List Value) : Except Error (List (String × Value)) := do
  let others := f.params.filter (·.kind != .positional)
  let extra := args.drop f.positional.length
  if !extra.isEmpty && others.all (·.kind != .rest) then fail .wrongType
  else return (← bindPositional f.positional args) ++ (← bindOthers others extra)

end Lambda
end RecordQuery
