import RecordQuery.Captured
import RecordQuery.Lambda.Run

/-!
Capturing a lambda: it is run once on stand-ins for its arguments, a proxy for every record and a
bare parameter for every scalar, and the expression that it returns is its captured body.
-/

namespace RecordQuery.Captured

/-- The names of the captured parameters: those of the lambda if there are as many of them as
arguments, and numbered ones otherwise. -/
def paramNames (f : Lambda) (count : Nat) : List String :=
  if f.params.length = count then f.params.map (·.name)
  else (List.range count).map fun i => "p" ++ toString i

/-- The captured parameters for arguments of the given schemas; scalars have none. -/
def paramsFor (f : Lambda) (schemas : List (Option Schema)) : List Param :=
  ((paramNames f schemas.length).zip schemas).zipIdx.map fun ((name, schema), i) =>
    { key := i, name, index := i, schema }

/-- What a lambda is run on in place of an argument. -/
def standIn (p : Param) : Value :=
  match p.schema with
  | some _ => .proxy p
  | none => .expr (.param p)

/-- Captures a lambda. It has to return an expression. -/
def capture (d : Directory) (f : Lambda) (schemas : List (Option Schema)) : Outcome Captured := do
  let params := paramsFor f schemas
  match ← f.call d (params.map standIn) with
  | .expr body => return { params, body }
  | v => throw (.notAnExpression v.typeName)

end RecordQuery.Captured
