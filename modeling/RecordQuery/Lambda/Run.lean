import RecordQuery.Expr.Evaluation
import RecordQuery.Lambda.Member

/-!
Running lambda bodies. The same rules serve rows, where the operators compute, and proxies, where
they build a captured expression.
-/

namespace RecordQuery

/-- The item of a value under a key. A proxy gives the member that the key names. -/
def itemOf (d : Directory) (v key : Value) : Outcome Value :=
  match v, key with
  | .proxy p, .str name => do return (← Member.ofProxy p name).toValue
  | .proxy p, key => do
    let _ ← Member.candidates d (p.recordSchema) key
    throw (.unknownMember (p.recordSchema).name (← key.plainText d.catalog) 0)
  | v, key => v.item d.catalog key

mutual

/-- The value of a lambda body. -/
def Term.run (d : Directory) (env : Env) : Term → Outcome Value
  | .constant v => pure v
  | .var name => Outcome.ofExcept (Env.value env name)
  | .get x name => do
    let v ← x.run d env
    return (← Member.of d v name).toValue
  | .item x key => do itemOf d (← x.run d env) key
  | .call x name args named => do
    let v ← x.run d env
    let m ← Member.of d v name
    let positional ← runAll d env args
    let named ← runNamed d env named
    m.call d ⟨positional, named⟩
  | .binary op l r => do
    let a ← l.run d env
    let b ← r.run d env
    a.operate d.catalog op b
  | .invert x => do (← x.run d env).invert
  | .not x => do return .bool !(← (← x.run d env).truthy)
  | .and l r => do
    let a ← l.run d env
    if ← a.truthy then r.run d env else return a
  | .or l r => do
    let a ← l.run d env
    if ← a.truthy then return a else r.run d env
  | .list items => do return .list (← runAll d env items)
  | .raise => throw (.fault .raised)

def runAll (d : Directory) (env : Env) : List Term → Outcome (List Value)
  | [] => pure []
  | t :: ts => do
    let v ← t.run d env
    return v :: (← runAll d env ts)

def runNamed (d : Directory) (env : Env) : List (String × Term) → Outcome (List (String × Value))
  | [] => pure []
  | (n, t) :: rest => do
    let v ← t.run d env
    return (n, v) :: (← runNamed d env rest)

end

/-- Calls a lambda with arguments by position. -/
def Lambda.call (d : Directory) (f : Lambda) (args : List Value) : Outcome Value := do
  f.body.run d (← f.environment args)

end RecordQuery
