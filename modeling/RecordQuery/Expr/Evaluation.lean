import RecordQuery.Lambda.Member

/-!
Evaluation of captured expressions. Ordering comparisons, arithmetic and negation of null are null,
and so is dividing by zero; equality and the null tests answer on null too. Conditions joined by
"and" and "or" count null as false.
-/

namespace RecordQuery

/-- The values that the parameters of an expression are bound to, by name. -/
abbrev Env := List (String × Value)

/-- Applies an operator to the values of its operands. -/
def BinaryOp.apply (catalog : Catalog) (op : BinaryOp) (a b : Value) : Except Error Value :=
  match op with
  | .eq | .ne => a.operate catalog op b
  | .and => do if ← a.truthy then return .bool (← b.truthy) else return .bool false
  | .or => do if ← a.truthy then return .bool true else return .bool (← b.truthy)
  | .div | .mod => do
    if a.isNull || b.isNull then return .null
    if ← b.equal catalog (.int 0) then return .null
    a.operate catalog op b
  | .other name => .error (.unknownBinaryOp name)
  | op => if a.isNull || b.isNull then .ok .null else a.operate catalog op b

/-- Applies a negation; the negation of null is null. -/
def UnaryOp.apply (op : UnaryOp) (a : Value) : Except Error Value :=
  match op with
  | .not => if a.isNull then .ok .null else do return .bool !(← a.truthy)
  | .other name => .error (.unknownUnaryOp name)

/-- Calls a captured method on the value of its receiver. The null tests and the membership test
are answered here; any other method of null is null. The arguments by name are asked for only when
they are needed. -/
def applyMethod (d : Directory) (method : String) (target : Value) (args : List Value)
    (named : Except Error (List (String × Value))) : Except Error Value :=
  match method with
  | "is_null" => .ok (.bool target.isNull)
  | "is_not_null" => .ok (.bool !target.isNull)
  | "is_in" => do return .bool (← target.occursIn d.catalog args)
  | _ =>
    if target.isNull then .ok .null
    else do (Member.invoke d target method ⟨args, ← named⟩).result

/-- The value bound to a parameter. -/
def Env.value (env : Env) (name : String) : Except Error Value :=
  match env.lookup name with
  | some v => .ok v
  | none => fail .noKey

mutual

/-- The value of an expression. -/
def Expr.evaluate (d : Directory) (env : Env) : Expr → Except Error Value
  | .literal v => .ok v
  | .param p => Env.value env p.name
  | .member p a => do a.read d.catalog (← Env.value env p.name)
  | .binary op l r => do
    let a ← l.evaluate d env
    let b ← r.evaluate d env
    op.apply d.catalog a b
  | .unary op e => do op.apply (← e.evaluate d env)
  | .call method args named none => do
    let args ← evaluateArgs d env args
    applyMethod d method .null args (evaluateNamed d env named)
  | .call method args named (some e) => do
    let target ← e.evaluate d env
    let args ← evaluateArgs d env args
    applyMethod d method target args (evaluateNamed d env named)
  | .unknown kind => .error (.unknownExpression kind)

/-- The value of an argument, which may be an expression or a plain value. -/
def Value.evaluateOperand (d : Directory) (env : Env) : Value → Except Error Value
  | .expr e => e.evaluate d env
  | v => .ok v

def evaluateArgs (d : Directory) (env : Env) : List Value → Except Error (List Value)
  | [] => .ok []
  | v :: vs => do
    let w ← v.evaluateOperand d env
    return w :: (← evaluateArgs d env vs)

def evaluateNamed (d : Directory) (env : Env) :
    List (String × Value) → Except Error (List (String × Value))
  | [] => .ok []
  | (n, v) :: rest => do
    let w ← v.evaluateOperand d env
    return (n, w) :: (← evaluateNamed d env rest)

end

end RecordQuery
