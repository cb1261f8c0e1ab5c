import RecordQuery.Accessor

/-!
Replacing a parameter of a captured expression by a constant. A reference to the parameter becomes
a literal; a member chain on it becomes the literal of what the chain reads from the constant. All
else stays, and a tree without the parameter is returned as it is.
-/

namespace RecordQuery

/-- The same parameter; names do not matter. -/
def Param.is (p q : Param) : Bool :=
  p.key == q.key

mutual

/-- Does the expression read the parameter? -/
def Expr.references (p : Param) : Expr → Bool
  | .literal _ | .unknown _ => false
  | .param q => q.is p
  | .member q _ => q.is p
  | .binary _ l r => l.references p || r.references p
  | .unary _ e => e.references p
  | .call _ args named none => argsReference p args || namedReference p named
  | .call _ args named (some e) =>
    e.references p || argsReference p args || namedReference p named

/-- Does an argument read the parameter? A plain value does not. -/
def Value.operandReferences (p : Param) : Value → Bool
  | .expr e => e.references p
  | _ => false

def argsReference (p : Param) : List Value → Bool
  | [] => false
  | v :: vs => v.operandReferences p || argsReference p vs

def namedReference (p : Param) : List (String × Value) → Bool
  | [] => false
  | (_, v) :: rest => v.operandReferences p || namedReference p rest

end

/-- A part of an expression after a substitution, and whether it is the part that was there before.
-/
structure Substituted (α : Type) where
  result : α
  shared : Bool

mutual

/-- The expression with the parameter replaced by a constant. -/
def Expr.substitute (catalog : Catalog) (p : Param) (value : Value) :
    Expr → Except Error (Substituted Expr)
  | .param q => .ok (if q.is p then ⟨.literal value, false⟩ else ⟨.param q, true⟩)
  | .member q a =>
    if q.is p then do return ⟨.literal (← a.read catalog value), false⟩
    else .ok ⟨.member q a, true⟩
  | .binary op l r => do
    let l' ← l.substitute catalog p value
    let r' ← r.substitute catalog p value
    return ⟨.binary op l'.result r'.result, l'.shared && r'.shared⟩
  | .unary op e => do
    let e' ← e.substitute catalog p value
    return ⟨.unary op e'.result, e'.shared⟩
  | .call method args named none => do
    let args' ← substituteArgs catalog p value args
    let named' ← substituteNamed catalog p value named
    return ⟨.call method args'.result named'.result none, args'.shared && named'.shared⟩
  | .call method args named (some e) => do
    let e' ← e.substitute catalog p value
    let args' ← substituteArgs catalog p value args
    let named' ← substituteNamed catalog p value named
    return ⟨.call method args'.result named'.result (some e'.result),
      e'.shared && args'.shared && named'.shared⟩
  | e => .ok ⟨e, true⟩
termination_by structural e => e

/-- An argument with the parameter replaced; a plain value stays. -/
def Value.substituteOperand (catalog : Catalog) (p : Param) (value : Value) :
    Value → Except Error (Substituted Value)
  | .expr e => do
    let e' ← e.substitute catalog p value
    return ⟨.expr e'.result, e'.shared⟩
  | v => .ok ⟨v, true⟩
termination_by structural v => v

def substituteArgs (catalog : Catalog) (p : Param) (value : Value) :
    List Value → Except Error (Substituted (List Value))
  | [] => .ok ⟨[], true⟩
  | v :: vs => do
    let v' ← Value.substituteOperand catalog p value v
    let vs' ← substituteArgs catalog p value vs
    return ⟨v'.result :: vs'.result, v'.shared && vs'.shared⟩
termination_by structural vs => vs

def substituteNamed (catalog : Catalog) (p : Param) (value : Value) :
    List (String × Value) → Except Error (Substituted (List (String × Value)))
  | [] => .ok ⟨[], true⟩
  | (n, v) :: rest => do
    let v' ← Value.substituteOperand catalog p value v
    let rest' ← substituteNamed catalog p value rest
    return ⟨(n, v'.result) :: rest'.result, v'.shared && rest'.shared⟩
termination_by structural entries => entries

end

end RecordQuery
