import RecordQuery.Captured
import RecordQuery.Proofs.Success

/-!
# Substitution and evaluation

Substitution tells parameters apart by their keys and evaluation looks them up by their names. The
two agree on expressions over parameters that have names and keys of their own:
`Expr.evaluate_substitute` evaluates the expression in which a parameter was replaced by a constant,
in an environment without that parameter, like the expression itself where the parameter is bound
to the constant. The chains on the parameter were read when it was replaced, so the statement
supposes that the substitution succeeded.
-/

namespace RecordQuery

/-! ### The parameters of an expression -/

mutual

/-- Every parameter that the expression reads is one of those described by `P`. -/
def Expr.Over (P : Param → Prop) : Expr → Prop
  | .literal _ | .unknown _ => True
  | .param p | .member p _ => P p
  | .binary _ l r => l.Over P ∧ r.Over P
  | .unary _ e => e.Over P
  | .call _ args named none => ArgsOver P args ∧ NamedOver P named
  | .call _ args named (some e) => e.Over P ∧ ArgsOver P args ∧ NamedOver P named

/-- The same of an argument; a plain value reads no parameter. -/
def Value.OperandOver (P : Param → Prop) : Value → Prop
  | .expr e => e.Over P
  | _ => True

def ArgsOver (P : Param → Prop) : List Value → Prop
  | [] => True
  | v :: vs => v.OperandOver P ∧ ArgsOver P vs

def NamedOver (P : Param → Prop) : List (String × Value) → Prop
  | [] => True
  | (_, v) :: rest => v.OperandOver P ∧ NamedOver P rest

end

/-! ### Two environments that differ in one parameter -/

/-- Among the parameters described by `P`, the environment `env` binds `p` to `v`, and any other one
to what it is bound to in `rest`. -/
structure Env.Extends (P : Param → Prop) (p : Param) (v : Value) (rest env : Env) : Prop where
  bound : ∀ q, P q → q.is p = true → env.value q.name = .ok v
  other : ∀ q, P q → q.is p = false → env.value q.name = rest.value q.name

section

variable {d : Directory} {P : Param → Prop} {p : Param} {v : Value} {rest env : Env}

mutual

theorem Expr.evaluate_substitute (henv : Env.Extends P p v rest env) :
    ∀ {e : Expr} {s : Substituted Expr}, e.Over P → e.substitute d.catalog p v = .ok s →
      s.result.evaluate d rest = e.evaluate d env
  | .literal w, s, _, h => by
    cases h
    rfl
  | .unknown kind, s, _, h => by
    cases h
    rfl
  | .param q, s, hP, h => by
    rw [Expr.substitute, Except.ok.injEq] at h
    subst h
    cases hq : q.is p with
    | true => exact (henv.bound q hP hq).symm
    | false => exact (henv.other q hP hq).symm
  | .member q a, s, hP, h => by
    rw [Expr.substitute] at h
    cases hq : q.is p with
    | true =>
      -- the member of the constant is read at once, and no evaluation reads it again
      rw [if_pos hq] at h
      obtain ⟨w, hw, h⟩ := Except.bind_eq_ok.mp h
      cases h
      simp [Expr.evaluate, henv.bound q hP hq, hw]
    | false =>
      rw [if_neg (by simp [hq])] at h
      cases h
      simp [Expr.evaluate, henv.other q hP hq]
  | .binary op l r, s, hP, h => by
    rw [Expr.substitute] at h
    obtain ⟨l', hl, h⟩ := Except.bind_eq_ok.mp h
    obtain ⟨r', hr, h⟩ := Except.bind_eq_ok.mp h
    cases h
    simp only [Expr.evaluate, Expr.evaluate_substitute henv hP.1 hl,
      Expr.evaluate_substitute henv hP.2 hr]
  | .unary op e, s, hP, h => by
    rw [Expr.substitute] at h
    obtain ⟨e', he, h⟩ := Except.bind_eq_ok.mp h
    cases h
    simp only [Expr.evaluate, Expr.evaluate_substitute (e := e) henv hP he]
  | .call method args named none, s, hP, h => by
    rw [Expr.substitute] at h
    obtain ⟨args', hargs, h⟩ := Except.bind_eq_ok.mp h
    obtain ⟨named', hnamed, h⟩ := Except.bind_eq_ok.mp h
    cases h
    simp only [Expr.evaluate, evaluateArgs_substitute henv hP.1 hargs,
      evaluateNamed_substitute henv hP.2 hnamed]
  | .call method args named (some e), s, hP, h => by
    rw [Expr.substitute] at h
    obtain ⟨e', he, h⟩ := Except.bind_eq_ok.mp h
    obtain ⟨args', hargs, h⟩ := Except.bind_eq_ok.mp h
    obtain ⟨named', hnamed, h⟩ := Except.bind_eq_ok.mp h
    cases h
    simp only [Expr.evaluate, Expr.evaluate_substitute henv hP.1 he,
      evaluateArgs_substitute henv hP.2.1 hargs, evaluateNamed_substitute henv hP.2.2 hnamed]

theorem Value.evaluateOperand_substitute (henv : Env.Extends P p v rest env) (w : Value)
    {s : Substituted Value} (hP : w.OperandOver P)
    (h : Value.substituteOperand d.catalog p v w = .ok s) :
    s.result.evaluateOperand d rest = w.evaluateOperand d env := by
  cases w with
  | expr e =>
    rw [Value.substituteOperand] at h
    obtain ⟨e', he, h⟩ := Except.bind_eq_ok.mp h
    cases h
    exact Expr.evaluate_substitute (e := e) henv hP he
  | _ =>
    cases h
    rfl

theorem evaluateArgs_substitute (henv : Env.Extends P p v rest env) :
    ∀ {vs : List Value} {s : Substituted (List Value)}, ArgsOver P vs →
      substituteArgs d.catalog p v vs = .ok s →
      evaluateArgs d rest s.result = evaluateArgs d env vs
  | [], s, _, h => by
    cases h
    rfl
  | w :: ws, s, hP, h => by
    rw [substituteArgs] at h
    obtain ⟨w', hw, h⟩ := Except.bind_eq_ok.mp h
    obtain ⟨ws', hws, h⟩ := Except.bind_eq_ok.mp h
    cases h
    simp only [evaluateArgs, Value.evaluateOperand_substitute henv w hP.1 hw,
      evaluateArgs_substitute henv hP.2 hws]

theorem evaluateNamed_substitute (henv : Env.Extends P p v rest env) :
    ∀ {vs : List (String × Value)} {s : Substituted (List (String × Value))}, NamedOver P vs →
      substituteNamed d.catalog p v vs = .ok s →
      evaluateNamed d rest s.result = evaluateNamed d env vs
  | [], s, _, h => by
    cases h
    rfl
  | (n, w) :: ws, s, hP, h => by
    rw [substituteNamed] at h
    obtain ⟨w', hw, h⟩ := Except.bind_eq_ok.mp h
    obtain ⟨ws', hws, h⟩ := Except.bind_eq_ok.mp h
    cases h
    simp only [evaluateNamed, Value.evaluateOperand_substitute henv w hP.1 hw,
      evaluateNamed_substitute henv hP.2 hws]

end

end

end RecordQuery
