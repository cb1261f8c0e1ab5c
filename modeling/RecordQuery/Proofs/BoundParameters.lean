import RecordQuery.Proofs.Binding
import RecordQuery.Proofs.ParameterReads

/-!
# What binding leaves of a lambda

Binding replaces the parameter at an index by a constant and cuts it out of the signature. An index
may count from the end, and then the two boundaries of the cut do so as well. For the index −1 the
second boundary is 0, which is the front: nothing is cut out, and the parameters in front of the
last one are there twice (`cutAt_neg_one`). At every other index the parameter is cut out
(`cutAt_eq_eraseIdx`), and a run of such binds over all parameters leaves a lambda that is called
with no arguments.
-/

namespace RecordQuery

/-! ### Indices that may count from the end -/

section

variable {α : Type} {items : List α} {k : Int} {i : Nat}

theorem Value.position?_eq_some {n : Nat} :
    Value.position? n k = some i ↔ i < n ∧ (k = i ∨ k + n = i) := by
  unfold Value.position?
  split <;> simp only [Bool.and_eq_true, decide_eq_true_eq, Option.ite_none_right_eq_some,
    Option.some.injEq] <;> omega

theorem cutAt_eq_eraseIdx (h : Value.position? items.length k = some i) (hk : k ≠ -1) :
    cutAt items k = items.eraseIdx i := by
  obtain ⟨hi, hki⟩ := Value.position?_eq_some.mp h
  have hfront : Value.boundary items.length k = i := by
    simp only [Value.boundary]
    omega
  have hback : Value.boundary items.length (k + 1) = i + 1 := by
    simp only [Value.boundary]
    omega
  rw [cutAt, hfront, hback, List.eraseIdx_eq_take_drop_succ]

theorem cutAt_neg_one : cutAt items (-1) = items.dropLast ++ items := by
  have hfront : Value.boundary items.length (-1) = items.length - 1 := by
    simp only [Value.boundary]
    omega
  have hback : Value.boundary items.length (-1 + 1) = 0 := by
    simp [Value.boundary]
  rw [cutAt, hfront, hback, List.drop_zero, List.dropLast_eq_take]

end

namespace Captured

variable {catalog : Catalog} {c c' : Captured} {k : Int} {p : Param} {v : Value}

theorem paramAt_eq_ok :
    c.paramAt k = .ok p ↔ ∃ i, Value.position? c.arity k = some i ∧ c.params[i]? = some p := by
  unfold paramAt
  cases Value.position? c.arity k with
  | none => simp [fail]
  | some i => cases h : c.params[i]? <;> simp [fail, h]

theorem bind_eq_ok {s : Substituted Captured} :
    c.bind catalog k v = .ok s ↔ ∃ p body, c.paramAt k = .ok p ∧
      c.body.substitute catalog p v = .ok body ∧
      s = ⟨{ params := cutAt c.params k, body := body.result }, body.shared⟩ := by
  constructor
  · intro h
    rw [bind] at h
    obtain ⟨p, hp, h⟩ := Except.bind_eq_ok.mp h
    obtain ⟨body, hbody, h⟩ := Except.bind_eq_ok.mp h
    cases h
    exact ⟨p, body, hp, hbody, rfl⟩
  · rintro ⟨p, body, hp, hbody, rfl⟩
    rw [bind, hp, Except.ok_bind, hbody]
    rfl

/-- At an index other than −1, the lambda that is left has the other parameters. -/
theorem params_of_bind {s : Substituted Captured} {i : Nat} (h : c.bind catalog k v = .ok s)
    (hi : Value.position? c.arity k = some i) (hk : k ≠ -1) :
    s.result.params = c.params.eraseIdx i := by
  obtain ⟨p, body, -, -, rfl⟩ := bind_eq_ok.mp h
  exact cutAt_eq_eraseIdx hi hk

theorem arity_of_bind {s : Substituted Captured} {i : Nat} (h : c.bind catalog k v = .ok s)
    (hi : Value.position? c.arity k = some i) (hk : k ≠ -1) : s.result.arity + 1 = c.arity := by
  have hlength : i < c.params.length := (Value.position?_eq_some.mp hi).1
  rw [arity, arity, params_of_bind h hi hk, List.length_eraseIdx_of_lt hlength]
  omega

/-- The parameter that is replaced is at a position, and the body that is left is over the
parameters at the others. -/
theorem over_of_bind {s : Substituted Captured} (hc : c.body.Over (· ∈ c.params))
    (h : c.bind catalog k v = .ok s) :
    ∃ i, Value.position? c.arity k = some i ∧ s.result.body.Over (· ∈ c.params.eraseIdx i) := by
  obtain ⟨p, body, hp, hbody, rfl⟩ := bind_eq_ok.mp h
  obtain ⟨i, hi, hget⟩ := paramAt_eq_ok.mp hp
  refine ⟨i, hi, (Expr.over_iff _).mpr fun q hq => ?_⟩
  obtain ⟨hmem, hqp⟩ := (Expr.over_iff _).mp (Expr.over_substitute hc hbody) q hq
  obtain ⟨j, hj⟩ := List.mem_iff_getElem?.mp hmem
  refine List.mem_eraseIdx_iff_getElem?.mpr ⟨j, ?_, hj⟩
  rintro rfl
  -- the parameter at the position itself was replaced
  rw [hget, Option.some.injEq] at hj
  simp [hj, Param.is] at hqp

/-- A lambda without parameters whose body is closed is called with no arguments, and no environment
matters to its value. -/
theorem call_nil (hparams : c.params = []) (hc : c.body.Over (· ∈ c.params)) (d : Directory)
    (env : Env) : c.call d [] = c.body.evaluate d env := by
  have hclosed : c.body.Over fun _ => False := by
    rw [Expr.over_iff] at hc ⊢
    intro q hq
    simpa [hparams] using hc q hq
  have hunread : c.body.references (default : Param) = false := by
    rw [Expr.references_eq_false_iff]
    intro q hq
    exact absurd ((Expr.over_iff _).mp hclosed q hq) id
  have hsame : c.body.substitute d.catalog default .null = .ok ⟨c.body, true⟩ :=
    Expr.substitute_of_not_references hunread
  have henv : Env.Extends (fun _ => False) default .null (c.environment []) env :=
    ⟨fun _ h => h.elim, fun _ h => h.elim⟩
  rw [call, if_pos (by simp [arity, hparams])]
  exact Expr.evaluate_substitute henv hclosed hsame

/-! ### Runs of binds -/

/-- The lambda that is left after binds one after the other, each at an index other than −1, with
the parameters that they bind and the values. -/
inductive BoundTo (catalog : Catalog) : Captured → List (Param × Value) → Captured → Prop
  | nil {c : Captured} : BoundTo catalog c [] c
  | cons {c c' : Captured} {s : Substituted Captured} {k : Int} {p : Param} {v : Value}
    {steps : List (Param × Value)} (hk : k ≠ -1) (hp : c.paramAt k = .ok p)
    (h : c.bind catalog k v = .ok s) (rest : BoundTo catalog s.result steps c') :
    BoundTo catalog c ((p, v) :: steps) c'

/-- Each bind of a run takes one parameter away and leaves the lambda closed. -/
theorem BoundTo.closed {steps : List (Param × Value)} (h : BoundTo catalog c steps c')
    (hc : c.body.Over (· ∈ c.params)) :
    c'.arity + steps.length = c.arity ∧ c'.body.Over (· ∈ c'.params) := by
  induction h with
  | nil => exact ⟨rfl, hc⟩
  | @cons c c' s k p v steps hk _ h _ ih =>
    obtain ⟨i, hi, hbody⟩ := over_of_bind hc h
    obtain ⟨harity, hclosed⟩ := ih (by rwa [params_of_bind h hi hk])
    have hone := arity_of_bind h hi hk
    rw [List.length_cons]
    exact ⟨by omega, hclosed⟩

end Captured

open Captured

/-- **Binding keeps lambdas closed.** A bind that succeeds replaces the parameter at a position, and
the body that is left is over the parameters at the other positions. These are the parameters of the
lambda that is left, one fewer than before, unless the index was −1, for which the parameters in
front of the last one are put in front of all of them. So after binds at indices other than −1, as
many as there are parameters, the lambda is called with no arguments. -/
theorem Captured.bind_closed {catalog : Catalog} {c : Captured}
    (hc : c.body.Over (· ∈ c.params)) :
    (∀ k v s, c.bind catalog k v = .ok s → ∃ i, Value.position? c.arity k = some i ∧
      s.result.body.Over (· ∈ c.params.eraseIdx i) ∧
      (k ≠ -1 → s.result.params = c.params.eraseIdx i ∧ s.result.arity + 1 = c.arity) ∧
      (k = -1 → s.result.params = c.params.dropLast ++ c.params)) ∧
    ∀ steps c', BoundTo catalog c steps c' →
      c'.arity + steps.length = c.arity ∧ c'.body.Over (· ∈ c'.params) ∧
      (steps.length = c.arity →
        c'.params = [] ∧ ∀ d env, c'.call d [] = c'.body.evaluate d env) := by
  refine ⟨fun k v s h => ?_, fun steps c' h => ?_⟩
  · obtain ⟨i, hi, hbody⟩ := over_of_bind hc h
    refine ⟨i, hi, hbody, fun hk => ⟨params_of_bind h hi hk, arity_of_bind h hi hk⟩, fun hk => ?_⟩
    obtain ⟨p, body, -, -, rfl⟩ := bind_eq_ok.mp h
    rw [hk]
    exact cutAt_neg_one
  · obtain ⟨harity, hclosed⟩ := h.closed hc
    refine ⟨harity, hclosed, fun hall => ?_⟩
    have hparams : c'.params = [] := List.eq_nil_of_length_eq_zero (by rw [← arity]; omega)
    exact ⟨hparams, fun d env => call_nil hparams hclosed d env⟩

/-! ### A lambda that is bound from either end -/

namespace Captured

/-- Mappings with a number. -/
private def ticketSchema : Schema :=
  { key := .anonymous "Ticket", name := "Ticket", fields := [{ name := "no", access := .item }],
    maker := .mapping }

private def ticketParam : Param :=
  { key := 0, name := "t", index := 0, schema := some ticketSchema }

private def numberParam : Param := { key := 1, name := "n", index := 1, schema := none }

/-- The ticket's number is the given one. -/
private def ticketIs : Captured where
  params := [ticketParam, numberParam]
  body := .binary .eq (.member ticketParam ⟨ticketSchema, ticketSchema.fields⟩) (.param numberParam)

private theorem ticketIs_closed : ticketIs.body.Over (· ∈ ticketIs.params) := by
  simp [ticketIs, Expr.Over]

/-- The ticket is bound by an index that counts from the end, and the number by one that counts from
the front. -/
theorem bind_closed_ticket :
    ticketIs.body.Over (· ∈ ticketIs.params) ∧
    ∃ s t, ticketIs.bind {} (-2) (.dict [(.str "no", .int 5)]) = .ok s ∧
      s.result.bind {} 0 (.int 5) = .ok t ∧ s.result.params = [numberParam] ∧
      t.result.params = [] ∧ t.result.call {} [] = t.result.body.evaluate {} [] := by
  obtain ⟨s, hs⟩ : ∃ s, ticketIs.bind {} (-2) (.dict [(.str "no", .int 5)]) = .ok s := ⟨_, rfl⟩
  obtain ⟨hbind, hrun⟩ := bind_closed ticketIs_closed
  obtain ⟨i, hi, -, hparams, -⟩ := hbind (-2) _ s hs
  obtain rfl : 0 = i := Option.some.inj hi
  have hleft : s.result.params = [numberParam] := (hparams (by decide)).1
  cases hs
  refine ⟨ticketIs_closed, _, _, rfl, rfl, hleft, ?_⟩
  have hboth : BoundTo {} ticketIs
      [(ticketParam, .dict [(.str "no", .int 5)]), (numberParam, .int 5)] _ :=
    .cons (k := -2) (by decide) rfl rfl (.cons (k := 0) (by decide) rfl rfl .nil)
  obtain ⟨hnone, hcall⟩ := (hrun _ _ hboth).2.2 rfl
  exact ⟨hnone, hcall {} []⟩

/-- Binding the last parameter as the one at the index −1 does not take it away. -/
theorem arity_bind_last :
    ¬ ∀ (catalog : Catalog) (c : Captured) (k : Int) (v : Value) (s : Substituted Captured),
      c.body.Over (· ∈ c.params) → c.bind catalog k v = .ok s → s.result.arity + 1 = c.arity := by
  intro h
  have hlast := h {} ticketIs (-1) (.int 5) _ ticketIs_closed rfl
  exact absurd hlast (by decide)

end Captured

end RecordQuery
