import RecordQuery.Proofs.BoundParameters

/-!
# The order of binds

Substitutions for different parameters commute (`Expr.substitute_comm`): neither reads what the
other one replaces, and the literals that one of them leaves are not touched by the other. Binding a
parameter of a lambda is therefore a step that does not depend on where the parameter stands
(`Captured.Fixes`), and such steps for different parameters can change places. A run of binds is
determined by which parameters get which values, in whatever order.
-/

namespace RecordQuery

/-! ### Substitutions for different parameters -/

/-- The substitution succeeds and leaves this. -/
def Leaves {α : Type} (x : Except Error (Substituted α)) (a : α) : Prop :=
  ∃ s, x = .ok s ∧ s.result = a

section

variable {catalog : Catalog} {p q : Param} {v w : Value} {e l r on : Expr} {op : BinaryOp}
  {method : String} {args : List Value} {named : List (String × Value)}

theorem leaves_literal : Leaves ((Expr.literal w).substitute catalog p v) e ↔ .literal w = e := by
  simp [Leaves, Expr.substitute]

theorem leaves_unknown {kind : String} :
    Leaves ((Expr.unknown kind).substitute catalog p v) e ↔ .unknown kind = e := by
  simp [Leaves, Expr.substitute]

theorem leaves_param : Leaves ((Expr.param q).substitute catalog p v) e ↔
    (if q.is p then .literal v else .param q) = e := by
  cases h : q.is p <;> simp [Leaves, Expr.substitute, h]

theorem leaves_member {a : Accessor} : Leaves ((Expr.member q a).substitute catalog p v) e ↔
    if q.is p then ∃ x, a.read catalog v = .ok x ∧ .literal x = e else .member q a = e := by
  cases h : q.is p <;> simp [Leaves, Expr.substitute, h, Except.bind_eq_ok]

theorem leaves_binary : Leaves ((Expr.binary op l r).substitute catalog p v) e ↔
    ∃ l', Leaves (l.substitute catalog p v) l' ∧ ∃ r', Leaves (r.substitute catalog p v) r' ∧
      .binary op l' r' = e := by
  simp [Leaves, Expr.substitute, Except.bind_eq_ok]

theorem leaves_unary {op : UnaryOp} : Leaves ((Expr.unary op l).substitute catalog p v) e ↔
    ∃ l', Leaves (l.substitute catalog p v) l' ∧ .unary op l' = e := by
  simp [Leaves, Expr.substitute, Except.bind_eq_ok]

theorem leaves_call_none : Leaves ((Expr.call method args named none).substitute catalog p v) e ↔
    ∃ args', Leaves (substituteArgs catalog p v args) args' ∧
      ∃ named', Leaves (substituteNamed catalog p v named) named' ∧
        .call method args' named' none = e := by
  simp [Leaves, Expr.substitute, Except.bind_eq_ok]

theorem leaves_call_some :
    Leaves ((Expr.call method args named (some on)).substitute catalog p v) e ↔
      ∃ on', Leaves (on.substitute catalog p v) on' ∧
        ∃ args', Leaves (substituteArgs catalog p v args) args' ∧
          ∃ named', Leaves (substituteNamed catalog p v named) named' ∧
            .call method args' named' (some on') = e := by
  simp [Leaves, Expr.substitute, Except.bind_eq_ok, and_assoc]

theorem leaves_operand {x : Value} : Leaves (Value.substituteOperand catalog p v (.expr e)) x ↔
    ∃ e', Leaves (e.substitute catalog p v) e' ∧ .expr e' = x := by
  simp [Leaves, Value.substituteOperand, Except.bind_eq_ok]

theorem leaves_args_cons {ws : List Value} :
    Leaves (substituteArgs catalog p v (w :: args)) ws ↔
      ∃ w', Leaves (Value.substituteOperand catalog p v w) w' ∧
        ∃ args', Leaves (substituteArgs catalog p v args) args' ∧ w' :: args' = ws := by
  simp [Leaves, substituteArgs, Except.bind_eq_ok]

theorem leaves_named_cons {name : String} {ws : List (String × Value)} :
    Leaves (substituteNamed catalog p v ((name, w) :: named)) ws ↔
      ∃ w', Leaves (Value.substituteOperand catalog p v w) w' ∧
        ∃ named', Leaves (substituteNamed catalog p v named) named' ∧
          (name, w') :: named' = ws := by
  simp [Leaves, substituteNamed, Except.bind_eq_ok]

end

section

variable {catalog : Catalog} {p q : Param} {v w : Value}

theorem Param.is_eq_false_of_is {r : Param} (hpq : q.is p = false) (h : r.is p = true) :
    r.is q = false := by
  simp only [Param.is, beq_iff_eq, beq_eq_false_iff_ne] at *
  rw [h]
  exact hpq.symm

mutual

/-- Where one substitution and then another one for a different parameter succeed, they succeed in
the other order and leave the same. -/
theorem Expr.substitute_comm (hpq : q.is p = false) :
    ∀ {e e₁ e₂ : Expr}, Leaves (e.substitute catalog p v) e₁ →
      Leaves (e₁.substitute catalog q w) e₂ →
      ∃ e₃, Leaves (e.substitute catalog q w) e₃ ∧ Leaves (e₃.substitute catalog p v) e₂
  | .literal x, e₁, e₂, h₁, h₂ => by
    obtain rfl := leaves_literal.mp h₁
    obtain rfl := leaves_literal.mp h₂
    exact ⟨_, leaves_literal.mpr rfl, leaves_literal.mpr rfl⟩
  | .unknown kind, e₁, e₂, h₁, h₂ => by
    obtain rfl := leaves_unknown.mp h₁
    obtain rfl := leaves_unknown.mp h₂
    exact ⟨_, leaves_unknown.mpr rfl, leaves_unknown.mpr rfl⟩
  | .param r, e₁, e₂, h₁, h₂ => by
    obtain rfl := leaves_param.mp h₁
    cases hr : r.is p with
    | true =>
      have hrq := Param.is_eq_false_of_is hpq hr
      rw [if_pos hr, leaves_literal] at h₂
      exact ⟨_, leaves_param.mpr (if_neg (by simp [hrq])), leaves_param.mpr (by rwa [if_pos hr])⟩
    | false =>
      rw [if_neg (by simp [hr])] at h₂
      refine ⟨e₂, h₂, ?_⟩
      obtain rfl := leaves_param.mp h₂
      cases hrq : r.is q with
      | true => simp [leaves_literal]
      | false => simp [leaves_param, hr]
  | .member r a, e₁, e₂, h₁, h₂ => by
    cases hr : r.is p with
    | true =>
      -- the chain is read when its parameter is replaced, from the constant alone
      have hrq := Param.is_eq_false_of_is hpq hr
      obtain ⟨x, hx, rfl⟩ : ∃ x, a.read catalog v = .ok x ∧ .literal x = e₁ := by
        simpa [leaves_member, hr] using h₁
      refine ⟨.member r a, by simp [leaves_member, hrq], ?_⟩
      simpa [leaves_member, hr, hx] using leaves_literal.mp h₂
    | false =>
      obtain rfl : .member r a = e₁ := by simpa [leaves_member, hr] using h₁
      refine ⟨e₂, h₂, ?_⟩
      cases hrq : r.is q with
      | true =>
        obtain ⟨x, -, rfl⟩ : ∃ x, a.read catalog w = .ok x ∧ .literal x = e₂ := by
          simpa [leaves_member, hrq] using h₂
        exact leaves_literal.mpr rfl
      | false =>
        obtain rfl : .member r a = e₂ := by simpa [leaves_member, hrq] using h₂
        exact h₁
  | .binary op l r, e₁, e₂, h₁, h₂ => by
    obtain ⟨l₁, hl₁, r₁, hr₁, rfl⟩ := leaves_binary.mp h₁
    obtain ⟨l₂, hl₂, r₂, hr₂, rfl⟩ := leaves_binary.mp h₂
    obtain ⟨l₃, hl₃, hl⟩ := Expr.substitute_comm hpq hl₁ hl₂
    obtain ⟨r₃, hr₃, hr⟩ := Expr.substitute_comm hpq hr₁ hr₂
    exact ⟨_, leaves_binary.mpr ⟨l₃, hl₃, r₃, hr₃, rfl⟩, leaves_binary.mpr ⟨_, hl, _, hr, rfl⟩⟩
  | .unary op e, e₁, e₂, h₁, h₂ => by
    obtain ⟨f₁, hf₁, rfl⟩ := leaves_unary.mp h₁
    obtain ⟨f₂, hf₂, rfl⟩ := leaves_unary.mp h₂
    obtain ⟨f₃, hf₃, hf⟩ := Expr.substitute_comm hpq hf₁ hf₂
    exact ⟨_, leaves_unary.mpr ⟨f₃, hf₃, rfl⟩, leaves_unary.mpr ⟨_, hf, rfl⟩⟩
  | .call method args named none, e₁, e₂, h₁, h₂ => by
    obtain ⟨args₁, ha₁, named₁, hn₁, rfl⟩ := leaves_call_none.mp h₁
    obtain ⟨args₂, ha₂, named₂, hn₂, rfl⟩ := leaves_call_none.mp h₂
    obtain ⟨args₃, ha₃, ha⟩ := substituteArgs_comm hpq ha₁ ha₂
    obtain ⟨named₃, hn₃, hn⟩ := substituteNamed_comm hpq hn₁ hn₂
    exact ⟨_, leaves_call_none.mpr ⟨args₃, ha₃, named₃, hn₃, rfl⟩,
      leaves_call_none.mpr ⟨_, ha, _, hn, rfl⟩⟩
  | .call method args named (some on), e₁, e₂, h₁, h₂ => by
    obtain ⟨on₁, ho₁, args₁, ha₁, named₁, hn₁, rfl⟩ := leaves_call_some.mp h₁
    obtain ⟨on₂, ho₂, args₂, ha₂, named₂, hn₂, rfl⟩ := leaves_call_some.mp h₂
    obtain ⟨on₃, ho₃, ho⟩ := Expr.substitute_comm hpq ho₁ ho₂
    obtain ⟨args₃, ha₃, ha⟩ := substituteArgs_comm hpq ha₁ ha₂
    obtain ⟨named₃, hn₃, hn⟩ := substituteNamed_comm hpq hn₁ hn₂
    exact ⟨_, leaves_call_some.mpr ⟨on₃, ho₃, args₃, ha₃, named₃, hn₃, rfl⟩,
      leaves_call_some.mpr ⟨_, ho, _, ha, _, hn, rfl⟩⟩

theorem Value.substituteOperand_comm (hpq : q.is p = false) (x : Value) {x₁ x₂ : Value}
    (h₁ : Leaves (Value.substituteOperand catalog p v x) x₁)
    (h₂ : Leaves (Value.substituteOperand catalog q w x₁) x₂) :
    ∃ x₃, Leaves (Value.substituteOperand catalog q w x) x₃ ∧
      Leaves (Value.substituteOperand catalog p v x₃) x₂ := by
  cases x with
  | expr e =>
    obtain ⟨e₁, he₁, rfl⟩ := leaves_operand.mp h₁
    obtain ⟨e₂, he₂, rfl⟩ := leaves_operand.mp h₂
    obtain ⟨e₃, he₃, he⟩ := Expr.substitute_comm hpq he₁ he₂
    exact ⟨_, leaves_operand.mpr ⟨e₃, he₃, rfl⟩, leaves_operand.mpr ⟨_, he, rfl⟩⟩
  | _ =>
    obtain ⟨_, ⟨⟩, rfl⟩ := h₁
    obtain ⟨_, ⟨⟩, rfl⟩ := h₂
    exact ⟨_, ⟨_, rfl, rfl⟩, ⟨_, rfl, rfl⟩⟩

theorem substituteArgs_comm (hpq : q.is p = false) :
    ∀ {xs xs₁ xs₂ : List Value}, Leaves (substituteArgs catalog p v xs) xs₁ →
      Leaves (substituteArgs catalog q w xs₁) xs₂ →
      ∃ xs₃, Leaves (substituteArgs catalog q w xs) xs₃ ∧
        Leaves (substituteArgs catalog p v xs₃) xs₂
  | [], xs₁, xs₂, h₁, h₂ => by
    obtain ⟨_, ⟨⟩, rfl⟩ := h₁
    obtain ⟨_, ⟨⟩, rfl⟩ := h₂
    exact ⟨[], ⟨_, rfl, rfl⟩, ⟨_, rfl, rfl⟩⟩
  | x :: xs, xs₁, xs₂, h₁, h₂ => by
    obtain ⟨x₁, hx₁, ys₁, hys₁, rfl⟩ := leaves_args_cons.mp h₁
    obtain ⟨x₂, hx₂, ys₂, hys₂, rfl⟩ := leaves_args_cons.mp h₂
    obtain ⟨x₃, hx₃, hx⟩ := x.substituteOperand_comm hpq hx₁ hx₂
    obtain ⟨ys₃, hys₃, hys⟩ := substituteArgs_comm hpq hys₁ hys₂
    exact ⟨_, leaves_args_cons.mpr ⟨x₃, hx₃, ys₃, hys₃, rfl⟩,
      leaves_args_cons.mpr ⟨_, hx, _, hys, rfl⟩⟩

theorem substituteNamed_comm (hpq : q.is p = false) :
    ∀ {xs xs₁ xs₂ : List (String × Value)}, Leaves (substituteNamed catalog p v xs) xs₁ →
      Leaves (substituteNamed catalog q w xs₁) xs₂ →
      ∃ xs₃, Leaves (substituteNamed catalog q w xs) xs₃ ∧
        Leaves (substituteNamed catalog p v xs₃) xs₂
  | [], xs₁, xs₂, h₁, h₂ => by
    obtain ⟨_, ⟨⟩, rfl⟩ := h₁
    obtain ⟨_, ⟨⟩, rfl⟩ := h₂
    exact ⟨[], ⟨_, rfl, rfl⟩, ⟨_, rfl, rfl⟩⟩
  | (name, x) :: xs, xs₁, xs₂, h₁, h₂ => by
    obtain ⟨x₁, hx₁, ys₁, hys₁, rfl⟩ := leaves_named_cons.mp h₁
    obtain ⟨x₂, hx₂, ys₂, hys₂, rfl⟩ := leaves_named_cons.mp h₂
    obtain ⟨x₃, hx₃, hx⟩ := x.substituteOperand_comm hpq hx₁ hx₂
    obtain ⟨ys₃, hys₃, hys⟩ := substituteNamed_comm hpq hys₁ hys₂
    exact ⟨_, leaves_named_cons.mpr ⟨x₃, hx₃, ys₃, hys₃, rfl⟩,
      leaves_named_cons.mpr ⟨_, hx, _, hys, rfl⟩⟩

end

end

/-! ### Runs of binds in another order -/

/-- Where all parameters have keys of their own, cutting out the one at a position is cutting out
the one with its key. -/
theorem eraseIdx_eq_filter {params : List Param} {i : Nat} (hkeys : (params.map (·.key)).Nodup)
    (hi : i < params.length) : params.eraseIdx i = params.filter fun q => !q.is params[i] := by
  induction params generalizing i with
  | nil => cases hi
  | cons p params ih =>
    rw [List.map_cons, List.nodup_cons] at hkeys
    cases i with
    | zero =>
      have hothers : ∀ q ∈ params, (!q.is p) = true := by
        intro q hq
        have hne : q.key ≠ p.key := fun h => hkeys.1 (h ▸ List.mem_map_of_mem hq)
        simpa [Param.is] using hne
      rw [List.eraseIdx_cons_zero, List.getElem_cons_zero,
        List.filter_cons_of_neg (by simp [Param.is]), List.filter_eq_self.mpr hothers]
    | succ i =>
      have hi' : i < params.length := by simpa using hi
      have hne : p.key ≠ params[i].key := fun h =>
        hkeys.1 (h ▸ List.mem_map_of_mem (List.getElem_mem hi'))
      simp [ih hkeys.2 hi', Param.is, hne]

namespace Captured

variable {catalog : Catalog} {c c₁ c₂ c' : Captured} {k : Int} {p q : Param} {v w : Value}

/-- Binding the parameter to the value, wherever it stands, leaves this lambda. -/
def Fixes (catalog : Catalog) (c : Captured) (p : Param) (v : Value) (c' : Captured) : Prop :=
  p ∈ c.params ∧ Leaves (c.body.substitute catalog p v) c'.body ∧
    c'.params = c.params.filter fun q => !q.is p

theorem Fixes.nodup (h : Fixes catalog c p v c') (hkeys : (c.params.map (·.key)).Nodup) :
    (c'.params.map (·.key)).Nodup := by
  rw [h.2.2]
  exact hkeys.sublist (List.filter_sublist.map _)

theorem Fixes.unique (h₁ : Fixes catalog c p v c₁) (h₂ : Fixes catalog c p v c₂) : c₁ = c₂ := by
  obtain ⟨-, ⟨s, hs, hbody₁⟩, hparams₁⟩ := h₁
  obtain ⟨-, ⟨t, ht, hbody₂⟩, hparams₂⟩ := h₂
  obtain rfl := Except.ok.inj (hs.symm.trans ht)
  cases c₁
  cases c₂
  simp_all

/-- Two steps can change places: the second binds a parameter that the first has left. -/
theorem Fixes.comm (h₁ : Fixes catalog c p v c₁) (h₂ : Fixes catalog c₁ q w c₂) :
    ∃ c₃, Fixes catalog c q w c₃ ∧ Fixes catalog c₃ p v c₂ := by
  obtain ⟨hp, hbody₁, hparams₁⟩ := h₁
  obtain ⟨hq, hbody₂, hparams₂⟩ := h₂
  rw [hparams₁] at hq hparams₂
  obtain ⟨hq, hqp⟩ := List.mem_filter.mp hq
  have hqp : q.is p = false := by simpa using hqp
  have hpq : p.is q = false := Param.is_eq_false_of_is hqp (by simp [Param.is])
  obtain ⟨body, hbody, hbody'⟩ := Expr.substitute_comm hqp hbody₁ hbody₂
  refine ⟨⟨c.params.filter fun r => !r.is q, body⟩, ⟨hq, hbody, rfl⟩, ?_, hbody', ?_⟩
  · exact List.mem_filter.mpr ⟨hp, by simp [hpq]⟩
  · rw [hparams₂, List.filter_comm]

/-- A parameter in front of the bound one keeps its index. -/
theorem Fixes.paramAt_of_lt {i j : Nat} (hkeys : (c.params.map (·.key)).Nodup) (hij : i < j)
    (hj : j < c.params.length) (h : Fixes catalog c c.params[j] v c') :
    c'.paramAt i = .ok c.params[i] := by
  have hparams : c'.params = c.params.eraseIdx j := by rw [h.2.2, eraseIdx_eq_filter hkeys hj]
  refine paramAt_eq_ok.mpr ⟨i, Value.position?_eq_some.mpr ⟨?_, .inl rfl⟩, ?_⟩
  · rw [arity, hparams, List.length_eraseIdx_of_lt hj]
    omega
  · rw [hparams, List.getElem?_eraseIdx_of_lt hij, List.getElem?_eq_getElem]

/-- A parameter behind the bound one moves to the index before. -/
theorem Fixes.paramAt_pred {i j : Nat} (hkeys : (c.params.map (·.key)).Nodup) (hij : i < j)
    (hj : j < c.params.length) (h : Fixes catalog c c.params[i] v c') :
    c'.paramAt ((j : Int) - 1) = .ok c.params[j] := by
  have hi : i < c.params.length := by omega
  have hparams : c'.params = c.params.eraseIdx i := by rw [h.2.2, eraseIdx_eq_filter hkeys hi]
  refine paramAt_eq_ok.mpr ⟨j - 1, Value.position?_eq_some.mpr ⟨?_, .inl (by omega)⟩, ?_⟩
  · rw [arity, hparams, List.length_eraseIdx_of_lt hi]
    omega
  · rw [hparams, List.getElem?_eraseIdx_of_ge (by omega), Nat.sub_add_cancel (by omega),
      List.getElem?_eq_getElem]

/-- Binding at an index is binding the parameter that stands there. -/
theorem leaves_bind_iff (hkeys : (c.params.map (·.key)).Nodup) (hk : k ≠ -1)
    (hp : c.paramAt k = .ok p) : Leaves (c.bind catalog k v) c' ↔ Fixes catalog c p v c' := by
  obtain ⟨i, hi, hget⟩ := paramAt_eq_ok.mp hp
  obtain ⟨hlength, rfl⟩ := List.getElem?_eq_some_iff.mp hget
  have hcut : cutAt c.params k = c.params.filter fun q => !q.is c.params[i] := by
    rw [cutAt_eq_eraseIdx hi hk, eraseIdx_eq_filter hkeys hlength]
  constructor
  · rintro ⟨s, h, rfl⟩
    obtain ⟨q, body, hq, hbody, rfl⟩ := bind_eq_ok.mp h
    obtain rfl := Except.ok.inj (hp.symm.trans hq)
    exact ⟨List.getElem_mem hlength, ⟨body, hbody, rfl⟩, hcut⟩
  · rintro ⟨-, ⟨body, hbody, hresult⟩, hparams⟩
    refine ⟨_, bind_eq_ok.mpr ⟨_, body, hp, hbody, rfl⟩, ?_⟩
    rw [hcut, hresult, ← hparams]

theorem boundTo_cons_iff (hkeys : (c.params.map (·.key)).Nodup) {steps : List (Param × Value)} :
    BoundTo catalog c ((p, v) :: steps) c' ↔
      ∃ c₁, Fixes catalog c p v c₁ ∧ BoundTo catalog c₁ steps c' := by
  constructor
  · rintro (_ | ⟨hk, hp, h, rest⟩)
    exact ⟨_, (leaves_bind_iff hkeys hk hp).mp ⟨_, h, rfl⟩, rest⟩
  · rintro ⟨c₁, h, rest⟩
    obtain ⟨i, hi, rfl⟩ := List.mem_iff_getElem.mp h.1
    have hp := paramAt_natCast hi
    obtain ⟨s, hs, rfl⟩ := (leaves_bind_iff hkeys (by omega) hp).mpr h
    exact .cons (by omega) hp hs rest

theorem BoundTo.unique {steps : List (Param × Value)} (hkeys : (c.params.map (·.key)).Nodup)
    (h₁ : BoundTo catalog c steps c₁) (h₂ : BoundTo catalog c steps c₂) : c₁ = c₂ := by
  induction steps generalizing c with
  | nil =>
    cases h₁
    cases h₂
    rfl
  | cons step steps ih =>
    obtain ⟨c₃, hstep₁, hrest₁⟩ := (boundTo_cons_iff hkeys).mp h₁
    obtain ⟨c₄, hstep₂, hrest₂⟩ := (boundTo_cons_iff hkeys).mp h₂
    obtain rfl := hstep₁.unique hstep₂
    exact ih (hstep₁.nodup hkeys) hrest₁ hrest₂

/-- A run can be made in any order of its steps. -/
theorem BoundTo.perm {steps steps' : List (Param × Value)} (hperm : steps.Perm steps')
    (hkeys : (c.params.map (·.key)).Nodup) (h : BoundTo catalog c steps c') :
    BoundTo catalog c steps' c' := by
  induction hperm generalizing c with
  | nil => exact h
  | cons step _ ih =>
    obtain ⟨c₁, hstep, hrest⟩ := (boundTo_cons_iff hkeys).mp h
    exact (boundTo_cons_iff hkeys).mpr ⟨c₁, hstep, ih (hstep.nodup hkeys) hrest⟩
  | swap second first steps =>
    obtain ⟨c₁, hfirst, hrest⟩ := (boundTo_cons_iff hkeys).mp h
    obtain ⟨c₂, hsecond, hrest⟩ := (boundTo_cons_iff (hfirst.nodup hkeys)).mp hrest
    obtain ⟨c₃, hsecond, hfirst⟩ := hfirst.comm hsecond
    exact (boundTo_cons_iff hkeys).mpr
      ⟨c₃, hsecond, (boundTo_cons_iff (hsecond.nodup hkeys)).mpr ⟨c₂, hfirst, hrest⟩⟩
  | trans _ _ ih₁ ih₂ => exact ih₂ hkeys (ih₁ hkeys h)

end Captured

open Captured

/-- **The order of binds does not matter.** Binding two parameters leaves the same lambda in either
order, where the index of the one behind is one less once the other is bound, and it succeeds in one
order if it does in the other. So a run of binds succeeds in every order of its steps if it does in
one, and leaves one lambda: the same parameters in the same order, and the same body. -/
theorem Captured.bind_comm {catalog : Catalog} {c : Captured}
    (hkeys : (c.params.map (·.key)).Nodup) :
    (∀ i j : Nat, i < j → j < c.arity → ∀ a b c',
      (∃ c₁, Leaves (c.bind catalog i a) c₁ ∧ Leaves (c₁.bind catalog ((j : Int) - 1) b) c') ↔
      (∃ c₂, Leaves (c.bind catalog j b) c₂ ∧ Leaves (c₂.bind catalog i a) c')) ∧
    (∀ steps c', BoundTo catalog c steps c' → ∀ steps', steps.Perm steps' →
      ∀ c'', BoundTo catalog c steps' c'' ↔ c'' = c') := by
  refine ⟨fun i j hij hj a b c' => ?_, fun steps c' h steps' hperm c'' => ⟨fun h' => ?_, ?_⟩⟩
  · have hj : j < c.params.length := hj
    have hpi := paramAt_natCast (c := c) (i := i) (by omega)
    have hpj := paramAt_natCast hj
    constructor
    · rintro ⟨c₁, h₁, h₂⟩
      have h₁ := (leaves_bind_iff hkeys (by omega) hpi).mp h₁
      have hp := h₁.paramAt_pred hkeys hij hj
      have h₂ := (leaves_bind_iff (h₁.nodup hkeys) (by omega) hp).mp h₂
      obtain ⟨c₂, h₃, h₄⟩ := h₁.comm h₂
      have hp := h₃.paramAt_of_lt hkeys hij hj
      exact ⟨c₂, (leaves_bind_iff hkeys (by omega) hpj).mpr h₃,
        (leaves_bind_iff (h₃.nodup hkeys) (by omega) hp).mpr h₄⟩
    · rintro ⟨c₂, h₁, h₂⟩
      have h₁ := (leaves_bind_iff hkeys (by omega) hpj).mp h₁
      have hp := h₁.paramAt_of_lt hkeys hij hj
      have h₂ := (leaves_bind_iff (h₁.nodup hkeys) (by omega) hp).mp h₂
      obtain ⟨c₁, h₃, h₄⟩ := h₁.comm h₂
      have hp := h₃.paramAt_pred hkeys hij hj
      exact ⟨c₁, (leaves_bind_iff hkeys (by omega) hpi).mpr h₃,
        (leaves_bind_iff (h₃.nodup hkeys) (by omega) hp).mpr h₄⟩
  · exact h'.unique hkeys (h.perm hperm hkeys)
  · rintro rfl
    exact h.perm hperm hkeys

/-! ### A lambda with two bounds -/

namespace Captured

/-- Mappings with a level. -/
private def levelSchema : Schema :=
  { key := .anonymous "Level", name := "Level", fields := [{ name := "at", access := .item }],
    maker := .mapping }

private def levelParam : Param := { key := 0, name := "l", index := 0, schema := some levelSchema }

private def lowParam : Param := { key := 1, name := "low", index := 1, schema := none }

private def highParam : Param := { key := 2, name := "high", index := 2, schema := none }

private def levelAt : Expr := .member levelParam ⟨levelSchema, levelSchema.fields⟩

/-- The level is between the bounds. -/
private def inRange : Captured where
  params := [levelParam, lowParam, highParam]
  body := .binary .and (.binary .ge levelAt (.param lowParam))
    (.binary .le levelAt (.param highParam))

/-- The bounds can be bound in either order, and the index of the upper one depends on it. -/
theorem bind_comm_range :
    (inRange.params.map (·.key)).Nodup ∧
    ∃ c', (∃ c₁, Leaves (inRange.bind {} 1 (.int 2)) c₁ ∧ Leaves (c₁.bind {} 1 (.int 9)) c') ∧
      (∃ c₂, Leaves (inRange.bind {} 2 (.int 9)) c₂ ∧ Leaves (c₂.bind {} 1 (.int 2)) c') ∧
      BoundTo {} inRange [(highParam, .int 9), (lowParam, .int 2)] c' := by
  have hkeys : (inRange.params.map (·.key)).Nodup := by decide
  obtain ⟨hpair, hruns⟩ := @bind_comm {} inRange hkeys
  obtain ⟨c₁, h₁⟩ : ∃ c₁, Leaves (inRange.bind {} 1 (.int 2)) c₁ := ⟨_, _, rfl, rfl⟩
  obtain ⟨c', h₂⟩ : ∃ c', Leaves (c₁.bind {} 1 (.int 9)) c' := by
    obtain ⟨_, ⟨⟩, rfl⟩ := h₁
    exact ⟨_, _, rfl, rfl⟩
  have hswapped := (hpair 1 2 (by decide) (by decide) (.int 2) (.int 9) c').mp ⟨c₁, h₁, h₂⟩
  refine ⟨hkeys, c', ⟨c₁, h₁, h₂⟩, hswapped, ?_⟩
  obtain ⟨_, ⟨⟩, rfl⟩ := h₁
  obtain ⟨_, ⟨⟩, rfl⟩ := h₂
  have hrun : BoundTo {} inRange [(lowParam, .int 2), (highParam, .int 9)] _ :=
    .cons (k := 1) (by decide) rfl rfl (.cons (k := 1) (by decide) rfl rfl .nil)
  exact (hruns _ _ hrun _ (.swap ..) _).mpr rfl

end Captured

end RecordQuery
