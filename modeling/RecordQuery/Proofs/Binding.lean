import RecordQuery.Proofs.Substitution

/-!
# Binding a parameter of a captured lambda

Calling a lambda after one of its parameters was bound is calling it with the constant put in at the
place of that parameter (`Captured.call_bind`). The environments of the two calls differ in the
bound parameter only, because parameters have names of their own.
-/

namespace RecordQuery

/-! ### Environments of calls -/

namespace Env

variable {pairs : List (Param × Value)} {env : Env} {q : Param} {w : Value}

private theorem lookup_bindAll_of_notMem {name : String}
    (h : name ∉ pairs.map (·.1.name)) :
    (pairs.foldl (fun env (p, v) => put env p.name v) env).lookup name = env.lookup name := by
  induction pairs generalizing env with
  | nil => rfl
  | cons pair pairs ih =>
    simp only [List.map_cons, List.mem_cons, not_or] at h
    rw [List.foldl_cons, ih h.2, lookup_put_of_ne h.1]

/-- A parameter whose name no other one has is bound to the value beside it. -/
theorem lookup_bindAll (hnames : (pairs.map (·.1.name)).Nodup) (h : (q, w) ∈ pairs) :
    (pairs.foldl (fun env (p, v) => put env p.name v) env).lookup q.name = some w := by
  induction pairs generalizing env with
  | nil => cases h
  | cons pair pairs ih =>
    rw [List.map_cons, List.nodup_cons] at hnames
    rw [List.foldl_cons]
    rcases List.mem_cons.mp h with rfl | h
    · rw [lookup_bindAll_of_notMem hnames.1, lookup_put_self]
    · exact ih hnames.2 h

end Env

namespace Captured

/-- The parameters of a lambda have names of their own, and its body reads no others. A key stands
for the identity of a parameter, so no two parameters share one. -/
structure WellFormed (c : Captured) : Prop where
  names : (c.params.map (·.name)).Nodup
  identity : ∀ p ∈ c.params, ∀ q ∈ c.params, p.key = q.key → p = q
  closed : c.body.Over (· ∈ c.params)

variable {d : Directory} {c : Captured}

theorem value_environment {args : List Value} {q : Param} {w : Value}
    (hnames : (c.params.map (·.name)).Nodup) (hlength : args.length = c.arity)
    (h : (q, w) ∈ c.params.zip args) : (c.environment args).value q.name = .ok w := by
  have hfst : (c.params.zip args).map (·.1.name) = c.params.map (·.name) := by
    have hle : c.params.length ≤ args.length := Nat.le_of_eq hlength.symm
    conv => rhs; rw [← List.map_fst_zip hle, List.map_map]
    rfl
  rw [← hfst] at hnames
  simp [Env.value, environment, Env.lookup_bindAll hnames h]

theorem cutAt_natCast {α : Type} {items : List α} {i : Nat} (h : i < items.length) :
    cutAt items i = items.eraseIdx i := by
  have h1 : Value.boundary items.length (i : Int) = i := by
    simp only [Value.boundary]
    omega
  have h2 : Value.boundary items.length ((i : Int) + 1) = i + 1 := by
    simp only [Value.boundary]
    omega
  rw [cutAt, h1, h2, List.eraseIdx_eq_take_drop_succ]

theorem paramAt_natCast {i : Nat} (h : i < c.params.length) : c.paramAt i = .ok c.params[i] := by
  have h1 : Value.position? c.arity (i : Int) = some i := by
    have h0 : ¬ (i : Int) < 0 := by omega
    simp [Value.position?, arity, h0, h]
  have h2 : c.params[i]? = some c.params[i] := List.getElem?_eq_getElem h
  simp only [paramAt, h1, Option.bind_some, h2]

/-- Binding at an index that counts from the front, as its two parts. -/
theorem bind_natCast {i : Nat} (h : i < c.params.length) {v : Value} {s : Substituted Captured}
    (hs : c.bind d.catalog i v = .ok s) :
    ∃ body, c.body.substitute d.catalog c.params[i] v = .ok body ∧
      s.result = { params := c.params.eraseIdx i, body := body.result } := by
  rw [bind, paramAt_natCast h, Except.ok_bind] at hs
  obtain ⟨body, hbody, hs⟩ := Except.bind_eq_ok.mp hs
  cases hs
  exact ⟨body, hbody, by rw [cutAt_natCast h]⟩

/-- The arguments of a call with one more value put in at an index. -/
def insertAt (args : List Value) (i : Nat) (v : Value) : List Value :=
  args.take i ++ v :: args.drop i

@[simp] theorem length_insertAt (args : List Value) (i : Nat) (v : Value) :
    (insertAt args i v).length = args.length + 1 := by
  simp [insertAt]
  omega

/-- The parameters beside their values in the call with the value put in: the bound parameter beside
that value, and the others as in the call without it. -/
theorem mem_zip_insertAt {params : List Param} {rest : List Value} {i : Nat} {v : Value}
    (hi : i < params.length) (hrest : i ≤ rest.length) {q : Param} {w : Value} :
    (q, w) ∈ params.zip (insertAt rest i v) ↔
      (q, w) ∈ (params.eraseIdx i).zip rest ∨ q = params[i] ∧ w = v := by
  induction i generalizing params rest with
  | zero =>
    cases params with
    | nil => cases hi
    | cons p ps => simp [insertAt, or_comm]
  | succ i ih =>
    cases params with
    | nil => cases hi
    | cons p ps =>
      cases rest with
      | nil => simp at hrest
      | cons r rs =>
        have hmem := @ih ps rs (by simpa using hi) (by simpa using hrest)
        simp only [insertAt] at hmem
        simp [insertAt, hmem, or_assoc]

/-- The environments of the call with the constant put in and of the call without it agree on all
parameters that are not bound. -/
theorem extends_environment (hc : c.WellFormed) {i : Nat} (hi : i < c.params.length) {v : Value}
    {rest : List Value} (hlength : rest.length + 1 = c.params.length) (body : Expr) :
    Env.Extends (· ∈ c.params) c.params[i] v
      (environment ⟨c.params.eraseIdx i, body⟩ rest) (c.environment (insertAt rest i v)) := by
  have hrest : i ≤ rest.length := by omega
  have herase : (c.params.eraseIdx i).length = rest.length := by
    rw [List.length_eraseIdx_of_lt hi]
    omega
  have hargs : (insertAt rest i v).length = c.arity := by rw [length_insertAt, hlength, arity]
  refine ⟨fun q hq hqp => ?_, fun q hq hqp => ?_⟩
  · have hq' : q = c.params[i] :=
      hc.identity q hq _ (List.getElem_mem hi) (by simpa [Param.is] using hqp)
    exact value_environment hc.names hargs
      ((mem_zip_insertAt hi hrest).mpr (.inr ⟨hq', rfl⟩))
  · have hne : q ≠ c.params[i] := by
      rintro rfl
      simp [Param.is] at hqp
    have hmem : q ∈ c.params.eraseIdx i := by
      rw [List.mem_eraseIdx_iff_getElem]
      obtain ⟨j, hj, rfl⟩ := List.mem_iff_getElem.mp hq
      exact ⟨j, hj, fun h => hne (by simp [h]), rfl⟩
    obtain ⟨w, hw⟩ : ∃ w, (q, w) ∈ (c.params.eraseIdx i).zip rest := by
      obtain ⟨j, hj, rfl⟩ := List.mem_iff_getElem.mp hmem
      have hj' : j < rest.length := by omega
      exact ⟨rest[j], List.mem_iff_getElem.mpr ⟨j, by simp; omega, by simp⟩⟩
    have hnames : ((c.params.eraseIdx i).map (·.name)).Nodup :=
      hc.names.sublist ((List.eraseIdx_sublist ..).map _)
    rw [value_environment hc.names hargs ((mem_zip_insertAt hi hrest).mpr (.inl hw))]
    exact (value_environment (c := ⟨c.params.eraseIdx i, body⟩) hnames herase.symm hw).symm

/-- Calling a lambda with one of its parameters bound is calling it with the constant put in at the
place of that parameter. -/
theorem call_bind (hc : c.WellFormed) {i : Nat} (hi : i < c.params.length) {v : Value}
    {s : Substituted Captured} (hs : c.bind d.catalog i v = .ok s) {rest : List Value}
    (hlength : rest.length + 1 = c.params.length) :
    s.result.call d rest = c.call d (insertAt rest i v) := by
  obtain ⟨body, hbody, hresult⟩ := bind_natCast hi hs
  have harity : rest.length = (c.params.eraseIdx i).length := by
    rw [List.length_eraseIdx_of_lt hi]
    omega
  rw [hresult, call, call, if_pos (by exact harity),
    if_pos (by rw [length_insertAt, hlength, arity])]
  exact Expr.evaluate_substitute (extends_environment hc hi hlength body.result) hc.closed hbody

end Captured
end RecordQuery
