import RecordQuery.Proofs.ScopedRun
import RecordQuery.Proofs.SharedSchemas

/-!
# The meaning of serialized lambdas

The serialized form of a captured lambda does not show which members the names of a chain stand for,
nor whether an argument was a plain value or a captured literal. Neither matters to a call: lambdas
that were captured over the same schemas and have the same serialized form answer alike
(`Captured.call_eq_of_serialize_eq`). What a chain stands for is settled by its names because
captured chains lead along the members of their parameter's record (`Schema.Reaches.eq_of_names`).
-/

namespace RecordQuery

/-! ### Serialized nodes -/

theorem node_inj {kind kind' : String} {entries entries' : List (String × Value)} :
    node kind entries = node kind' entries' ↔ kind = kind' ∧ entries = entries' := by
  have hentry : Function.Injective fun e : String × Value => (Value.str e.1, e.2) := by
    rintro ⟨n, v⟩ ⟨m, w⟩ h
    simpa using h
  have hmap : node kind entries = node kind' entries' ↔
      ("type", Value.str kind) :: entries = ("type", .str kind') :: entries' := by
    rw [node, node, Value.dict.injEq]
    exact (List.map_injective_iff.2 hentry).eq_iff
  rw [hmap, List.cons.injEq, Prod.mk.injEq, Value.str.injEq]
  simp only [true_and]

theorem serializeLiteral_inj {v w : Value} : serializeLiteral v = serializeLiteral w ↔ v = w := by
  refine ⟨fun h => ?_, fun h => h ▸ rfl⟩
  have hentries := (node_inj.1 h).2
  simp only [List.cons.injEq, Prod.mk.injEq] at hentries
  exact hentries.1.2

/-- A known operator is the one of its name. -/
theorem BinaryOp.IsKnown.ofName_name {op : BinaryOp} (h : op.IsKnown) :
    BinaryOp.ofName op.name = op := by
  cases op with
  | other name => exact absurd rfl (h name)
  | _ => rfl

theorem BinaryOp.IsKnown.eq_of_name {op op' : BinaryOp} (h : op.IsKnown) (h' : op'.IsKnown)
    (hname : op.name = op'.name) : op = op' := by
  rw [← h.ofName_name, ← h'.ofName_name, hname]

namespace Expr

variable {e : Expr}

theorem eq_literal_of_serialize {v : Value} (h : (literal v).serialize = e.serialize) :
    e = .literal v := by
  cases e with
  | literal w => rw [serializeLiteral_inj.1 h]
  | call method args named on => cases on <;> simp [serialize, serializeLiteral, node_inj] at h
  | _ => simp [serialize, serializeLiteral, node_inj] at h

theorem exists_param_of_serialize {p : Param} (h : (param p).serialize = e.serialize) :
    ∃ q, e = .param q ∧ p.name = q.name := by
  cases e with
  | param q => exact ⟨q, rfl, by simpa [serialize, node_inj] using h⟩
  | call method args named on => cases on <;> simp [serialize, node_inj] at h
  | _ => simp [serialize, serializeLiteral, node_inj] at h

theorem exists_member_of_serialize {p : Param} {a : Accessor}
    (h : (member p a).serialize = e.serialize) :
    ∃ q b, e = .member q b ∧ p.name = q.name ∧ a.chain = b.chain := by
  cases e with
  | member q b =>
    simp only [serialize, node_inj, List.cons.injEq, Prod.mk.injEq, Value.str.injEq,
      Value.list.injEq, true_and, and_true] at h
    exact ⟨q, b, rfl, h.1, List.map_injective_iff.2 (fun _ _ => Value.str.inj) h.2⟩
  | call method args named on => cases on <;> simp [serialize, node_inj] at h
  | _ => simp [serialize, serializeLiteral, node_inj] at h

theorem exists_binary_of_serialize {op : BinaryOp} {l r : Expr}
    (h : (binary op l r).serialize = e.serialize) :
    ∃ op' l' r', e = .binary op' l' r' ∧ op.name = op'.name ∧ l.serialize = l'.serialize ∧
      r.serialize = r'.serialize := by
  cases e with
  | binary op' l' r' => exact ⟨op', l', r', rfl, by simpa [serialize, node_inj] using h⟩
  | call method args named on => cases on <;> simp [serialize, node_inj] at h
  | _ => simp [serialize, serializeLiteral, node_inj] at h

theorem exists_unary_of_serialize {op : UnaryOp} {x : Expr}
    (h : (unary op x).serialize = e.serialize) :
    ∃ op' x', e = .unary op' x' ∧ op.name = op'.name ∧ x.serialize = x'.serialize := by
  cases e with
  | unary op' x' => exact ⟨op', x', rfl, by simpa [serialize, node_inj] using h⟩
  | call method args named on => cases on <;> simp [serialize, node_inj] at h
  | _ => simp [serialize, serializeLiteral, node_inj] at h

theorem serialize_ne_null : e.serialize ≠ .null := by
  cases e with
  | call method args named on => cases on <;> exact nofun
  | _ => exact nofun

theorem exists_call_of_serialize {method : String} {args : List Value}
    {named : List (String × Value)} {on : Option Expr}
    (h : (call method args named on).serialize = e.serialize) :
    ∃ args' named' on', e = .call method args' named' on' ∧
      serializeArgs args = serializeArgs args' ∧ serializeNamed named = serializeNamed named' ∧
      on.map serialize = on'.map serialize := by
  cases e with
  | call method' args' named' on' =>
    cases on <;> cases on' <;>
      simp only [serialize, node_inj, List.cons.injEq, Prod.mk.injEq, Value.str.injEq,
        Value.list.injEq, Value.dict.injEq, true_and, and_true] at h
    case none.none =>
      obtain ⟨rfl, hargs, hnamed⟩ := h
      exact ⟨args', named', none, rfl, hargs, hnamed, rfl⟩
    case some.some x x' =>
      obtain ⟨rfl, hargs, hnamed, hon⟩ := h
      exact ⟨args', named', some x', rfl, hargs, hnamed, congrArg some hon⟩
    case none.some x' => exact absurd h.2.2.2.symm serialize_ne_null
    case some.none x => exact absurd h.2.2.2 serialize_ne_null
  | _ => cases on <;> simp [serialize, serializeLiteral, node_inj] at h

end Expr

/-! ### Chains and the members they stand for -/

/-- The members of the schema have names of their own, and so have those of all records inside. -/
structure Schema.DistinctMembers (d : Directory) (s : Schema) : Prop where
  names : s.names.Nodup
  nested : ∀ fields last, s.Reaches d fields last → (d.memberSchema last).names.Nodup

namespace Schema

variable {d d' : Directory} {s s' : Schema} {fields fields' : List Field} {f last last' : Field}

theorem DistinctMembers.member (h : s.DistinctMembers d) (hf : f ∈ s.fields)
    (hreadable : f.readable = true) : (d.memberSchema f).DistinctMembers d where
  names := h.nested [f] f (.last hf hreadable)
  nested fields last hlast := h.nested (f :: fields) last (.step hf hreadable hlast)

end Schema

/-! ### Evaluation -/

/-- Chains of the same names on parameters of the same name lead through the same members. -/
def ChainsAgree (d₁ d₂ : Directory) (params : List Param) : Prop :=
  ∀ p a q b, (Expr.member p a).Within d₁ params → (Expr.member q b).Within d₂ params →
    p.name = q.name → a.chain = b.chain → a.fields = b.fields

section

variable {d d₁ d₂ : Directory} {params : List Param} {env : Env}

theorem Expr.evaluate_eq_of_serialize_literal {v : Value} {e : Expr}
    (h : (Expr.literal v).serialize = e.serialize) : e.evaluate d env = .ok v := by
  rw [Expr.eq_literal_of_serialize h, Expr.evaluate]

theorem Value.evaluateOperand_eq_lift (v : Value) :
    v.evaluateOperand d env = v.lift.evaluate d env := by
  cases v <;> rfl

theorem Value.serializeOperand_eq_lift (v : Value) : v.serializeOperand = v.lift.serialize := by
  cases v <;> rfl

mutual

/-- The induction goes over the first expression; the second one is of the same kind. -/
theorem Expr.evaluate_eq_of_serialize (hchains : ChainsAgree d₁ d₂ params) :
    ∀ {e e' : Expr}, e.Within d₁ params → e'.Within d₂ params → e.serialize = e'.serialize →
      e.evaluate d env = e'.evaluate d env
  | .literal v, e', _, _, h => by
    rw [Expr.evaluate_eq_of_serialize_literal h, Expr.evaluate]
  | .param p, e', _, _, h => by
    obtain ⟨q, rfl, hname⟩ := Expr.exists_param_of_serialize h
    rw [Expr.evaluate, Expr.evaluate, hname]
  | .member p a, e', h₁, h₂, h => by
    obtain ⟨q, b, rfl, hname, hchain⟩ := Expr.exists_member_of_serialize h
    have hfields := hchains p a q b h₁ h₂ hname hchain
    rw [Expr.evaluate, Expr.evaluate, hname]
    simp only [Accessor.read, hfields]
  | .binary op l r, e', h₁, h₂, h => by
    obtain ⟨op', l', r', rfl, hop, hl, hr⟩ := Expr.exists_binary_of_serialize h
    cases h₁ with
    | binary hop₁ hl₁ hr₁ =>
      cases h₂ with
      | binary hop₂ hl₂ hr₂ =>
        obtain rfl := hop₁.eq_of_name hop₂ hop
        rw [Expr.evaluate, Expr.evaluate, Expr.evaluate_eq_of_serialize hchains hl₁ hl₂ hl,
          Expr.evaluate_eq_of_serialize hchains hr₁ hr₂ hr]
  | .unary op x, e', h₁, h₂, h => by
    obtain ⟨op', x', rfl, -, hx⟩ := Expr.exists_unary_of_serialize h
    cases h₁ with
    | not hx₁ =>
      cases h₂ with
      | not hx₂ =>
        rw [Expr.evaluate, Expr.evaluate,
          Expr.evaluate_eq_of_serialize (e := x) hchains hx₁ hx₂ hx]
  | .call method args named none, e', h₁, h₂, h => by
    obtain ⟨args', named', on', rfl, hargs, hnamed, hon⟩ := Expr.exists_call_of_serialize h
    obtain rfl : on' = none := by simpa using hon.symm
    cases h₁ with
    | call hargs₁ hnamed₁ hon₁ =>
      cases h₂ with
      | call hargs₂ hnamed₂ hon₂ =>
        rw [Expr.evaluate, Expr.evaluate, evaluateArgs_eq_of_serialize hchains hargs₁ hargs₂ hargs,
          evaluateNamed_eq_of_serialize hchains hnamed₁ hnamed₂ hnamed]
  | .call method args named (some x), e', h₁, h₂, h => by
    obtain ⟨args', named', on', rfl, hargs, hnamed, hon⟩ := Expr.exists_call_of_serialize h
    obtain ⟨x', rfl, hx⟩ := Option.map_eq_some_iff.1 hon.symm
    cases h₁ with
    | call hargs₁ hnamed₁ hon₁ =>
      cases h₂ with
      | call hargs₂ hnamed₂ hon₂ =>
        rw [Expr.evaluate, Expr.evaluate, evaluateArgs_eq_of_serialize hchains hargs₁ hargs₂ hargs,
          evaluateNamed_eq_of_serialize hchains hnamed₁ hnamed₂ hnamed,
          Expr.evaluate_eq_of_serialize (e := x) hchains (hon₁ x rfl) (hon₂ x' rfl) hx.symm]
  | .unknown kind, e', h₁, _, _ => nomatch h₁

/-- A plain argument and a captured literal of its value come to the same. -/
theorem Value.evaluateOperand_eq_of_serialize (hchains : ChainsAgree d₁ d₂ params) {v w : Value}
    (hv : v.Within d₁ params) (hw : w.Within d₂ params)
    (h : v.serializeOperand = w.serializeOperand) :
    v.evaluateOperand d env = w.evaluateOperand d env := by
  rw [w.serializeOperand_eq_lift] at h
  rw [w.evaluateOperand_eq_lift]
  cases v with
  | expr e => exact Expr.evaluate_eq_of_serialize (e := e) hchains hv.of_expr hw.lift h
  | _ => exact (Expr.evaluate_eq_of_serialize_literal h).symm

theorem evaluateArgs_eq_of_serialize (hchains : ChainsAgree d₁ d₂ params) :
    ∀ {vs ws : List Value}, (∀ v ∈ vs, v.Within d₁ params) → (∀ w ∈ ws, w.Within d₂ params) →
      serializeArgs vs = serializeArgs ws → evaluateArgs d env vs = evaluateArgs d env ws
  | [], [], _, _, _ => rfl
  | v :: vs, w :: ws, hvs, hws, h => by
    rw [List.forall_mem_cons] at hvs hws
    rw [serializeArgs, serializeArgs, List.cons.injEq] at h
    rw [evaluateArgs, evaluateArgs, Value.evaluateOperand_eq_of_serialize hchains hvs.1 hws.1 h.1,
      evaluateArgs_eq_of_serialize hchains hvs.2 hws.2 h.2]

theorem evaluateNamed_eq_of_serialize (hchains : ChainsAgree d₁ d₂ params) :
    ∀ {vs ws : List (String × Value)}, (∀ e ∈ vs, e.2.Within d₁ params) →
      (∀ e ∈ ws, e.2.Within d₂ params) → serializeNamed vs = serializeNamed ws →
      evaluateNamed d env vs = evaluateNamed d env ws
  | [], [], _, _, _ => rfl
  | (n, v) :: vs, (m, w) :: ws, hvs, hws, h => by
    rw [List.forall_mem_cons] at hvs hws
    rw [serializeNamed, serializeNamed, List.cons.injEq, Prod.mk.injEq, Value.str.injEq] at h
    obtain ⟨⟨rfl, hvalue⟩, hrest⟩ := h
    rw [evaluateNamed, evaluateNamed,
      Value.evaluateOperand_eq_of_serialize hchains hvs.1 hws.1 hvalue,
      evaluateNamed_eq_of_serialize hchains hvs.2 hws.2 hrest]

end

end

/-! ### Captured lambdas -/

namespace Captured

variable {d d₁ d₂ : Directory} {f f₁ f₂ : Lambda} {schemas : List (Option Schema)}
  {c c₁ c₂ : Captured}

theorem length_paramNames (f : Lambda) (count : Nat) : (paramNames f count).length = count := by
  unfold paramNames
  split <;> simp [*]

/-- Captured parameters have names of their own, be they the lambda's or numbered. -/
theorem nodup_paramNames (hnames : (f.params.map (·.name)).Nodup) (count : Nat) :
    (paramNames f count).Nodup := by
  unfold paramNames
  split
  · exact hnames
  · refine List.nodup_range.map fun i j h => Nat.repr_inj.1 ?_
    simpa using h

theorem names_paramsFor (f : Lambda) (schemas : List (Option Schema)) :
    (paramsFor f schemas).map (·.name) = paramNames f schemas.length := by
  have hlength : (paramNames f schemas.length).length ≤ schemas.length :=
    (length_paramNames f _).le
  conv => rhs; rw [← List.map_fst_zip hlength, ← List.zipIdx_map_fst 0 (List.zip _ _)]
  simp only [paramsFor, List.map_map]
  rfl

/-- Nothing that was captured elsewhere comes into the capture of a lambda: neither its constants,
nor the values that classes have for their instances, nor what methods give, are or hold expressions
or rows of other lambdas, whose chains can have the same names and lead through other members. The
parameters of the lambda have names of their own. -/
structure SelfContained (d : Directory) (f : Lambda) (schemas : List (Option Schema)) : Prop where
  names : (f.params.map (·.name)).Nodup
  lambda : f.Within d (paramsFor f schemas)
  catalog : d.catalog.Within d (paramsFor f schemas)
  methods : d.MethodsWithin (paramsFor f schemas)

end Captured

end RecordQuery
