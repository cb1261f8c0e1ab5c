import RecordQuery.Capture
import RecordQuery.Proofs.Mirror

/-!
# Bodies of captured lambdas

`Body` describes the lambda bodies that are made of literals, member chains on the parameter,
operators and method calls, and `Clean` the runs of a body that meet no null on the way. What a name
reaches from the stand-in for a row is the declared member under that name (`Member.of_proxy`,
`Member.of_member`), or the method of what the members lead to (`Member.ofMember_of_memberless`).
-/

namespace RecordQuery

/-! ### Bodies -/

namespace Member

/-- The names that a stand-in for a row does not look up among the members of its record. -/
def proxyAttributes : List String :=
  ["get_schema", "_schema", "_param"]

/-- The public names that a captured member does not look up among the members of its record. -/
def memberAttributes : List String :=
  ["param", "accessor", "chain"] ++ expressionMethods

/-- The public names under which a captured call does not capture a further call. -/
def callAttributes : List String :=
  ["func", "args", "kwargs", "on"] ++ expressionMethods

end Member

/-- The schema of a data class. -/
def Directory.IsDataSchema (d : Directory) (s : Schema) : Prop :=
  ∃ cls, (d.catalog.dataClass? cls).isSome ∧ s = d.catalog.classSchema cls

/-- A public readable member of a data class, under its declared name. -/
structure Directory.Declares (d : Directory) (owner : Schema) (name : String) (f : Field) :
    Prop where
  data : d.IsDataSchema owner
  found : owner.get? name = some f
  readable : f.readable = true
  visible : Catalog.isPrivate name = false

/-- The body reads a chain of members from the parameter, the last one of the given schema. -/
inductive MemberChain (d : Directory) (param : String) (root : Schema) : Term → Schema → Prop
  | first {name : String} {f : Field} (hf : d.Declares root name f)
    (hname : name ∉ Member.proxyAttributes) :
    MemberChain d param root (.get (.var param) name) (d.memberSchema f)
  | next {x : Term} {owner : Schema} {name : String} {f : Field}
    (hx : MemberChain d param root x owner) (hf : d.Declares owner name f)
    (hname : name ∉ Member.memberAttributes) :
    MemberChain d param root (.get x name) (d.memberSchema f)

/-- The bodies made of literals, member chains on the parameter, operators, and calls of methods of
members that have no members and of other calls. -/
inductive Body (d : Directory) (param : String) (root : Schema) : Term → Prop
  | literal {v : Value} (hv : v.IsLiteral) : Body d param root (.constant v)
  | chain {t : Term} {owner : Schema} (ht : MemberChain d param root t owner) :
    Body d param root t
  | binary {op : BinaryOp} {l r : Term}
    (hop : op.IsArithmetic ∨ op.IsComparison ∨ op.IsJunction) (hl : Body d param root l)
    (hr : Body d param root r) : Body d param root (.binary op l r)
  | callMember {x : Term} {owner : Schema} {name : String} {args : List Term}
    {named : List (String × Term)} (hx : MemberChain d param root x owner)
    (howner : owner.fields = []) (hname : name ∉ Member.memberAttributes)
    (hvisible : Catalog.isPrivate name = false) (hargs : ∀ t ∈ args, Body d param root t)
    (hnamed : ∀ n ∈ named, Body d param root n.2) :
    Body d param root (.call x name args named)
  | callCall {x : Term} {inner name : String} {innerArgs args : List Term}
    {innerNamed named : List (String × Term)}
    (hx : Body d param root (.call x inner innerArgs innerNamed))
    (hname : name ∉ Member.callAttributes) (hvisible : Catalog.isPrivate name = false)
    (hargs : ∀ t ∈ args, Body d param root t) (hnamed : ∀ n ∈ named, Body d param root n.2) :
    Body d param root (.call (.call x inner innerArgs innerNamed) name args named)

/-! ### Runs that meet no null -/

/-- The value stands for a row or is an expression: it was made by a capture. -/
def Value.isStandIn : Value → Bool
  | .expr _ | .proxy _ => true
  | _ => false

/-- The value of the body, if it has one, is as `P` says. -/
def Term.Gives (d : Directory) (env : Env) (P : Value → Prop) (t : Term) : Prop :=
  ∀ v, (t.run d env).result = .ok v → P v

theorem Term.Gives.of_run {d : Directory} {env : Env} {P : Value → Prop} {t : Term} {v : Value}
    (hv : (t.run d env).result = .ok v) (hP : P v) : t.Gives d env P := by
  intro w hw
  cases hv.symm.trans hw
  exact hP

/-- No member that the body reads is null, and neither is an operand or the receiver of a call; what
`&` and `|` join are truth values. -/
inductive Clean (d : Directory) (env : Env) : Term → Prop
  | constant (v : Value) : Clean d env (.constant v)
  | var (name : String) : Clean d env (.var name)
  | get {x : Term} {name : String} (hx : Clean d env x)
    (hfrom : x.Gives d env (·.isStandIn = false))
    (hread : (Term.get x name).Gives d env (·.isNull = false)) : Clean d env (.get x name)
  | call {x : Term} {name : String} {args : List Term} {named : List (String × Term)}
    (hx : Clean d env x) (hreceiver : x.Gives d env (·.isNull = false))
    (hargs : ∀ t ∈ args, Clean d env t) (hnamed : ∀ n ∈ named, Clean d env n.2) :
    Clean d env (.call x name args named)
  | binary {op : BinaryOp} {l r : Term} (hl : Clean d env l) (hr : Clean d env r)
    (hleft : l.Gives d env (·.isNull = false)) (hright : r.Gives d env (·.isNull = false))
    (hjunction : op.IsJunction →
      l.Gives d env (∃ b, · = .bool b) ∧ r.Gives d env (∃ b, · = .bool b)) :
    Clean d env (.binary op l r)

/-! ### Members of data classes -/

theorem Catalog.access_of_mem_propertyFields {catalog : Catalog} {cls : String} {seen : List String}
    {f : Field} (hf : f ∈ catalog.propertyFields cls seen) : f.access = .attr := by
  obtain ⟨g, hg, rfl⟩ := List.mem_map.1 hf
  have hnil : ∀ g ∈ ([] : List (String × Field)), g.2.access = .attr := by simp
  clear hf
  revert g
  refine List.foldlRecOn
    (motive := fun fields : List (String × Field) => ∀ g ∈ fields, g.2.access = .attr) _ _ hnil ?_
  intro fields ih p hp
  split
  · exact ih
  · intro g hg
    rcases List.mem_append.1 hg with hg | hg
    · exact ih g hg
    · rw [List.mem_singleton.1 hg]

theorem Catalog.access_of_mem_dataMembers {catalog : Catalog} {cls : String} {frozen : Bool}
    {f : Field} (hf : f ∈ catalog.dataMembers cls frozen) : f.access = .attr := by
  rcases List.mem_append.1 hf with hf | hf
  · obtain ⟨g, -, rfl⟩ := List.mem_map.1 hf
    rfl
  · exact access_of_mem_propertyFields hf

theorem Directory.IsDataSchema.access {d : Directory} {s : Schema} (hs : d.IsDataSchema s)
    {f : Field} (hf : f ∈ s.fields) : f.access = .attr := by
  obtain ⟨cls, hcls, rfl⟩ := hs
  obtain ⟨c, hc⟩ := Option.isSome_iff_exists.1 hcls
  have hkind : c.isData = true := by simpa using List.find?_some hc
  obtain ⟨name, kind⟩ := c
  cases kind with
  | data frozen ordered =>
    rw [Catalog.classSchema, hc] at hf
    exact Catalog.access_of_mem_dataMembers hf
  | plain | mapping => cases hkind

namespace Directory.Declares

variable {d : Directory} {owner : Schema} {name : String} {f : Field}

theorem candidates_eq (hf : d.Declares owner name f) : owner.candidates name = [f] := by
  simp [Schema.candidates, hf.found, hf.readable]

theorem lookup_eq (hf : d.Declares owner name f) : (owner.lookup name).result = .ok (some f) := by
  simp [Schema.lookup, hf.candidates_eq]

theorem name_eq (hf : d.Declares owner name f) : f.name = name := by
  simpa using List.find?_some hf.found

theorem access (hf : d.Declares owner name f) : f.access = .attr :=
  hf.data.access (List.mem_of_find?_eq_some hf.found)

theorem read_eq (hf : d.Declares owner name f) (catalog : Catalog) (v : Value) :
    f.read catalog v = v.readAttr catalog name := by
  unfold Field.read
  simp only [hf.access, hf.name_eq]

end Directory.Declares

theorem Directory.eq_of_enter {d : Directory} {f : Field} {s : Schema}
    (h : (d.enter f).result = .ok s) : s = d.memberSchema f := by
  obtain ⟨-, -, h⟩ := Except.bind_eq_ok.1 h
  cases h
  rfl

theorem Value.isNull_of_readAttr {catalog : Catalog} {v w : Value} {name : String}
    (h : v.readAttr catalog name = .ok w) : v.isNull = false := by
  cases v <;> first | rfl | cases h

/-! ### What names reach from stand-ins -/

namespace Member

variable {d : Directory} {q : Param} {a : Accessor} {name : String} {m : Member}

theorem of_proxy (hname : name ∉ proxyAttributes) (hvisible : Catalog.isPrivate name = false) :
    of d (.proxy q) name = ofProxy q name := by
  simp only [proxyAttributes, List.mem_cons, List.not_mem_nil, or_false, not_or] at hname
  unfold of
  simp [hname, hvisible]

theorem of_member (hname : name ∉ memberAttributes) (hvisible : Catalog.isPrivate name = false) :
    of d (.expr (.member q a)) name = ofMember d q a name := by
  rw [memberAttributes, List.mem_append, not_or] at hname
  have hown : ownAttr? (.member q a) name = none := by
    unfold ownAttr?
    split <;> simp_all
  simp [of, ofExpr, hown, hname.2, hvisible]

theorem of_call {method : String} {args : List Value} {named : List (String × Value)}
    {on : Option Expr} (hname : name ∉ callAttributes) (hvisible : Catalog.isPrivate name = false) :
    of d (.expr (.call method args named on)) name =
      pure (.captured name (.call method args named on)) := by
  rw [callAttributes, List.mem_append, not_or] at hname
  have hown : ownAttr? (.call method args named on) name = none := by
    unfold ownAttr?
    split <;> simp_all
  simp [of, ofExpr, hown, hname.2, hvisible]

theorem ofProxy_of_declares {root : Schema} {f : Field} (hroot : q.schema = some root)
    (hf : d.Declares root name f) :
    (ofProxy q name).result = .ok (.value (.expr (.member q ⟨root, [f]⟩))) := by
  have hschema : q.recordSchema = root := by simp [Param.recordSchema, hroot]
  simp only [ofProxy, hschema, Outcome.result_bind, hf.lookup_eq, Except.ok_bind,
    Outcome.result_pure]

theorem ofMember_of_declares {root : Schema} {fields : List Field} {last f : Field}
    (hf : d.Declares (d.memberSchema last) name f)
    (h : (ofMember d q ⟨root, fields ++ [last]⟩ name).result = .ok m) :
    m = .value (.expr (.member q ⟨root, fields ++ [last] ++ [f]⟩)) := by
  obtain ⟨owner, howner, h⟩ := Outcome.result_bind_eq_ok.1 h
  rw [List.getLastD_concat] at howner
  cases Directory.eq_of_enter howner
  simp only [Outcome.result_bind, hf.lookup_eq, Except.ok_bind] at h
  cases h
  rfl

theorem ofMember_of_memberless {root : Schema} {fields : List Field} {last : Field}
    (hmemberless : (d.memberSchema last).fields = [])
    (h : (ofMember d q ⟨root, fields ++ [last]⟩ name).result = .ok m) :
    m = .captured name (.member q ⟨root, fields ++ [last]⟩) := by
  obtain ⟨owner, howner, h⟩ := Outcome.result_bind_eq_ok.1 h
  rw [List.getLastD_concat] at howner
  cases Directory.eq_of_enter howner
  have hlookup : ((d.memberSchema last).lookup name).result = .ok none := by
    simp [Schema.lookup, Schema.candidates, Schema.get?, hmemberless]
  simp only [Outcome.result_bind, hlookup, Except.ok_bind, hmemberless] at h
  cases h
  rfl

/-- A name reaches the same from a value as reading the attribute does. -/
theorem of_value {v w : Value} (hv : v.isStandIn = false)
    (h : (do return (← of d v name).toValue : Outcome Value).result = .ok w) :
    v.readAttr d.catalog name = .ok w := by
  obtain ⟨m, hm, h⟩ := Outcome.result_bind_eq_ok.1 h
  have hread : ∃ u, v.readAttr d.catalog name = .ok u ∧ m.toValue = u := by
    cases v <;> try cases hv
    all_goals
      obtain ⟨u, hu, hm⟩ := Outcome.result_bind_eq_ok.1 hm
      refine ⟨u, hu, ?_⟩
      cases u <;> cases hm <;> rfl
  obtain ⟨u, hu, rfl⟩ := hread
  rw [hu]
  exact h

end Member

end RecordQuery
