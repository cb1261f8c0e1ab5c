import RecordQuery.Proofs.CapturedBody

/-!
# Captured lambdas compute what the lambdas compute

A lambda body is run twice: on a stand-in for its row, where it builds an expression, and on the row
itself. `Represents` relates the values of the two runs. It is preserved by every kind of body
(`Body.simulated`), and for the body as a whole it says that the captured lambda gives the value of
the lambda (`Captured.call_eq_of_capture`).
-/

namespace RecordQuery

/-! ### The two runs of a body -/

/-- What the run on a stand-in made and what the run on the row gave agree: an expression evaluates
to it, and a literal is it. -/
inductive Represents (d : Directory) (env : Env) : Value → Value → Prop
  | literal {v : Value} (hv : v.IsLiteral) : Represents d env v v
  | expr {e : Expr} {w : Value} (he : e.evaluate d env = .ok w) : Represents d env (.expr e) w

namespace Represents

variable {d : Directory} {env : Env} {a b v w : Value}

/-- As an operand. -/
theorem lift (h : Represents d env v w) : v.lift.evaluate d env = .ok w := by
  cases h with
  | literal hv => rw [hv.lift, Expr.evaluate]
  | expr he => exact he

/-- As an argument. -/
theorem evaluateOperand (h : Represents d env v w) : v.evaluateOperand d env = .ok w := by
  cases h with
  | literal hv => cases hv <;> rfl
  | expr he => exact he

/-- Operators that compute for other operands than null compute the same when they are captured. -/
theorem binary {op : BinaryOp} {l r : Expr}
    (hop : op.IsArithmetic ∨ op.IsComparison ∨ op.IsJunction) (hl : l.evaluate d env = .ok a)
    (hr : r.evaluate d env = .ok b) (ha : a.isNull = false) (hb : b.isNull = false)
    (hjunction : op.IsJunction → (∃ p, a = .bool p) ∧ ∃ p, b = .bool p)
    (hv : a.operate d.catalog op b = .ok v) : (Expr.binary op l r).evaluate d env = .ok v := by
  rw [Expr.evaluate, hl, hr]
  simp only [Except.ok_bind]
  rcases hop with hop | hop | hop
  · cases hop <;> simp [BinaryOp.apply, ha, hb, hv]
  · cases hop <;> simp [BinaryOp.apply, ha, hb, hv]
  · obtain ⟨⟨p, rfl⟩, r, rfl⟩ := hjunction hop
    rw [← hv]
    cases hop <;> cases p <;> rfl

/-- The operator applied to what was made represents the operator applied to what was given. -/
theorem operate {op : BinaryOp} {a' b' v' : Value} (ha : Represents d env a a')
    (hb : Represents d env b b') (hop : op.IsArithmetic ∨ op.IsComparison ∨ op.IsJunction)
    (ha' : a'.isNull = false) (hb' : b'.isNull = false)
    (hjunction : op.IsJunction → (∃ p, a' = .bool p) ∧ ∃ p, b' = .bool p)
    (hv : a.operate d.catalog op b = .ok v) (hv' : a'.operate d.catalog op b' = .ok v') :
    Represents d env v v' := by
  cases ha with
  | expr he =>
    cases hv
    exact .expr (binary hop he hb.lift ha' hb' hjunction hv')
  | literal ha =>
    cases hb with
    | literal hb =>
      rw [hv] at hv'
      cases hv'
      rw [ha.operate hb] at hv
      exact .literal (ha.operatePlain hb hop hv)
    | expr he =>
      have hliteral : (Expr.literal a).evaluate d env = .ok a := rfl
      rw [ha.operate_expr] at hv
      rcases hop with harith | hcompare | hjoin
      · rw [Value.operateReflected_arithmetic harith] at hv
        cases hv
        exact .expr (binary (.inl harith) hliteral he ha' hb' hjunction hv')
      · rw [Value.operateReflected_comparison hcompare] at hv
        rw [ha.mirror hcompare] at hv'
        cases hv
        have hmirror : ¬ op.mirror.IsJunction := by cases hcompare <;> rintro ⟨⟩
        exact .expr (binary (.inr (.inl hcompare.mirror)) he hliteral hb' ha'
          (fun h => absurd h hmirror) hv')
      · rw [Value.operateReflected_junction hjoin] at hv
        cases hv

end Represents

/-! ### Steps of a run -/

section

variable {d : Directory} {env : Env} {w : Value}

theorem Term.run_var (param : String) (v : Value) :
    ((Term.var param).run d [(param, v)]).result = .ok v := by
  simp [Term.run, Env.value, Outcome.ofExcept]

theorem Term.run_get {x : Term} {name : String} :
    ((Term.get x name).run d env).result = .ok w ↔ ∃ v, (x.run d env).result = .ok v ∧
      (do return (← Member.of d v name).toValue : Outcome Value).result = .ok w := by
  rw [Term.run, Outcome.result_bind_eq_ok]

theorem Term.run_binary {op : BinaryOp} {l r : Term} :
    ((Term.binary op l r).run d env).result = .ok w ↔ ∃ a b, (l.run d env).result = .ok a ∧
      (r.run d env).result = .ok b ∧ a.operate d.catalog op b = .ok w := by
  simp only [Term.run, Outcome.result_bind_eq_ok]
  constructor
  · rintro ⟨a, ha, b, hb, hw⟩
    exact ⟨a, b, ha, hb, hw⟩
  · rintro ⟨a, b, ha, hb, hw⟩
    exact ⟨a, ha, b, hb, hw⟩

theorem Term.run_call {x : Term} {name : String} {args : List Term}
    {named : List (String × Term)} :
    ((Term.call x name args named).run d env).result = .ok w ↔ ∃ v m vs ns,
      (x.run d env).result = .ok v ∧ (Member.of d v name).result = .ok m ∧
      (runAll d env args).result = .ok vs ∧ (runNamed d env named).result = .ok ns ∧
      (m.call d ⟨vs, ns⟩).result = .ok w := by
  simp only [Term.run, Outcome.result_bind_eq_ok]
  constructor
  · rintro ⟨v, hv, m, hm, vs, hvs, ns, hns, hw⟩
    exact ⟨v, m, vs, ns, hv, hm, hvs, hns, hw⟩
  · rintro ⟨v, m, vs, ns, hv, hm, hvs, hns, hw⟩
    exact ⟨v, hv, m, hm, vs, hvs, ns, hns, hw⟩

theorem runAll_cons {t : Term} {ts : List Term} {vs : List Value} :
    (runAll d env (t :: ts)).result = .ok vs ↔ ∃ v rest, (t.run d env).result = .ok v ∧
      (runAll d env ts).result = .ok rest ∧ vs = v :: rest := by
  simp only [runAll, Outcome.result_bind_eq_ok, Outcome.result_pure, Except.ok.injEq]
  constructor
  · rintro ⟨v, hv, rest, hrest, rfl⟩
    exact ⟨v, rest, hv, hrest, rfl⟩
  · rintro ⟨v, rest, hv, hrest, rfl⟩
    exact ⟨v, hv, rest, hrest, rfl⟩

theorem runNamed_cons {n : String} {t : Term} {ts : List (String × Term)}
    {vs : List (String × Value)} :
    (runNamed d env ((n, t) :: ts)).result = .ok vs ↔ ∃ v rest, (t.run d env).result = .ok v ∧
      (runNamed d env ts).result = .ok rest ∧ vs = (n, v) :: rest := by
  simp only [runNamed, Outcome.result_bind_eq_ok, Outcome.result_pure, Except.ok.injEq]
  constructor
  · rintro ⟨v, hv, rest, hrest, rfl⟩
    exact ⟨v, rest, hv, hrest, rfl⟩
  · rintro ⟨v, rest, hv, hrest, rfl⟩
    exact ⟨v, hv, rest, hrest, rfl⟩

/-- A captured method of a value that is not null is called like a method. -/
theorem applyMethod_eq {name : String} {target : Value} {vs : List Value}
    {ns : List (String × Value)} (hname : name ∉ Member.expressionMethods)
    (htarget : target.isNull = false) :
    applyMethod d name target vs (.ok ns) = (Member.invoke d target name ⟨vs, ns⟩).result := by
  unfold applyMethod
  split
  · exact absurd (by decide) hname
  · exact absurd (by decide) hname
  · exact absurd (by decide) hname
  · simp [htarget]

/-- A chain is read one member further. -/
theorem Accessor.readFields_concat {catalog : Catalog} {fields : List Field} {f : Field}
    {v u : Value} (h : readFields catalog fields v = .ok u) (hu : u.isNull = false) :
    readFields catalog (fields ++ [f]) v = f.read catalog u := by
  induction fields generalizing v with
  | nil =>
    cases h
    rw [List.nil_append, readFields, if_neg (by simp [hu])]
    cases f.read catalog u <;> rfl
  | cons g fields ih =>
    rw [readFields] at h
    rw [List.cons_append, readFields]
    by_cases hv : v.isNull = true
    · rw [if_pos hv] at h
      cases h
      cases hu
    · rw [if_neg hv] at h ⊢
      obtain ⟨x, hx, h⟩ := Except.bind_eq_ok.1 h
      rw [hx]
      exact ih h

end

/-! ### The simulation -/

section

variable {d d₀ : Directory} {root : Schema} {q : Param} {row : Value}

/-- A chain makes a captured member, along which the row has the value of the chain. -/
theorem MemberChain.represents (hroot : q.schema = some root) {t : Term} {owner : Schema}
    (ht : MemberChain d₀ q.name root t owner) {v w : Value}
    (hv : (t.run d₀ [(q.name, .proxy q)]).result = .ok v)
    (hw : (t.run d [(q.name, row)]).result = .ok w) (hclean : Clean d [(q.name, row)] t) :
    ∃ fields last, v = .expr (.member q ⟨root, fields ++ [last]⟩) ∧
      owner = d₀.memberSchema last ∧ w.isNull = false ∧
      Accessor.readFields d.catalog (fields ++ [last]) row = .ok w := by
  induction ht generalizing v w with
  | @first name f hf hname =>
    obtain ⟨u, hu, hv⟩ := Term.run_get.1 hv
    cases (Term.run_var _ _).symm.trans hu
    rw [Member.of_proxy hname hf.visible, Outcome.result_bind,
      Member.ofProxy_of_declares hroot hf] at hv
    cases hv
    cases hclean with
    | get hxclean hfrom hread =>
      obtain ⟨u, hu', hw'⟩ := Term.run_get.1 hw
      cases (Term.run_var _ _).symm.trans hu'
      have hattr := Member.of_value (hfrom _ hu') hw'
      refine ⟨[], f, rfl, rfl, hread _ hw, ?_⟩
      rw [Accessor.readFields_concat rfl (Value.isNull_of_readAttr hattr), hf.read_eq, hattr]
  | @next x owner name f hx hf hname ih =>
    cases hclean with
    | get hxclean hfrom hread =>
      obtain ⟨u, hu, hv⟩ := Term.run_get.1 hv
      obtain ⟨u', hu', hw'⟩ := Term.run_get.1 hw
      obtain ⟨fields, last, rfl, rfl, hnull, hfields⟩ := ih hu hu' hxclean
      rw [Member.of_member hname hf.visible] at hv
      obtain ⟨m, hm, hv⟩ := Outcome.result_bind_eq_ok.1 hv
      cases Member.ofMember_of_declares hf hm
      cases hv
      have hattr := Member.of_value (hfrom _ hu') hw'
      refine ⟨fields ++ [last], f, rfl, rfl, hread _ hw, ?_⟩
      rw [Accessor.readFields_concat hfields hnull, hf.read_eq, hattr]

/-- A captured member has the value to which its chain leads. -/
theorem evaluate_member {fields : List Field} {w : Value}
    (h : Accessor.readFields d.catalog fields row = .ok w) :
    (Expr.member q ⟨root, fields⟩).evaluate d [(q.name, row)] = .ok w := by
  simp [Expr.evaluate, Env.value, Accessor.read, h]

/-- A call captured on an expression is the call on its value. -/
theorem evaluate_call {env : Env} {e : Expr} {name : String} {target w : Value} {m : Member}
    {vs vs' : List Value} {ns ns' : List (String × Value)} (he : e.evaluate d env = .ok target)
    (hvs : evaluateArgs d env vs = .ok vs') (hns : evaluateNamed d env ns = .ok ns')
    (hname : name ∉ Member.expressionMethods) (htarget : target.isNull = false)
    (hm : (Member.of d target name).result = .ok m) (hw : (m.call d ⟨vs', ns'⟩).result = .ok w) :
    (Expr.call name vs ns (some e)).evaluate d env = .ok w := by
  rw [Expr.evaluate, he]
  simp only [Except.ok_bind]
  rw [hvs, hns]
  simp only [Except.ok_bind]
  rw [applyMethod_eq hname htarget]
  exact Outcome.result_bind_eq_ok.2 ⟨m, hm, hw⟩

/-- The body is a call. -/
def Term.isCall : Term → Bool
  | .call .. => true
  | _ => false

/-- What the two runs of a body give agree, and what a call makes is a captured call. -/
def Simulated (d₀ d : Directory) (q : Param) (row : Value) (t : Term) : Prop :=
  ∀ {v w : Value}, (t.run d₀ [(q.name, .proxy q)]).result = .ok v →
    (t.run d [(q.name, row)]).result = .ok w → Clean d [(q.name, row)] t →
    Represents d [(q.name, row)] v w ∧
      (t.isCall = true → ∃ m vs ns on, v = .expr (.call m vs ns on))

theorem evaluateArgs_of_simulated {ts : List Term} (h : ∀ t ∈ ts, Simulated d₀ d q row t)
    (hclean : ∀ t ∈ ts, Clean d [(q.name, row)] t) {vs ws : List Value}
    (hvs : (runAll d₀ [(q.name, .proxy q)] ts).result = .ok vs)
    (hws : (runAll d [(q.name, row)] ts).result = .ok ws) :
    evaluateArgs d [(q.name, row)] vs = .ok ws := by
  induction ts generalizing vs ws with
  | nil =>
    cases hvs
    cases hws
    rfl
  | cons t ts ih =>
    rw [List.forall_mem_cons] at h hclean
    obtain ⟨v, vs, hv, hvs', rfl⟩ := runAll_cons.1 hvs
    obtain ⟨w, ws, hw, hws', rfl⟩ := runAll_cons.1 hws
    rw [evaluateArgs, (h.1 hv hw hclean.1).1.evaluateOperand, ih h.2 hclean.2 hvs' hws']
    rfl

theorem evaluateNamed_of_simulated {ts : List (String × Term)}
    (h : ∀ t ∈ ts, Simulated d₀ d q row t.2) (hclean : ∀ t ∈ ts, Clean d [(q.name, row)] t.2)
    {vs ws : List (String × Value)}
    (hvs : (runNamed d₀ [(q.name, .proxy q)] ts).result = .ok vs)
    (hws : (runNamed d [(q.name, row)] ts).result = .ok ws) :
    evaluateNamed d [(q.name, row)] vs = .ok ws := by
  induction ts generalizing vs ws with
  | nil =>
    cases hvs
    cases hws
    rfl
  | cons t ts ih =>
    rw [List.forall_mem_cons] at h hclean
    obtain ⟨v, vs, hv, hvs', rfl⟩ := runNamed_cons.1 hvs
    obtain ⟨w, ws, hw, hws', rfl⟩ := runNamed_cons.1 hws
    rw [evaluateNamed, (h.1 hv hw hclean.1).1.evaluateOperand, ih h.2 hclean.2 hvs' hws']
    rfl

/-- Every kind of body keeps the two runs together. -/
theorem Body.simulated (hcatalog : d₀.catalog = d.catalog) (hroot : q.schema = some root)
    {t : Term} (ht : Body d₀ q.name root t) : Simulated d₀ d q row t := by
  induction ht with
  | literal hv₀ =>
    intro v w hv hw hclean
    cases hv
    cases hw
    exact ⟨.literal hv₀, nofun⟩
  | chain ht =>
    intro v w hv hw hclean
    obtain ⟨fields, last, rfl, -, -, hread⟩ := ht.represents hroot hv hw hclean
    exact ⟨.expr (evaluate_member hread), by cases ht <;> exact nofun⟩
  | binary hop hl hr ihl ihr =>
    intro v w hv hw hclean
    obtain ⟨a, b, ha, hb, hv⟩ := Term.run_binary.1 hv
    obtain ⟨a', b', ha', hb', hw⟩ := Term.run_binary.1 hw
    rw [hcatalog] at hv
    cases hclean with
    | binary hlclean hrclean hleft hright hjunction =>
      refine ⟨.operate (ihl ha ha' hlclean).1 (ihr hb hb' hrclean).1 hop (hleft _ ha')
        (hright _ hb') (fun h => ?_) hv hw, nofun⟩
      exact ⟨(hjunction h).1 _ ha', (hjunction h).2 _ hb'⟩
  | callMember hx howner hname hvisible hargs hnamed ihargs ihnamed =>
    intro v w hv hw hclean
    obtain ⟨u, m, vs, ns, hu, hm, hvs, hns, hv⟩ := Term.run_call.1 hv
    obtain ⟨u', m', vs', ns', hu', hm', hvs', hns', hw⟩ := Term.run_call.1 hw
    cases hclean with
    | call hxclean hreceiver hargsclean hnamedclean =>
      obtain ⟨fields, last, rfl, rfl, hnull, hread⟩ := hx.represents hroot hu hu' hxclean
      -- the receiver has no members, so all that the captured run does is to note the call
      rw [Member.of_member hname hvisible] at hm
      cases Member.ofMember_of_memberless howner hm
      cases hv
      refine ⟨.expr (evaluate_call (evaluate_member hread) ?_ ?_ ?_ hnull hm' hw),
        fun _ => ⟨_, _, _, _, rfl⟩⟩
      · exact evaluateArgs_of_simulated ihargs hargsclean hvs hvs'
      · exact evaluateNamed_of_simulated ihnamed hnamedclean hns hns'
      · exact fun h => hname (List.mem_append_right _ h)
  | callCall hx hname hvisible hargs hnamed ihx ihargs ihnamed =>
    intro v w hv hw hclean
    obtain ⟨u, m, vs, ns, hu, hm, hvs, hns, hv⟩ := Term.run_call.1 hv
    obtain ⟨u', m', vs', ns', hu', hm', hvs', hns', hw⟩ := Term.run_call.1 hw
    cases hclean with
    | call hxclean hreceiver hargsclean hnamedclean =>
      obtain ⟨hrepresents, hcall⟩ := ihx hu hu' hxclean
      obtain ⟨method, as, ks, on, rfl⟩ := hcall rfl
      rw [Member.of_call hname hvisible] at hm
      cases hm
      cases hv
      refine ⟨.expr (evaluate_call hrepresents.lift ?_ ?_ ?_ (hreceiver _ hu') hm' hw),
        fun _ => ⟨_, _, _, _, rfl⟩⟩
      · exact evaluateArgs_of_simulated ihargs hargsclean hvs hvs'
      · exact evaluateNamed_of_simulated ihnamed hnamedclean hns hns'
      · exact fun h => hname (List.mem_append_right _ h)

end

/-! ### Captured lambdas -/

namespace Captured

/-- A captured lambda of one parameter gives what the lambda itself gives, whatever the methods of
values are, as long as they depend on nothing but the receiver and the arguments
(`Directory.callMethod`). The types that were described in between do not matter. -/
theorem call_eq_of_capture {d₀ d : Directory} (hcatalog : d₀.catalog = d.catalog) {f : Lambda}
    {p : LambdaParam} (hparams : f.params = [p]) (hkind : p.kind = .positional) {root : Schema}
    (hbody : Body d₀ p.name root f.body) {c : Captured}
    (hc : (capture d₀ f [some root]).result = .ok c) {row w : Value}
    (hw : (f.call d [row]).result = .ok w) (hclean : Clean d [(p.name, row)] f.body) :
    c.call d [row] = .ok w := by
  have henv : ∀ v, f.environment [v] = .ok [(p.name, v)] := by
    intro v
    simp [Lambda.environment, Lambda.positional, hparams, hkind, Lambda.bindPositional,
      Lambda.bindOthers]
  have hpar : paramsFor f [some root] = [⟨0, p.name, 0, some root⟩] := by
    simp [paramsFor, paramNames, hparams]
  obtain ⟨v, hv, hc⟩ := Outcome.result_bind_eq_ok.1 hc
  obtain ⟨env, henv₀, hv⟩ := Outcome.result_bind_eq_ok.1 hv
  obtain ⟨env', henv', hw⟩ := Outcome.result_bind_eq_ok.1 hw
  rw [hpar] at henv₀ hc
  cases (henv _).symm.trans henv₀
  cases (henv _).symm.trans henv'
  have hsimulated := hbody.simulated (q := ⟨0, p.name, 0, some root⟩) hcatalog rfl hv hw hclean
  cases hsimulated.1 with
  | literal hliteral =>
    -- a plain value is not captured
    cases hliteral <;> cases hc
  | expr he =>
    cases hc
    simpa [call, arity, environment, put] using he

/-- Persons, who have a home, and addresses. -/
private def people : Directory where
  catalog.classes := [
    { name := "Person", kind := .data false false,
      fields := [{ name := "age", type := .builtin .int },
        { name := "home", type := .record "Address" }] },
    { name := "Address", kind := .data false false,
      fields := [{ name := "city", type := .builtin .str }] }]

/-- `(18 <= r.age) & r.home.city.startswith("A")`. -/
private def isAdultInA : Lambda where
  params := [{ name := "r" }]
  body := .binary .and (.binary .le (.constant (.int 18)) (.get (.var "r") "age"))
    (.call (.get (.get (.var "r") "home") "city") "startswith" [.constant (.str "A")] [])

private def ann : Value :=
  .record "Person" 1 [("age", .int 20), ("home", .record "Address" 2 [("city", .str "Aachen")])]

/-- The literal stands on the left of the comparison, and the call on a member of a member. -/
theorem call_adult : ∃ c,
    (capture people isAdultInA [some (people.schemaOf (.record "Person"))]).result = .ok c ∧
    (isAdultInA.call people [ann]).result = .ok (.bool true) ∧
    c.call people [ann] = .ok (.bool true) := by
  have hperson : people.IsDataSchema (people.schemaOf (.record "Person")) := ⟨"Person", rfl, rfl⟩
  have haddress : people.IsDataSchema (people.schemaOf (.record "Address")) := ⟨"Address", rfl, rfl⟩
  have hage : people.Declares (people.schemaOf (.record "Person")) "age"
      { name := "age", type := .builtin .int } := ⟨hperson, rfl, rfl, by decide +kernel⟩
  have hhome : people.Declares (people.schemaOf (.record "Person")) "home"
      { name := "home", type := .record "Address" } := ⟨hperson, rfl, rfl, by decide +kernel⟩
  have hcity : people.Declares (people.schemaOf (.record "Address")) "city"
      { name := "city", type := .builtin .str } := ⟨haddress, rfl, rfl, by decide +kernel⟩
  have hbody : Body people "r" (people.schemaOf (.record "Person")) isAdultInA.body := by
    refine .binary (.inr (.inr .and))
      (.binary (.inr (.inl .le)) (.literal (.int 18)) (.chain (.first hage (by decide))))
      (.callMember (.next (.first hhome (by decide)) hcity (by decide)) rfl (by decide)
        (by decide +kernel) ?_ (by simp))
    simpa using Body.literal (.str "A")
  obtain ⟨c, hc⟩ : ∃ c,
      (capture people isAdultInA [some (people.schemaOf (.record "Person"))]).result = .ok c := by
    have hok : (capture people isAdultInA
        [some (people.schemaOf (.record "Person"))]).result.isOk = true := by decide +kernel
    cases hc : (capture people isAdultInA [some (people.schemaOf (.record "Person"))]).result with
    | ok c => exact ⟨c, rfl⟩
    | error e => rw [hc] at hok; cases hok
  have hrun : (isAdultInA.call people [ann]).result = .ok (.bool true) := rfl
  refine ⟨c, hc, hrun, call_eq_of_capture rfl rfl rfl hbody hc hrun ?_⟩
  have hgetAge : Clean people [("r", ann)] (.get (.var "r") "age") :=
    .get (.var "r") (.of_run rfl rfl) (.of_run rfl rfl)
  have hgetHome : Clean people [("r", ann)] (.get (.var "r") "home") :=
    .get (.var "r") (.of_run rfl rfl) (.of_run rfl rfl)
  have hgetCity : Clean people [("r", ann)] (.get (.get (.var "r") "home") "city") :=
    .get hgetHome (.of_run rfl rfl) (.of_run rfl rfl)
  refine .binary (.binary (.constant _) hgetAge (.of_run rfl rfl) (.of_run rfl rfl) nofun)
    (.call hgetCity (.of_run rfl rfl) ?_ (by simp)) (.of_run rfl rfl) (.of_run rfl rfl)
    fun _ => ⟨.of_run rfl ⟨_, rfl⟩, .of_run rfl ⟨_, rfl⟩⟩
  simpa using Clean.constant (.str "A")

end Captured

end RecordQuery
