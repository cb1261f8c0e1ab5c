import RecordQuery.Capture
import RecordQuery.Proofs.ScopedRecords

/-!
# Runs within a scope

What a lambda body reaches by name, calls and computes from values within a scope is within it again
(`Term.yields_run`). So the body of a captured lambda is over the parameters that it was captured
with, and each member chain in it leads along members of its parameter's record
(`Captured.within_of_capture`).
-/

namespace RecordQuery

namespace Schema.Reaches

variable {d : Directory} {s : Schema} {fields : List Field} {f last : Field}

theorem getLastD_eq (h : s.Reaches d fields last) : fields.getLastD default = last := by
  induction h with
  | last => rfl
  | @step s f last fields hf hreadable h ih =>
    cases fields with
    | nil => cases h
    | cons g fields => exact ih

/-- One member more. -/
theorem concat (h : s.Reaches d fields last) (hf : f ∈ (d.memberSchema last).fields)
    (hreadable : f.readable = true) : s.Reaches d (fields ++ [f]) f := by
  induction h with
  | last hlast hlast' => exact .step hlast hlast' (.last hf hreadable)
  | step hfirst hfirst' h ih => exact .step hfirst hfirst' (ih hf)

end Schema.Reaches

namespace Outcome.Yields

variable {α β : Type} {P : α → Prop} {Q : β → Prop} {x : Outcome α} {f : α → Outcome β}

theorem pure {a : α} (h : P a) : Outcome.Yields P (pure a) :=
  .ok h

theorem throw (e : Error) : Outcome.Yields P (throw e) :=
  .error e

theorem lift {x : Except Error α} (h : RecordQuery.Yields P x) : Outcome.Yields P (liftM x) :=
  h

theorem bind (hx : Outcome.Yields P x) (hf : ∀ a, P a → Outcome.Yields Q (f a)) :
    Outcome.Yields Q (x >>= f) := by
  rw [Outcome.Yields, result_bind]
  exact RecordQuery.Yields.bind hx hf

/-- A step whose value does not matter. -/
theorem step (hf : ∀ a, Outcome.Yields Q (f a)) : Outcome.Yields Q (x >>= f) :=
  bind (P := fun _ => True) (fun _ _ => trivial) fun a _ => hf a

end Outcome.Yields

/-- The methods of values give nothing that was captured elsewhere: what they make of a receiver and
arguments within a scope is within it. -/
def Directory.MethodsWithin (d : Directory) (params : List Param) : Prop :=
  ∀ {v : Value} {name : String} {args : Arguments}, v.Within d params → args.Within d params →
    Yields (Value.Within d params) (d.callMethod d.catalog v name args)

/-! ### What names reach -/

namespace Member

variable {d : Directory} {params : List Param} {v : Value} {e : Expr} {m : Member} {p : Param}
  {name : String} {args : Arguments}

/-- What a name reaches is within the scope. -/
def Within (d : Directory) (params : List Param) : Member → Prop
  | .value v => v.Within d params
  | .method receiver _ => receiver.Within d params
  | .captured _ e => e.Within d params

theorem Within.toValue (h : m.Within d params) : m.toValue.Within d params := by
  cases m with
  | value v => exact h
  | method receiver name => exact .method h
  | captured name e => exact .flat rfl

/-- A member that is looked up can be read. -/
theorem yields_lookup (s : Schema) (name : String) :
    Outcome.Yields (fun found => ∀ f, found = some f → f ∈ s.fields ∧ f.readable = true)
      (s.lookup name) := by
  refine .ok fun f hf => ?_
  obtain ⟨hmem, hreadable, -⟩ := Schema.mem_of_mem_candidates (List.mem_of_head? hf)
  exact ⟨hmem, hreadable⟩

theorem yields_ofProxy (hp : p ∈ params) :
    Outcome.Yields (Member.Within d params) (ofProxy p name) := by
  refine .bind (yields_lookup p.recordSchema name) fun found hfound => ?_
  cases found with
  | some f =>
    obtain ⟨hf, hreadable⟩ := hfound f rfl
    exact .pure (.expr (.member hp (.last hf hreadable)))
  | none => exact .throw _

theorem yields_ofMember {a : Accessor} (h : (Expr.member p a).Within d params) :
    Outcome.Yields (Member.Within d params) (ofMember d p a name) := by
  cases h with
  | member hp ha =>
    have howner : Outcome.Yields (fun owner => owner = d.memberSchema (a.fields.getLastD default))
        (d.enter (a.fields.getLastD default)) := fun owner h => Directory.eq_of_enter h
    refine howner.bind fun owner howner => .bind (yields_lookup owner name) fun found hfound => ?_
    cases found with
    | some f =>
      obtain ⟨hf, hreadable⟩ := hfound f rfl
      rw [howner, ha.getLastD_eq] at hf
      exact .pure (.expr (.member hp (ha.concat hf hreadable)))
    | none =>
      dsimp only
      split
      · exact .pure (.member hp ha)
      · exact .throw _

/-- The attributes that an expression has of its own. -/
theorem within_ownAttr? (h : e.Within d params) (hv : ownAttr? e name = some v) :
    v.Within d params := by
  unfold ownAttr? at hv
  split at hv
  case h_18 => cases hv
  all_goals obtain rfl := Option.some.inj hv
  case h_1 | h_2 | h_5 | h_8 | h_9 | h_12 | h_14 => exact .flat rfl
  case h_3 p => cases p.schema <;> exact .flat rfl
  case h_6 => exact .tuple (List.forall_mem_map.2 fun _ _ => .flat rfl)
  all_goals cases h
  case h_4.member hp ha => exact .expr (.param hp)
  case h_7.literal h => exact h
  case h_10.binary hop hl hr => exact .expr hl
  case h_11.binary hop hl hr => exact .expr hr
  case h_13.not h => exact .expr h
  case h_15.call hargs hnamed hon => exact .tuple hargs
  case h_16.call hargs hnamed hon =>
    exact .dict (List.forall_mem_map.2 fun _ _ => .flat rfl) (List.forall_mem_map.2 hnamed)
  case h_17.call on hargs hnamed hon =>
    cases on with
    | none => exact .flat rfl
    | some e => exact .expr (hon e rfl)

theorem yields_ofExpr (h : e.Within d params) :
    Outcome.Yields (Member.Within d params) (ofExpr d e name) := by
  unfold ofExpr
  split
  · exact .pure (within_ownAttr? h ‹_›)
  · split
    · exact .pure (.expr h)
    · split
      · split
        · exact .throw _
        · exact yields_ofMember h
      · split
        · exact .throw _
        · exact .pure h
      · exact .throw _

theorem yields_of (hcatalog : d.catalog.Within d params) (h : v.Within d params) (name : String) :
    Outcome.Yields (Member.Within d params) (of d v name) := by
  unfold of
  split
  · exact yields_ofExpr h.of_expr
  · have hp := h.of_proxy
    split
    · exact .pure (.proxy hp)
    · exact .pure (.flat rfl)
    · exact .pure (.expr (.param hp))
    · split
      · exact .throw _
      · exact yields_ofProxy hp
  · refine .bind (.lift (Value.yields_readAttr hcatalog h name)) fun w hw => ?_
    split
    · exact .pure hw.of_method
    · exact .pure hw

end Member

/-! ### Serialized forms -/

section Serialization

variable {d : Directory} {params : List Param}

theorem within_node {kind : String} {entries : List (String × Value)}
    (h : ∀ e ∈ entries, e.2.Within d params) : (node kind entries).Within d params :=
  .dict (List.forall_mem_map.2 fun _ _ => .flat rfl)
    (List.forall_mem_map.2 (List.forall_mem_cons.2 ⟨.flat rfl, h⟩))

theorem within_serializeLiteral {v : Value} (h : v.Within d params) :
    (serializeLiteral v).Within d params :=
  within_node (List.forall_mem_cons.2 ⟨h, List.forall_mem_singleton.2 (.flat rfl)⟩)

theorem within_nodeCall {method : String} {args : List Value} {named : List (Value × Value)}
    {on : Value} (hargs : ∀ v ∈ args, v.Within d params)
    (hnamed : (Value.dict named).Within d params) (hon : on.Within d params) :
    (node "Call" [("func", .str method), ("args", .list args), ("kwargs", .dict named),
      ("on", on)]).Within d params :=
  within_node (List.forall_mem_cons.2 ⟨.flat rfl, List.forall_mem_cons.2 ⟨.list hargs,
    List.forall_mem_cons.2 ⟨hnamed, List.forall_mem_singleton.2 hon⟩⟩⟩)

mutual

/-- The serialized form of an expression holds the values of its literals and nothing captured. -/
theorem Expr.within_serialize : ∀ e : Expr, e.Within d params → e.serialize.Within d params
  | .literal v, h => by
    cases h with
    | literal h => exact within_serializeLiteral h
  | .param p, _ => within_node (List.forall_mem_singleton.2 (.flat rfl))
  | .member p a, _ => within_node (List.forall_mem_cons.2 ⟨.flat rfl,
      List.forall_mem_singleton.2 (.list (List.forall_mem_map.2 fun _ _ => .flat rfl))⟩)
  | .binary op l r, h => by
    cases h with
    | binary hop hl hr =>
      exact within_node (List.forall_mem_cons.2 ⟨.flat rfl, List.forall_mem_cons.2
        ⟨l.within_serialize hl, List.forall_mem_singleton.2 (r.within_serialize hr)⟩⟩)
  | .unary op e, h => by
    cases h with
    | not h =>
      exact within_node (List.forall_mem_cons.2 ⟨.flat rfl,
        List.forall_mem_singleton.2 (e.within_serialize h)⟩)
  | .call method args named none, h => by
    cases h with
    | call hargs hnamed hon =>
      exact within_nodeCall (within_serializeArgs args hargs) (within_serializeNamed named hnamed)
        (.flat rfl)
  | .call method args named (some e), h => by
    cases h with
    | call hargs hnamed hon =>
      exact within_nodeCall (within_serializeArgs args hargs) (within_serializeNamed named hnamed)
        (e.within_serialize (hon e rfl))

theorem Value.within_serializeOperand (v : Value) (h : v.Within d params) :
    v.serializeOperand.Within d params := by
  cases v with
  | expr e => exact e.within_serialize h.of_expr
  | _ => exact within_serializeLiteral h

theorem within_serializeArgs : ∀ vs : List Value, (∀ v ∈ vs, v.Within d params) →
    ∀ w ∈ serializeArgs vs, w.Within d params
  | [], _ => List.forall_mem_nil _
  | v :: vs, h => by
    rw [List.forall_mem_cons] at h
    exact List.forall_mem_cons.2 ⟨v.within_serializeOperand h.1, within_serializeArgs vs h.2⟩

theorem within_serializeNamed : ∀ named : List (String × Value),
    (∀ e ∈ named, e.2.Within d params) → (Value.dict (serializeNamed named)).Within d params
  | [], _ => .dict (List.forall_mem_nil _) (List.forall_mem_nil _)
  | (n, v) :: named, h => by
    rw [List.forall_mem_cons] at h
    obtain ⟨hkeys, hvalues⟩ := (within_serializeNamed named h.2).of_dict
    exact .dict (List.forall_mem_cons.2 ⟨.flat rfl, hkeys⟩)
      (List.forall_mem_cons.2 ⟨v.within_serializeOperand h.1, hvalues⟩)

end

end Serialization

namespace Member

variable {d : Directory} {params : List Param} {v : Value} {e : Expr} {args : Arguments}

/-- Only operators that evaluation knows are methods of expressions. -/
theorem isKnown_of_operatorMethods {name : String} {op : BinaryOp} {reflected : Bool}
    (h : operatorMethods.lookup name = some (op, reflected)) : op.IsKnown := by
  have hknown : ∀ e ∈ operatorMethods, e.2.1.IsKnown := by
    simp [operatorMethods, BinaryOp.IsKnown]
  exact hknown _ (mem_of_lookup_eq_some h)

theorem yields_callExpression (h : e.Within d params) (hargs : args.Within d params)
    (name : String) : Yields (Value.Within d params) (callExpression e name args) := by
  have hcall {method : String} {vs : List Value} (hvs : ∀ v ∈ vs, v.Within d params) :
      (Value.expr (.call method vs [] (some e))).Within d params :=
    .expr (.call hvs (List.forall_mem_nil _) fun _ he => Option.some.inj he ▸ h)
  unfold callExpression
  split
  · exact .step fun _ => .ok (e.within_serialize h)
  · exact .step fun _ => .ok (hcall (List.forall_mem_nil _))
  · exact .step fun _ => .ok (hcall (List.forall_mem_nil _))
  · refine (Value.yields_take hargs _ _ _).bind fun a ha => ?_
    split
    · exact .error _
    · exact .error _
    · refine (Value.yields_iterate (Value.within_argument ha ‹_›)).bind fun items hitems => .ok ?_
      exact hcall (List.forall_mem_map.2 fun w hw => .expr (hitems w hw).lift)
  · refine (Value.yields_take hargs _ _ _).bind fun a ha => ?_
    split
    · have hlow := (Value.within_argument ha ‹Value.argument a 0 = some _›).lift
      have hhigh := (Value.within_argument ha ‹Value.argument a 1 = some _›).lift
      exact .ok (.expr (.binary nofun (.binary nofun h hlow) (.binary nofun h hhigh)))
    · exact .error _
  · exact .step fun _ => .ok (.expr (.not h))
  · -- the operators by name, with the expression on the left or on the right, and `_coerce`
    refine (Value.yields_take hargs _ _ _).bind fun a ha => ?_
    split
    · have hop := isKnown_of_operatorMethods ‹operatorMethods.lookup _ = some _›
      exact .ok (.expr (.binary hop h (Value.within_argument ha ‹_›).lift))
    · have hop := isKnown_of_operatorMethods ‹operatorMethods.lookup _ = some _›
      exact .ok (.expr (.binary hop (Value.within_argument ha ‹_›).lift h))
    · exact .ok (.expr (Value.within_argument ha ‹_›).lift)
    · exact .error _

/-! ### Calls -/

theorem yields_readField (hcatalog : d.catalog.Within d params) (f : Field)
    (h : v.Within d params) : Outcome.Yields (Value.Within d params) (readField d f v) := by
  unfold readField
  split
  case h_1 | h_2 => exact (yields_of hcatalog h f.name).bind fun m hm => .pure hm.toValue
  case h_3 | h_4 =>
    -- an item of a row or of an expression is a captured `get`
    refine (yields_of hcatalog h "get").bind fun m hm => ?_
    cases m with
    | captured method on =>
      exact .pure (.expr (.call (List.forall_mem_singleton.2 (.flat rfl)) (List.forall_mem_nil _)
        fun _ he => Option.some.inj he ▸ hm))
    | value w => exact .throw _
    | method receiver name => exact .throw _
  case h_5 => exact .lift (Value.yields_read hcatalog h f)

theorem yields_follow (hcatalog : d.catalog.Within d params) (fields : List Field)
    (h : v.Within d params) : Outcome.Yields (Value.Within d params) (follow d fields v) := by
  induction fields generalizing v with
  | nil => exact .pure h
  | cons f fields ih =>
    unfold follow
    split
    · exact .pure (.flat rfl)
    · exact (yields_readField hcatalog f h).bind fun w hw => ih hw

/-- Schemas answer with members, names and truth values, and make records of what they are given. -/
theorem yields_callSchema (hcatalog : d.catalog.Within d params) (s : Schema) (name : String)
    (hargs : args.Within d params) :
    Outcome.Yields (Value.Within d params) (callSchema d s name args) := by
  have hfield (found : Option Field) :
      ((found.map Value.field).getD .null).Within d params := by
    cases found <;> exact .flat rfl
  unfold callSchema
  dsimp only
  split
  · exact .step fun _ => .pure (.list (List.forall_mem_map.2 fun _ _ => .flat rfl))
  · refine .step fun w => .step fun _ => ?_
    split
    · exact .pure (hfield _)
    · exact .pure (.flat rfl)
  · exact .step fun w => .step fun _ => .pure (.list (List.forall_mem_map.2 fun _ _ => .flat rfl))
  · refine .step fun w => .step fun _ => ?_
    split
    · exact .step fun _ => .pure (hfield _)
    · exact .pure (.flat rfl)
  · refine .step fun w => ?_
    split <;> exact .pure (.flat rfl)
  · split
    · exact .lift (Schema.yields_new hcatalog hargs.named)
    · exact .throw _

theorem yields_callField (hcatalog : d.catalog.Within d params) (f : Field) (name : String)
    (hargs : args.Within d params) :
    Outcome.Yields (Value.Within d params) (callField d f name args) := by
  unfold callField
  split
  · exact .step fun _ => .step fun _ => .pure (.flat rfl)
  · refine .bind (.lift (Value.yields_take hargs _ _ _)) fun taken htaken => ?_
    split
    · exact yields_readField hcatalog f (htaken _ (.head _))
    · exact .throw _
  · refine .step fun _ => ?_
    split
    · exact .step fun _ => .pure (.flat rfl)
    · exact .throw _

theorem within_blank (b : Builtin) : (blank b).Within d params := by
  cases b with
  | list => exact .list (List.forall_mem_nil _)
  | tuple => exact .tuple (List.forall_mem_nil _)
  | dict => exact .dict (List.forall_mem_nil _) (List.forall_mem_nil _)
  | _ => exact .flat rfl

theorem yields_callType {catalog : Catalog} (hcatalog : catalog.Within d params) (t : TypeExpr)
    (hargs : args.Within d params) : Yields (Value.Within d params) (callType catalog t args) := by
  unfold callType
  split
  · exact .ok (within_blank _)
  · exact Value.yields_toBuiltin (hargs.positional _ (.head _)) _
  · exact Catalog.yields_construct hcatalog hargs.positional hargs.named
  · exact .error _

/-- Calling what a name reaches. -/
theorem yields_call (hcatalog : d.catalog.Within d params) (hmethods : d.MethodsWithin params)
    {m : Member} (h : m.Within d params) (hargs : args.Within d params) :
    Outcome.Yields (Value.Within d params) (m.call d args) := by
  cases m with
  | captured method on =>
    exact .pure (.expr (.call hargs.positional hargs.named fun _ he => Option.some.inj he ▸ h))
  | method receiver name =>
    cases receiver with
    | expr e => exact .lift (yields_callExpression (Value.Within.of_expr h) hargs name)
    | proxy p => exact .step fun _ => .pure (.flat rfl)
    | schema s => exact yields_callSchema hcatalog s name hargs
    | field f => exact yields_callField hcatalog f name hargs
    | _ => exact .lift (hmethods h hargs)
  | value w =>
    cases w with
    | accessor a =>
      refine .bind (.lift (Value.yields_take hargs _ _ _)) fun taken htaken => ?_
      split
      · exact yields_follow hcatalog a.fields (htaken _ (.head _))
      · exact .throw _
    | type t => exact .lift (yields_callType hcatalog t hargs)
    | _ => exact .throw _

end Member

/-! ### Runs -/

section Runs

variable {d : Directory} {params : List Param} {env : Env}

theorem yields_itemOf {v : Value} (h : v.Within d params) (key : Value) :
    Outcome.Yields (Value.Within d params) (itemOf d v key) := by
  unfold itemOf
  split
  · exact (Member.yields_ofProxy h.of_proxy).bind fun m hm => .pure hm.toValue
  · exact .step fun _ => .step fun _ => .throw _
  · exact .lift (Value.yields_item h)

theorem yields_value (henv : ∀ e ∈ env, e.2.Within d params) (name : String) :
    Yields (Value.Within d params) (Env.value env name) := by
  unfold Env.value
  split
  · exact .ok (henv _ (mem_of_lookup_eq_some ‹_›))
  · exact .error _

/-- All constants of a lambda body are within the scope, and its operators are known ones. -/
inductive Term.Within (d : Directory) (params : List Param) : Term → Prop
  | constant {v : Value} (h : v.Within d params) : Term.Within d params (.constant v)
  | var (name : String) : Term.Within d params (.var name)
  | get {x : Term} {name : String} (h : Term.Within d params x) : Term.Within d params (.get x name)
  | item {x : Term} {key : Value} (h : Term.Within d params x) : Term.Within d params (.item x key)
  | call {x : Term} {name : String} {args : List Term} {named : List (String × Term)}
    (h : Term.Within d params x) (hargs : ∀ t ∈ args, Term.Within d params t)
    (hnamed : ∀ e ∈ named, Term.Within d params e.2) :
    Term.Within d params (.call x name args named)
  | binary {op : BinaryOp} {l r : Term} (hop : op.IsKnown) (hl : Term.Within d params l)
    (hr : Term.Within d params r) : Term.Within d params (.binary op l r)
  | invert {x : Term} (h : Term.Within d params x) : Term.Within d params (.invert x)
  | not {x : Term} (h : Term.Within d params x) : Term.Within d params (.not x)
  | and {l r : Term} (hl : Term.Within d params l) (hr : Term.Within d params r) :
    Term.Within d params (.and l r)
  | or {l r : Term} (hl : Term.Within d params l) (hr : Term.Within d params r) :
    Term.Within d params (.or l r)
  | list {items : List Term} (h : ∀ t ∈ items, Term.Within d params t) :
    Term.Within d params (.list items)
  | raise : Term.Within d params .raise

theorem yields_runAll {ts : List Term}
    (h : ∀ t ∈ ts, Outcome.Yields (Value.Within d params) (t.run d env)) :
    Outcome.Yields (fun vs => ∀ v ∈ vs, v.Within d params) (runAll d env ts) := by
  induction ts with
  | nil => exact .pure (List.forall_mem_nil _)
  | cons t ts ih =>
    rw [List.forall_mem_cons] at h
    exact h.1.bind fun v hv => (ih h.2).bind fun vs hvs => .pure (List.forall_mem_cons.2 ⟨hv, hvs⟩)

theorem yields_runNamed {ts : List (String × Term)}
    (h : ∀ e ∈ ts, Outcome.Yields (Value.Within d params) (e.2.run d env)) :
    Outcome.Yields (fun named => ∀ e ∈ named, e.2.Within d params) (runNamed d env ts) := by
  induction ts with
  | nil => exact .pure (List.forall_mem_nil _)
  | cons t ts ih =>
    obtain ⟨n, t⟩ := t
    rw [List.forall_mem_cons] at h
    exact h.1.bind fun v hv => (ih h.2).bind fun vs hvs => .pure (List.forall_mem_cons.2 ⟨hv, hvs⟩)

/-- A lambda body over values within the scope has a value within the scope. -/
theorem Term.Within.yields_run (hcatalog : d.catalog.Within d params)
    (hmethods : d.MethodsWithin params) (henv : ∀ e ∈ env, e.2.Within d params) {t : Term}
    (h : t.Within d params) :
    Outcome.Yields (Value.Within d params) (t.run d env) := by
  induction h with
  | constant h => exact .pure h
  | var name => exact .lift (yields_value henv name)
  | get _ ih =>
    rw [Term.run]
    exact ih.bind fun v hv => (Member.yields_of hcatalog hv _).bind fun m hm => .pure hm.toValue
  | item _ ih =>
    rw [Term.run]
    exact ih.bind fun v hv => yields_itemOf hv _
  | call _ _ _ ih ihargs ihnamed =>
    rw [Term.run]
    refine ih.bind fun v hv => (Member.yields_of hcatalog hv _).bind fun m hm => ?_
    refine (yields_runAll ihargs).bind fun positional hpositional => ?_
    refine (yields_runNamed ihnamed).bind fun named hnamed => ?_
    exact Member.yields_call hcatalog hmethods hm ⟨hpositional, hnamed⟩
  | binary hop _ _ ihl ihr =>
    rw [Term.run]
    exact ihl.bind fun a ha => ihr.bind fun b hb => .lift (Value.yields_operate hop ha hb)
  | invert _ ih =>
    rw [Term.run]
    exact ih.bind fun v hv => .lift (Value.yields_invert hv)
  | not _ ih =>
    rw [Term.run]
    exact .step fun v => .step fun _ => .pure (.flat rfl)
  | and _ _ ihl ihr =>
    rw [Term.run]
    refine ihl.bind fun a ha => .step fun truth => ?_
    split
    · exact ihr
    · exact .pure ha
  | or _ _ ihl ihr =>
    rw [Term.run]
    refine ihl.bind fun a ha => .step fun truth => ?_
    split
    · exact .pure ha
    · exact ihr
  | list _ ih =>
    rw [Term.run]
    exact (yields_runAll ih).bind fun vs hvs => .pure (.list hvs)
  | raise =>
    rw [Term.run]
    exact .throw _

end Runs

/-! ### Captures -/

namespace Lambda

variable {d : Directory} {params : List Param} {f : Lambda} {args extra : List Value}

/-- All constants and defaults of a lambda are within the scope, and its operators are known
ones. -/
structure Within (d : Directory) (params : List Param) (f : Lambda) : Prop where
  body : f.body.Within d params
  defaults : ∀ p ∈ f.params, ∀ v, p.default = some v → v.Within d params

theorem yields_bindPositional {ps : List LambdaParam}
    (hdefaults : ∀ p ∈ ps, ∀ v, p.default = some v → v.Within d params)
    (hargs : ∀ v ∈ args, v.Within d params) :
    Yields (fun env => ∀ e ∈ env, e.2.Within d params) (bindPositional ps args) := by
  induction ps generalizing args with
  | nil => exact .ok (List.forall_mem_nil _)
  | cons p ps ih =>
    rw [List.forall_mem_cons] at hdefaults
    cases args with
    | cons v vs =>
      rw [List.forall_mem_cons] at hargs
      exact (ih hdefaults.2 hargs.2).bind fun env henv =>
        .ok (List.forall_mem_cons.2 ⟨hargs.1, henv⟩)
    | nil =>
      unfold bindPositional
      split
      · refine (ih hdefaults.2 hargs).bind fun env henv => .ok (List.forall_mem_cons.2 ⟨?_, henv⟩)
        exact hdefaults.1 _ ‹_›
      · exact .error _

theorem yields_bindOthers {ps : List LambdaParam}
    (hdefaults : ∀ p ∈ ps, ∀ v, p.default = some v → v.Within d params)
    (hextra : ∀ v ∈ extra, v.Within d params) :
    Yields (fun env => ∀ e ∈ env, e.2.Within d params) (bindOthers ps extra) := by
  intro env henv e he
  obtain ⟨p, hp, hbound⟩ := Except.exists_of_mem_mapM henv he
  split at hbound
  · cases hbound
    exact .tuple hextra
  · cases hbound
    exact hdefaults p hp _ ‹_›
  · cases hbound

theorem Within.yields_environment (h : f.Within d params) (hargs : ∀ v ∈ args, v.Within d params) :
    Yields (fun env => ∀ e ∈ env, e.2.Within d params) (f.environment args) := by
  have hdefaults (keep : LambdaParam → Bool) :
      ∀ p ∈ f.params.filter keep, ∀ v, p.default = some v → v.Within d params :=
    fun p hp => h.defaults p (List.mem_filter.1 hp).1
  have hextra : ∀ v ∈ args.drop f.positional.length, v.Within d params :=
    fun v hv => hargs v (List.mem_of_mem_drop hv)
  unfold environment
  dsimp only
  split
  · exact .error _
  · exact (yields_bindPositional (hdefaults _) hargs).bind fun env henv =>
      (yields_bindOthers (hdefaults _) hextra).bind fun env' henv' =>
        .ok (List.forall_mem_append.2 ⟨henv, henv'⟩)

/-- Calling a lambda with values within the scope. -/
theorem Within.yields_call (hcatalog : d.catalog.Within d params)
    (hmethods : d.MethodsWithin params) (h : f.Within d params)
    (hargs : ∀ v ∈ args, v.Within d params) :
    Outcome.Yields (Value.Within d params) (f.call d args) :=
  .bind (.lift (h.yields_environment hargs)) fun _ henv => h.body.yields_run hcatalog hmethods henv

end Lambda

namespace Captured

variable {d : Directory} {f : Lambda} {schemas : List (Option Schema)} {c : Captured}

theorem within_standIn {params : List Param} {p : Param} (hp : p ∈ params) :
    (standIn p).Within d params := by
  unfold standIn
  split
  · exact .proxy hp
  · exact .expr (.param hp)

/-- **What is captured.** The body of a captured lambda is over the parameters that it was captured
with, and each member chain in it leads along members of its parameter's record. -/
theorem within_of_capture (hcatalog : d.catalog.Within d (paramsFor f schemas))
    (hmethods : d.MethodsWithin (paramsFor f schemas)) (hf : f.Within d (paramsFor f schemas))
    (h : (capture d f schemas).result = .ok c) :
    c.params = paramsFor f schemas ∧ c.body.Within d c.params := by
  unfold capture at h
  obtain ⟨v, hv, h⟩ := Outcome.result_bind_eq_ok.1 h
  have hwithin := hf.yields_call hcatalog hmethods
    (List.forall_mem_map.2 fun p hp => within_standIn hp) v hv
  split at h
  · cases h
    exact ⟨rfl, hwithin.of_expr⟩
  · cases h

end Captured

end RecordQuery
