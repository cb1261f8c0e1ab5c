import RecordQuery.Lambda.Member
import RecordQuery.Proofs.ColumnProjection
import RecordQuery.Proofs.NullSafety
import RecordQuery.Proofs.PlainData

/-!
# The scope of captured expressions

While a lambda body runs on stand-ins for its arguments, expressions are captured, kept in lists and
records, taken out again and passed on. `Value.Within d params` says of a value that all that is
captured in it is over the given parameters: a row is one of them, and a member chain leads along
members of its parameter's record. No operation on values gets anything else out of values that are
within the scope.
-/

namespace RecordQuery

/-! ### Scopes -/

/-- The operator is one that evaluation knows. -/
def BinaryOp.IsKnown (op : BinaryOp) : Prop :=
  ∀ name, op ≠ .other name

/-- The value is not made of others and is nothing captured. -/
def Value.isFlat : Value → Bool
  | .list _ | .tuple _ | .dict _ | .record .. | .expr _ | .proxy _ | .method .. => false
  | _ => true

mutual

/-- What is captured in the value is over the parameters. -/
inductive Value.Within (d : Directory) (params : List Param) : Value → Prop
  | flat {v : Value} (h : v.isFlat = true) : Value.Within d params v
  | list {items : List Value} (h : ∀ v ∈ items, Value.Within d params v) :
    Value.Within d params (.list items)
  | tuple {items : List Value} (h : ∀ v ∈ items, Value.Within d params v) :
    Value.Within d params (.tuple items)
  | dict {entries : List (Value × Value)} (hkeys : ∀ e ∈ entries, Value.Within d params e.1)
    (hvalues : ∀ e ∈ entries, Value.Within d params e.2) : Value.Within d params (.dict entries)
  | record {cls : String} {serial : Nat} {attrs : List (String × Value)}
    (h : ∀ e ∈ attrs, Value.Within d params e.2) : Value.Within d params (.record cls serial attrs)
  | expr {e : Expr} (h : Expr.Within d params e) : Value.Within d params (.expr e)
  | proxy {p : Param} (hp : p ∈ params) : Value.Within d params (.proxy p)
  | method {receiver : Value} {name : String} (h : Value.Within d params receiver) :
    Value.Within d params (.method receiver name)

/-- The expression is over the parameters, and its member chains lead along members of their
records. -/
inductive Expr.Within (d : Directory) (params : List Param) : Expr → Prop
  | literal {v : Value} (h : Value.Within d params v) : Expr.Within d params (.literal v)
  | param {p : Param} (hp : p ∈ params) : Expr.Within d params (.param p)
  | member {p : Param} {a : Accessor} {last : Field} (hp : p ∈ params)
    (ha : p.recordSchema.Reaches d a.fields last) : Expr.Within d params (.member p a)
  | binary {op : BinaryOp} {l r : Expr} (hop : op.IsKnown) (hl : Expr.Within d params l)
    (hr : Expr.Within d params r) : Expr.Within d params (.binary op l r)
  | not {e : Expr} (h : Expr.Within d params e) : Expr.Within d params (.unary .not e)
  | call {method : String} {args : List Value} {named : List (String × Value)} {on : Option Expr}
    (hargs : ∀ v ∈ args, Value.Within d params v)
    (hnamed : ∀ e ∈ named, Value.Within d params e.2)
    (hon : ∀ e, on = some e → Expr.Within d params e) :
    Expr.Within d params (.call method args named on)

end

/-- The arguments of a call are within the scope. -/
structure Arguments.Within (d : Directory) (params : List Param) (args : Arguments) : Prop where
  positional : ∀ v ∈ args.positional, v.Within d params
  named : ∀ e ∈ args.named, e.2.Within d params

/-- The values that classes have for their instances are within the scope. -/
structure Catalog.Within (d : Directory) (params : List Param) (catalog : Catalog) : Prop where
  values : ∀ c ∈ catalog.classes, ∀ v ∈ c.values, v.Within d params
  stored : ∀ c ∈ catalog.classes, ∀ made, c.constructor = some made →
    ∀ e ∈ made.stored, e.2.Within d params

theorem mem_of_lookup_eq_some {α : Type} {entries : List (String × α)} {name : String} {a : α}
    (h : entries.lookup name = some a) : (name, a) ∈ entries := by
  obtain ⟨front, back, rfl, -⟩ := List.lookup_eq_some_iff.1 h
  exact List.mem_append_right _ List.mem_cons_self

/-! ### Outcomes -/

/-- If the computation succeeds, its value has the property. -/
def Yields {α : Type} (P : α → Prop) (x : Except Error α) : Prop :=
  ∀ a, x = .ok a → P a

namespace Yields

variable {α β : Type} {P : α → Prop} {Q : β → Prop} {x : Except Error α}
  {f : α → Except Error β}

theorem ok {a : α} (h : P a) : Yields P (.ok a) := by
  rintro _ ⟨⟩
  exact h

theorem error (e : Error) : Yields P (.error e) := nofun

theorem bind (hx : Yields P x) (hf : ∀ a, P a → Yields Q (f a)) : Yields Q (x >>= f) := by
  intro b hb
  obtain ⟨a, ha, hb⟩ := Except.bind_eq_ok.1 hb
  exact hf a (hx a ha) b hb

/-- A step whose value does not matter. -/
theorem step (hf : ∀ a, Yields Q (f a)) : Yields Q (x >>= f) :=
  bind (P := fun _ => True) (fun _ _ => trivial) fun a _ => hf a

end Yields

/-- If the computation succeeds, its value has the property. -/
def Outcome.Yields {α : Type} (P : α → Prop) (x : Outcome α) : Prop :=
  RecordQuery.Yields P x.result

namespace Value

variable {d : Directory} {params : List Param} {catalog : Catalog} {a b v key : Value}
  {items : List Value} {entries : List (Value × Value)} {attrs : List (String × Value)}

/-! ### Parts -/

theorem Within.of_list (h : (Value.list items).Within d params) :
    ∀ v ∈ items, v.Within d params := by
  cases h with
  | list h => exact h
  | flat h => cases h

theorem Within.of_tuple (h : (Value.tuple items).Within d params) :
    ∀ v ∈ items, v.Within d params := by
  cases h with
  | tuple h => exact h
  | flat h => cases h

theorem Within.of_dict (h : (Value.dict entries).Within d params) :
    (∀ e ∈ entries, e.1.Within d params) ∧ ∀ e ∈ entries, e.2.Within d params := by
  cases h with
  | dict hkeys hvalues => exact ⟨hkeys, hvalues⟩
  | flat h => cases h

theorem Within.of_record {cls : String} {serial : Nat}
    (h : (Value.record cls serial attrs).Within d params) : ∀ e ∈ attrs, e.2.Within d params := by
  cases h with
  | record h => exact h
  | flat h => cases h

theorem Within.of_expr {e : Expr} (h : (Value.expr e).Within d params) : e.Within d params := by
  cases h with
  | expr h => exact h
  | flat h => cases h

theorem Within.of_proxy {p : Param} (h : (Value.proxy p).Within d params) : p ∈ params := by
  cases h with
  | proxy hp => exact hp
  | flat h => cases h

theorem Within.of_method {name : String} (h : (Value.method v name).Within d params) :
    v.Within d params := by
  cases h with
  | method h => exact h
  | flat h => cases h

theorem Within.lift (h : v.Within d params) : v.lift.Within d params := by
  cases v with
  | expr e => exact h.of_expr
  | _ => exact .literal h

/-- The items that going through a value yields. -/
theorem yields_iterate (h : v.Within d params) :
    Yields (fun items => ∀ w ∈ items, w.Within d params) v.iterate := by
  intro items hitems
  rw [iterate] at hitems
  cases v with
  | list vs =>
    cases hitems
    exact h.of_list
  | tuple vs =>
    cases hitems
    exact h.of_tuple
  | dict entries =>
    cases hitems
    exact List.forall_mem_map.2 h.of_dict.1
  | str s =>
    cases hitems
    exact List.forall_mem_map.2 fun c _ => .flat rfl
  | bytes bs =>
    cases hitems
    exact List.forall_mem_map.2 fun b _ => .flat rfl
  | schema s =>
    cases hitems
    exact List.forall_mem_map.2 fun f _ => .flat rfl
  | _ => cases hitems

/-! ### Operators -/

theorem yields_add (ha : a.Within d params) (hb : b.Within d params) :
    Yields (Value.Within d params) (a.add b) := by
  unfold add
  split
  · exact .step fun p => by cases p <;> exact .ok (.flat rfl)
  · split
    · exact .ok (.flat rfl)
    · exact .ok (.flat rfl)
    · exact .ok (.list (List.forall_mem_append.2 ⟨ha.of_list, hb.of_list⟩))
    · exact .ok (.tuple (List.forall_mem_append.2 ⟨ha.of_tuple, hb.of_tuple⟩))
    · exact .error _

theorem yields_sub : Yields (Value.Within d params) (a.sub b) := by
  unfold sub
  split
  · exact .step fun p => by cases p <;> exact .ok (.flat rfl)
  · exact .error _

theorem yields_repeated {α : Type} {P : α → Prop} {tooMany : Fault} {items : List α}
    (h : ∀ x ∈ items, P x) (count : Int) :
    Yields (fun xs => ∀ x ∈ xs, P x) (repeated tooMany items count) := by
  intro xs hxs x hx
  unfold repeated at hxs
  split at hxs
  · cases hxs
  · split at hxs
    · cases hxs
    · split at hxs
      · cases hxs
      · cases hxs
        obtain ⟨part, hpart, hx⟩ := List.mem_flatten.1 hx
        cases List.eq_of_mem_replicate hpart
        exact h x hx

theorem yields_times (h : v.Within d params) (count : Int) :
    Yields (Value.Within d params) (v.times count) := by
  cases v with
  | str s => exact .step fun _ => .ok (.flat rfl)
  | bytes bs => exact .step fun _ => .ok (.flat rfl)
  | list items => exact (yields_repeated h.of_list count).bind fun _ hitems => .ok (.list hitems)
  | tuple items => exact (yields_repeated h.of_tuple count).bind fun _ hitems => .ok (.tuple hitems)
  | _ => exact .error _

theorem yields_mul (ha : a.Within d params) (hb : b.Within d params) :
    Yields (Value.Within d params) (a.mul b) := by
  unfold mul
  split
  · exact .step fun p => by cases p <;> exact .ok (.flat rfl)
  · split
    · exact yields_times ha _
    · exact yields_times hb _
    · exact .error _

theorem yields_div : Yields (Value.Within d params) (a.div b) := by
  unfold div
  split
  · refine .step fun p => ?_
    cases p with
    | ints i j =>
      dsimp only
      split
      · exact .error _
      · split
        · exact .ok (.flat rfl)
        · exact .error _
    | floats x y =>
      dsimp only
      split
      · exact .error _
      · exact .ok (.flat rfl)
  · exact .error _

/-- Formatting gives a text or bytes. -/
theorem yields_format : Yields (Value.Within d params) (a.format catalog v) := by
  cases a with
  | str s => exact .step fun _ => .ok (.flat rfl)
  | bytes bs => exact .step fun _ => .ok (.flat rfl)
  | _ => exact .error _

theorem yields_mod : Yields (Value.Within d params) (a.mod catalog b) := by
  unfold mod
  split
  · refine .step fun p => ?_
    cases p with
    | ints i j =>
      dsimp only
      split
      · exact .error _
      · exact .ok (.flat rfl)
    | floats x y =>
      dsimp only
      split
      · exact .error _
      · exact .ok (.flat rfl)
  · exact yields_format

theorem Within.putEntry (hkey : key.Within d params) (hv : v.Within d params)
    (h : (Value.dict entries).Within d params) :
    (Value.dict (putEntry catalog key v entries)).Within d params := by
  induction entries with
  | nil =>
    exact .dict (by simpa [Value.putEntry] using hkey) (by simpa [Value.putEntry] using hv)
  | cons e entries ih =>
    obtain ⟨k, w⟩ := e
    obtain ⟨hkeys, hvalues⟩ := h.of_dict
    rw [List.forall_mem_cons] at hkeys hvalues
    rw [Value.putEntry]
    split
    · exact .dict (List.forall_mem_cons.2 ⟨hkeys.1, hkeys.2⟩)
        (List.forall_mem_cons.2 ⟨hv, hvalues.2⟩)
    · obtain ⟨hkeys', hvalues'⟩ := (ih (.dict hkeys.2 hvalues.2)).of_dict
      exact .dict (List.forall_mem_cons.2 ⟨hkeys.1, hkeys'⟩)
        (List.forall_mem_cons.2 ⟨hvalues.1, hvalues'⟩)

theorem Within.putEntries (ha : (Value.dict entries).Within d params)
    {more : List (Value × Value)} (hmore : (Value.dict more).Within d params) :
    (Value.dict (more.foldl (fun all e => Value.putEntry catalog e.1 e.2 all) entries)).Within d
      params := by
  obtain ⟨hkeys, hvalues⟩ := hmore.of_dict
  exact List.foldlRecOn
    (motive := fun all : List (Value × Value) => (Value.dict all).Within d params) _ _ ha
    fun all hall e he => .putEntry (hkeys e he) (hvalues e he) hall

theorem yields_combine (ha : a.Within d params) (hb : b.Within d params) (isAnd : Bool) :
    Yields (Value.Within d params) (combine catalog isAnd a b) := by
  unfold combine
  split
  · exact .ok (.flat rfl)
  · split
    · exact .error _
    · exact .ok (.putEntries ha hb)
  · split
    · exact .ok (.flat rfl)
    · exact .error _

theorem yields_operatePlain (ha : a.Within d params) (hb : b.Within d params) (op : BinaryOp) :
    Yields (Value.Within d params) (a.operatePlain catalog op b) := by
  cases op with
  | add => exact yields_add ha hb
  | sub => exact yields_sub
  | mul => exact yields_mul ha hb
  | div => exact yields_div
  | mod => exact yields_mod
  | and => exact yields_combine ha hb true
  | or => exact yields_combine ha hb false
  | eq | ne | lt | le | gt | ge => exact .step fun _ => .ok (.flat rfl)
  | other name => exact .error _

theorem yields_operateReflected {op : BinaryOp} (hop : op.IsKnown) (ha : a.Within d params)
    {e : Expr} (he : e.Within d params) :
    Yields (Value.Within d params) (operateReflected catalog op a e) := by
  have hliteral : (Expr.literal a).Within d params := .literal ha
  cases op with
  | add | sub | mul => exact .ok (.expr (.binary hop hliteral he))
  | eq | ne => exact .ok (.expr (.binary hop he hliteral))
  | lt | le | gt | ge => exact .ok (.expr (.binary nofun he hliteral))
  | mod => exact yields_mod
  | div | and | or | other name => exact .error _

/-- A known operator captures an expression, or computes. -/
theorem yields_operate {op : BinaryOp} (hop : op.IsKnown) (ha : a.Within d params)
    (hb : b.Within d params) : Yields (Value.Within d params) (a.operate catalog op b) := by
  unfold operate
  split
  · exact .ok (.expr (.binary hop ha.of_expr hb.lift))
  · exact yields_operateReflected hop ha hb.of_expr
  · exact yields_operatePlain ha hb op

theorem yields_invert (h : v.Within d params) : Yields (Value.Within d params) v.invert := by
  unfold invert
  split
  · exact .ok (.expr (.not h.of_expr))
  · split
    · exact .ok (.flat rfl)
    · exact .error _

/-! ### Items and methods -/

theorem within_of_findEntry {parts : Value → Value → Except Error Bool} {w : Value}
    (h : (Value.dict entries).Within d params) (hw : findEntry parts key entries = some w) :
    w.Within d params := by
  obtain ⟨k, hk⟩ := mem_of_findEntry hw
  exact h.of_dict.2 _ hk

theorem yields_entry (h : (Value.dict entries).Within d params) :
    Yields (fun found => ∀ w, found = some w → w.Within d params) ( entry? catalog entries key) :=
  .step fun _ => .ok fun _ hw => within_of_findEntry h hw

theorem yields_itemAt (h : ∀ v ∈ items, v.Within d params) :
    Yields (Value.Within d params) (itemAt items key) := by
  unfold itemAt
  split
  · exact .error _
  · split
    · rename_i w hw
      obtain ⟨i, -, hi⟩ := Option.bind_eq_some_iff.1 hw
      exact .ok (h w (List.mem_of_getElem? hi))
    · exact .error _

theorem yields_item (h : v.Within d params) :
    Yields (Value.Within d params) (v.item catalog key) := by
  cases v with
  | dict entries =>
    refine (yields_entry h).bind fun found hfound => ?_
    cases found with
    | some w => exact .ok (hfound w rfl)
    | none => exact .error _
  | list items => exact yields_itemAt h.of_list
  | tuple items => exact yields_itemAt h.of_tuple
  | str s => exact yields_itemAt (List.forall_mem_map.2 fun c _ => .flat rfl)
  | bytes bs => exact yields_itemAt (List.forall_mem_map.2 fun b _ => .flat rfl)
  | _ => exact .error _

theorem yields_take {args : Arguments} (h : args.Within d params) (names accepted : List String)
    (required : Nat) :
    Yields (fun taken => ∀ v, some v ∈ taken → v.Within d params)
      (args.take names accepted required) := by
  unfold Arguments.take
  split
  · exact .error _
  · refine .ok fun v hv => ?_
    obtain ⟨⟨n, i⟩, -, hv⟩ := List.mem_map.1 hv
    rcases Option.or_eq_some_iff.1 hv with hv | ⟨-, hv⟩
    · exact h.positional v (List.mem_of_getElem? hv)
    · exact h.named (n, v) (mem_of_lookup_eq_some hv)

theorem within_argument {taken : List (Option Value)} (h : ∀ v, some v ∈ taken → v.Within d params)
    {i : Nat} (hv : argument taken i = some v) : v.Within d params :=
  h v (List.mem_of_getElem? (Option.join_eq_some_iff.1 hv))

end Value
end RecordQuery
