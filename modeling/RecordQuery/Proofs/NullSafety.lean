import RecordQuery.Expr.Evaluation
import RecordQuery.Proofs.CapturedBody
import RecordQuery.Proofs.ChainComposition
import RecordQuery.Proofs.ColumnChain
import RecordQuery.Proofs.KeyOrder
import RecordQuery.Proofs.PlainData

/-!
# Captured conditions and null

Expressions are given kinds by the declared types of the members that they read
(`Expr.HasKind`). In an environment that binds the parameters to records whose members are null or
of their declared types (`Schema.Conforms`), an expression with a kind has a value, which is null or
of that kind (`Expr.HasKind.evaluate_eq_ok`): every operator that fails on null is guarded, and so
is division by zero.
-/

namespace RecordQuery

/-- The kinds of values. Truth values count as integers. -/
inductive Kind where
  | int | str | bool
  /-- Any value that can be compared. -/
  | any
deriving DecidableEq, Repr

/-- The kind of the values that a member is declared to have, null apart. -/
def Field.kind (f : Field) : Kind :=
  match f.type.unwrapOptional with
  | .builtin .int => .int
  | .builtin .str => .str
  | .builtin .bool => .bool
  | _ => .any

namespace Value

/-- The value is of the kind. -/
def OfKind (catalog : Catalog) : Kind → Value → Prop
  | .int, v => ∃ i, v.number? = some (.int i)
  | .str, v => ∃ s, v = .str s
  | .bool, v => ∃ b, v = .bool b
  | .any, v => ∃ n, v.IsData catalog n

/-- The value is null or of the kind. -/
def NullOr (catalog : Catalog) (k : Kind) (v : Value) : Prop :=
  v = .null ∨ v.OfKind catalog k

variable {catalog : Catalog} {k : Kind} {a b v : Value}

theorem isData_of_number {i : Int} (h : v.number? = some (.int i)) (n : Nat) :
    IsData catalog n v := by
  refine .atom ?_
  cases v <;> first | rfl | cases h

theorem NullOr.isData (h : v.NullOr catalog k) : ∃ n, IsData catalog n v := by
  rcases h with rfl | h
  · exact ⟨0, .atom rfl⟩
  · cases k with
    | int => exact ⟨0, isData_of_number h.choose_spec 0⟩
    | str =>
      obtain ⟨s, rfl⟩ := h
      exact ⟨0, .atom rfl⟩
    | bool =>
      obtain ⟨p, rfl⟩ := h
      exact ⟨0, .atom rfl⟩
    | any => exact h

theorem NullOr.any (h : v.NullOr catalog k) : v.NullOr catalog .any :=
  .inr h.isData

theorem NullOr.ofBool (h : v.NullOr catalog .bool) : v.NullOr catalog .int := by
  rcases h with rfl | ⟨p, rfl⟩
  · exact .inl rfl
  · exact .inr ⟨_, rfl⟩

/-- Operators on values that can be compared compute and capture nothing. -/
theorem operate_eq (ha : ∃ n, IsData catalog n a) (hb : ∃ n, IsData catalog n b) (op : BinaryOp) :
    a.operate catalog op b = a.operatePlain catalog op b := by
  obtain ⟨n, ha⟩ := ha
  obtain ⟨m, hb⟩ := hb
  unfold operate
  split
  · exact absurd rfl (ha.ne_expr _)
  · exact absurd rfl (hb.ne_expr _)
  · rfl

theorem equal_of_number {i j : Int} (ha : a.number? = some (.int i))
    (hb : b.number? = some (.int j)) : a.equal catalog b = .ok (decide (i = j)) := by
  have hidentical : a.identical b = false := by
    cases a <;> cases ha <;> rfl
  have hmatching : a.matching catalog b = .ok (decide (i = j)) := matching_of_number ha hb
  rwa [matching, hidentical, if_neg Bool.false_ne_true] at hmatching

theorem numbers?_eq {i j : Int} (ha : a.number? = some (.int i)) (hb : b.number? = some (.int j)) :
    numbers? a b = some (.ok (.ints i j)) := by
  simp [numbers?, ha, hb, pairUp]

end Value

namespace BinaryOp

open Value

variable {catalog : Catalog} {op : BinaryOp} {a b : Value}

/-- The operator asks which of its operands comes first. -/
inductive IsOrder : BinaryOp → Prop
  | lt : IsOrder .lt
  | le : IsOrder .le
  | gt : IsOrder .gt
  | ge : IsOrder .ge

/-- Null operands are kept from the operators that fail on them. -/
theorem apply_guarded {k k' : Kind} (hop : op.IsArithmetic ∨ op.IsOrder) (ha : a.NullOr catalog k)
    (hb : b.NullOr catalog k) (h : a.OfKind catalog k → b.OfKind catalog k →
      ∃ v, a.operatePlain catalog op b = .ok v ∧ v.OfKind catalog k') :
    ∃ v, op.apply catalog a b = .ok v ∧ v.NullOr catalog k' := by
  have happly : op.apply catalog a b =
      if a.isNull || b.isNull then .ok .null else a.operate catalog op b := by
    rcases hop with hop | hop <;> cases hop <;> rfl
  rw [happly, operate_eq ha.isData hb.isData]
  rcases ha with rfl | ha
  · exact ⟨.null, rfl, .inl rfl⟩
  · rcases hb with rfl | hb
    · exact ⟨.null, by simp [isNull], .inl rfl⟩
    · split
      · exact ⟨.null, rfl, .inl rfl⟩
      · obtain ⟨v, hv, hkind⟩ := h ha hb
        exact ⟨v, hv, .inr hkind⟩

/-- Sums, differences and products of integers are integers. -/
theorem apply_integers (hop : op.IsArithmetic) (ha : a.NullOr catalog .int)
    (hb : b.NullOr catalog .int) : ∃ v, op.apply catalog a b = .ok v ∧ v.NullOr catalog .int := by
  refine apply_guarded (.inl hop) ha hb ?_
  rintro ⟨i, hi⟩ ⟨j, hj⟩
  cases hop with
  | add => exact ⟨.int (i + j), by simp [operatePlain, Value.add, numbers?_eq hi hj], _, rfl⟩
  | sub => exact ⟨.int (i - j), by simp [operatePlain, Value.sub, numbers?_eq hi hj], _, rfl⟩
  | mul => exact ⟨.int (i * j), by simp [operatePlain, Value.mul, numbers?_eq hi hj], _, rfl⟩

/-- Remainders of integers are integers, or null for the divisor zero. -/
theorem apply_remainder (ha : a.NullOr catalog .int) (hb : b.NullOr catalog .int) :
    ∃ v, BinaryOp.mod.apply catalog a b = .ok v ∧ v.NullOr catalog .int := by
  rw [apply, operate_eq ha.isData hb.isData]
  rcases ha with rfl | ⟨i, hi⟩
  · exact ⟨.null, rfl, .inl rfl⟩
  · rcases hb with rfl | ⟨j, hj⟩
    · exact ⟨.null, by simp [isNull], .inl rfl⟩
    · rw [equal_of_number hj rfl]
      split
      · exact ⟨.null, rfl, .inl rfl⟩
      · by_cases hzero : j = 0
        · exact ⟨.null, by simp [hzero], .inl rfl⟩
        · exact ⟨.int (Int.fmod i j),
            by simp [operatePlain, Value.mod, numbers?_eq hi hj, hzero], .inr ⟨_, rfl⟩⟩

theorem apply_texts (ha : a.NullOr catalog .str) (hb : b.NullOr catalog .str) :
    ∃ v, BinaryOp.add.apply catalog a b = .ok v ∧ v.NullOr catalog .str := by
  refine apply_guarded (.inl .add) ha hb ?_
  rintro ⟨s, rfl⟩ ⟨t, rfl⟩
  exact ⟨.str (s ++ t), rfl, _, rfl⟩

/-- Asking which operand comes first compares the operands. -/
theorem IsOrder.exists_comparison (hop : op.IsOrder) (catalog : Catalog) (a b : Value) :
    ∃ c, a.operatePlain catalog op b = Value.bool <$> a.compares catalog c b := by
  cases hop with
  | lt => exact ⟨.lt, bind_pure_comp ..⟩
  | le => exact ⟨.le, bind_pure_comp ..⟩
  | gt => exact ⟨.gt, bind_pure_comp ..⟩
  | ge => exact ⟨.ge, bind_pure_comp ..⟩

/-- Two integers can be ordered, and two texts. -/
theorem apply_order (hop : op.IsOrder) {k : Kind} (hk : k = .int ∨ k = .str)
    (ha : a.NullOr catalog k) (hb : b.NullOr catalog k) :
    ∃ v, op.apply catalog a b = .ok v ∧ v.NullOr catalog .bool := by
  refine apply_guarded (.inr hop) ha hb fun ha hb => ?_
  obtain ⟨c, hc⟩ := hop.exists_comparison catalog a b
  have hcompares : ∃ p, a.compares catalog c b = .ok p := by
    rcases hk with rfl | rfl
    · obtain ⟨i, hi⟩ := ha
      obtain ⟨j, hj⟩ := hb
      exact ⟨_, compares_of_number hi hj⟩
    · obtain ⟨s, rfl⟩ := ha
      obtain ⟨t, rfl⟩ := hb
      exact ⟨_, compares_str c s t⟩
  obtain ⟨p, hp⟩ := hcompares
  exact ⟨.bool p, by rw [hc, hp]; rfl, p, rfl⟩

/-- Any two values that can be compared are equal or not, null included. -/
theorem apply_equality (hlayered : Layered catalog.classes) (hop : op = .eq ∨ op = .ne)
    (ha : a.NullOr catalog .any) (hb : b.NullOr catalog .any) :
    ∃ v, op.apply catalog a b = .ok v ∧ v.NullOr catalog .bool := by
  obtain ⟨n, ha⟩ := ha.isData
  obtain ⟨m, hb⟩ := hb.isData
  obtain ⟨p, hp⟩ := ha.equal_eq_ok hlayered hb
  rcases hop with rfl | rfl
  · refine ⟨.bool p, ?_, .inr ⟨p, rfl⟩⟩
    rw [apply, operate_eq ⟨n, ha⟩ ⟨m, hb⟩, operatePlain, hp]
    rfl
  · refine ⟨.bool !p, ?_, .inr ⟨_, rfl⟩⟩
    rw [apply, operate_eq ⟨n, ha⟩ ⟨m, hb⟩, operatePlain, hp]
    rfl

/-- Conditions that are joined count as true or false, null as false. -/
theorem apply_junction (hop : op.IsJunction) (ha : a.NullOr catalog .any)
    (hb : b.NullOr catalog .any) :
    ∃ v, op.apply catalog a b = .ok v ∧ v.NullOr catalog .bool := by
  obtain ⟨n, ha⟩ := ha.isData
  obtain ⟨m, hb⟩ := hb.isData
  obtain ⟨p, hp⟩ := ha.truthy_eq_ok
  obtain ⟨q, hq⟩ := hb.truthy_eq_ok
  cases hop with
  | and => exact ⟨.bool (p && q), by cases p <;> simp [apply, hp, hq], .inr ⟨_, rfl⟩⟩
  | or => exact ⟨.bool (p || q), by cases p <;> simp [apply, hp, hq], .inr ⟨_, rfl⟩⟩

end BinaryOp

namespace Schema

/-- The members of a record can be read and are null or of their declared types, and so are those of
the records in it. -/
inductive Conforms (d : Directory) : Schema → Value → Prop
  | intro {s : Schema} {v : Value} (value : Field → Value)
    (hread : ∀ f ∈ s.fields, f.readable = true → f.read d.catalog v = .ok (value f))
    (hkind : ∀ f ∈ s.fields, f.readable = true → (value f).NullOr d.catalog f.kind)
    (hnested : ∀ f ∈ s.fields, f.readable = true → value f ≠ .null →
      Conforms d (d.memberSchema f) (value f)) : Conforms d s v

/-- The members lead from a record to the last one of them. -/
inductive Reaches (d : Directory) : Schema → List Field → Field → Prop
  | last {s : Schema} {f : Field} (hf : f ∈ s.fields) (hreadable : f.readable = true) :
    Reaches d s [f] f
  | step {s : Schema} {f last : Field} {fields : List Field} (hf : f ∈ s.fields)
    (hreadable : f.readable = true) (h : Reaches d (d.memberSchema f) fields last) :
    Reaches d s (f :: fields) last

variable {d : Directory} {s : Schema} {v : Value}

theorem Conforms.of_read (h : ∀ f ∈ s.fields, f.readable = true →
    ∃ w, f.read d.catalog v = .ok w ∧ w.NullOr d.catalog f.kind ∧
      (w ≠ .null → Conforms d (d.memberSchema f) w)) : Conforms d s v := by
  refine .intro (fun f => (f.read d.catalog v).toOption.getD .null) (fun f hf hreadable => ?_)
    (fun f hf hreadable => ?_) fun f hf hreadable hvalue => ?_
  all_goals obtain ⟨w, hw, hkind, hnested⟩ := h f hf hreadable
  · rw [hw]
    rfl
  · rw [hw]
    exact hkind
  · rw [hw] at hvalue ⊢
    exact hnested hvalue

/-- Reading along members gives null or a value of the declared type of the last one. -/
theorem Conforms.readFields_eq_ok {fields : List Field} {last : Field}
    (hv : v = .null ∨ Conforms d s v) (h : Reaches d s fields last) :
    ∃ w, Accessor.readFields d.catalog fields v = .ok w ∧ w.NullOr d.catalog last.kind := by
  induction h generalizing v with
  | @last s f hf hreadable =>
    rw [Accessor.readFields]
    split
    · exact ⟨.null, rfl, .inl rfl⟩
    · obtain ⟨value, hread, hkind, -⟩ := hv.resolve_left fun hnull => by simp_all [Value.isNull]
      refine ⟨value f, ?_, hkind f hf hreadable⟩
      rw [hread f hf hreadable]
      rfl
  | @step s f last fields hf hreadable h ih =>
    rw [Accessor.readFields]
    split
    · exact ⟨.null, rfl, .inl rfl⟩
    · obtain ⟨value, hread, -, hnested⟩ := hv.resolve_left fun hnull => by simp_all [Value.isNull]
      rw [hread f hf hreadable, Except.ok_bind]
      refine ih ?_
      by_cases hnull : value f = .null
      · exact .inl hnull
      · exact .inr (hnested f hf hreadable hnull)

/-- The chains that names resolve to lead along members. -/
theorem Reaches.of_follow {names : List String} {position : Nat} {found : Resolution}
    (hnames : names ≠ []) (h : (d.follow s position names).result = .ok found) :
    ∃ last, Reaches d s found.fields last := by
  induction names generalizing s position found with
  | nil => exact absurd rfl hnames
  | cons name names ih =>
    cases hfound : s.candidates name with
    | nil =>
      rw [Directory.follow_of_candidates_nil hfound] at h
      cases h
    | cons f fs =>
      obtain ⟨hf, hreadable, -⟩ := mem_of_mem_candidates (hfound ▸ List.mem_cons_self)
      cases names with
      | nil =>
        rw [Directory.follow_last hfound] at h
        cases h
        exact ⟨f, .last hf hreadable⟩
      | cons name' names =>
        rw [Directory.result_follow_step hfound (List.cons_ne_nil name' names)] at h
        obtain ⟨owner, howner, h⟩ := Except.bind_eq_ok.1 h
        obtain ⟨rest, hrest, h⟩ := Except.bind_eq_ok.1 h
        cases h
        obtain ⟨last, hlast⟩ := ih (List.cons_ne_nil name' names) hrest
        rw [Directory.eq_of_enter howner] at hlast
        exact ⟨last, .step hf hreadable hlast⟩

end Schema

namespace Expr

/-- The expression is made of parts whose kinds fit the operators, so that its values are of the
kind. -/
inductive HasKind (d : Directory) (params : List Param) (assumed : Param → Kind) :
    Expr → Kind → Prop
  | literal {v : Value} {k : Kind} (h : v.NullOr d.catalog k) :
    HasKind d params assumed (.literal v) k
  | param {p : Param} (hp : p ∈ params) (hscalar : p.schema = none) :
    HasKind d params assumed (.param p) (assumed p)
  | member {p : Param} {s : Schema} {a : Accessor} {f : Field} (hp : p ∈ params)
    (hrecord : p.schema = some s) (ha : s.Reaches d a.fields f) :
    HasKind d params assumed (.member p a) f.kind
  | integers {op : BinaryOp} {l r : Expr} (hop : op.IsArithmetic ∨ op = .mod)
    (hl : HasKind d params assumed l .int) (hr : HasKind d params assumed r .int) :
    HasKind d params assumed (.binary op l r) .int
  | texts {l r : Expr} (hl : HasKind d params assumed l .str)
    (hr : HasKind d params assumed r .str) : HasKind d params assumed (.binary .add l r) .str
  | order {op : BinaryOp} {l r : Expr} {k : Kind} (hop : op.IsOrder) (hk : k = .int ∨ k = .str)
    (hl : HasKind d params assumed l k) (hr : HasKind d params assumed r k) :
    HasKind d params assumed (.binary op l r) .bool
  | equality {op : BinaryOp} {l r : Expr} (hop : op = .eq ∨ op = .ne)
    (hl : HasKind d params assumed l .any) (hr : HasKind d params assumed r .any) :
    HasKind d params assumed (.binary op l r) .bool
  | junction {op : BinaryOp} {l r : Expr} (hop : op.IsJunction)
    (hl : HasKind d params assumed l .any) (hr : HasKind d params assumed r .any) :
    HasKind d params assumed (.binary op l r) .bool
  | not {e : Expr} (h : HasKind d params assumed e .any) :
    HasKind d params assumed (.unary .not e) .bool
  | nullTest {method : String} {e : Expr} (hmethod : method = "is_null" ∨ method = "is_not_null")
    (h : HasKind d params assumed e .any) :
    HasKind d params assumed (.call method [] [] (some e)) .bool
  | isIn {e : Expr} {args : List Value} (h : HasKind d params assumed e .any)
    (hexprs : ∀ e', .expr e' ∈ args → HasKind d params assumed e' .any)
    (hvalues : ∀ v ∈ args, (∀ e', v ≠ .expr e') → v.OfKind d.catalog .any) :
    HasKind d params assumed (.call "is_in" args [] (some e)) .bool
  | ofBool {e : Expr} (h : HasKind d params assumed e .bool) : HasKind d params assumed e .int
  | ofKind {e : Expr} {k : Kind} (h : HasKind d params assumed e k) :
    HasKind d params assumed e .any

end Expr

/-- The environment binds record parameters to records that conform to their schemas, or to null,
and scalar parameters to null or a value of the kind that is assumed. -/
structure Env.Suits (d : Directory) (params : List Param) (assumed : Param → Kind) (env : Env) :
    Prop where
  record : ∀ p ∈ params, ∀ s, p.schema = some s →
    ∃ v, Env.value env p.name = .ok v ∧ (v = .null ∨ s.Conforms d v)
  scalar : ∀ p ∈ params, p.schema = none →
    ∃ v, Env.value env p.name = .ok v ∧ v.NullOr d.catalog (assumed p)

/-- The arguments of a membership test have values that can be compared. -/
theorem evaluateArgs_eq_ok {d : Directory} {env : Env} {args : List Value}
    (h : ∀ v ∈ args, ∃ w, v.evaluateOperand d env = .ok w ∧ w.OfKind d.catalog .any) :
    ∃ ws, evaluateArgs d env args = .ok ws ∧ ∀ w ∈ ws, w.OfKind d.catalog .any := by
  induction args with
  | nil => exact ⟨[], rfl, nofun⟩
  | cons v args ih =>
    rw [List.forall_mem_cons] at h
    obtain ⟨⟨w, hw, hkind⟩, h⟩ := h
    obtain ⟨ws, hws, hkinds⟩ := ih h
    refine ⟨w :: ws, ?_, List.forall_mem_cons.2 ⟨hkind, hkinds⟩⟩
    rw [evaluateArgs, hw, hws]
    rfl

/-- **Captured conditions are safe on null.** An expression of a kind has a value in every
environment that suits its parameters, and the value is null or of that kind. -/
theorem Expr.HasKind.evaluate_eq_ok {d : Directory} {params : List Param} {assumed : Param → Kind}
    {env : Env} {e : Expr} {k : Kind} (hlayered : Layered d.catalog.classes)
    (henv : env.Suits d params assumed) (h : e.HasKind d params assumed k) :
    ∃ v, e.evaluate d env = .ok v ∧ v.NullOr d.catalog k := by
  have hbinary {op : BinaryOp} {l r : Expr} {k k' : Kind}
      (hl : ∃ a, l.evaluate d env = .ok a ∧ a.NullOr d.catalog k)
      (hr : ∃ b, r.evaluate d env = .ok b ∧ b.NullOr d.catalog k)
      (h : ∀ {a b : Value}, a.NullOr d.catalog k → b.NullOr d.catalog k →
        ∃ v, op.apply d.catalog a b = .ok v ∧ v.NullOr d.catalog k') :
      ∃ v, (Expr.binary op l r).evaluate d env = .ok v ∧ v.NullOr d.catalog k' := by
    obtain ⟨a, ha, ha'⟩ := hl
    obtain ⟨b, hb, hb'⟩ := hr
    rw [evaluate, ha, hb]
    exact h ha' hb'
  induction h with
  | literal h => exact ⟨_, rfl, h⟩
  | param hp hscalar => exact henv.scalar _ hp hscalar
  | member hp hrecord ha =>
    obtain ⟨row, hrow, hconforms⟩ := henv.record _ hp _ hrecord
    rw [evaluate, hrow, Except.ok_bind]
    exact Schema.Conforms.readFields_eq_ok hconforms ha
  | integers hop _ _ ihl ihr =>
    rcases hop with hop | rfl
    · exact hbinary ihl ihr (BinaryOp.apply_integers hop)
    · exact hbinary ihl ihr BinaryOp.apply_remainder
  | texts _ _ ihl ihr => exact hbinary ihl ihr BinaryOp.apply_texts
  | order hop hk _ _ ihl ihr => exact hbinary ihl ihr (BinaryOp.apply_order hop hk)
  | equality hop _ _ ihl ihr => exact hbinary ihl ihr (BinaryOp.apply_equality hlayered hop)
  | junction hop _ _ ihl ihr => exact hbinary ihl ihr (BinaryOp.apply_junction hop)
  | not _ ih =>
    obtain ⟨a, ha, ha'⟩ := ih
    obtain ⟨n, ha'⟩ := ha'.isData
    obtain ⟨p, hp⟩ := ha'.truthy_eq_ok
    rw [evaluate, ha, Except.ok_bind, UnaryOp.apply]
    split
    · exact ⟨.null, rfl, .inl rfl⟩
    · exact ⟨.bool !p, by rw [hp]; rfl, .inr ⟨_, rfl⟩⟩
  | nullTest hmethod _ ih =>
    obtain ⟨a, ha, -⟩ := ih
    rw [evaluate, ha]
    rcases hmethod with rfl | rfl
    · exact ⟨.bool a.isNull, rfl, .inr ⟨_, rfl⟩⟩
    · exact ⟨.bool !a.isNull, rfl, .inr ⟨_, rfl⟩⟩
  | @isIn e args _ _ hvalues ih ihexprs =>
    obtain ⟨a, ha, ha'⟩ := ih
    obtain ⟨n, ha'⟩ := ha'.isData
    have hargs : ∀ v ∈ args, ∃ w, v.evaluateOperand d env = .ok w ∧ w.OfKind d.catalog .any := by
      intro v hv
      by_cases hexpr : ∃ e', v = .expr e'
      · obtain ⟨e', rfl⟩ := hexpr
        obtain ⟨w, hw, hw'⟩ := ihexprs e' hv
        exact ⟨w, by rw [Value.evaluateOperand, hw], hw'.isData⟩
      · have hplain : v.evaluateOperand d env = .ok v := by
          cases v <;> first | rfl | exact absurd ⟨_, rfl⟩ hexpr
        exact ⟨v, hplain, hvalues v hv fun e' he => hexpr ⟨e', he⟩⟩
    obtain ⟨ws, hws, hkinds⟩ := evaluateArgs_eq_ok hargs
    obtain ⟨p, hp⟩ := ha'.occursIn_eq_ok hlayered hkinds
    refine ⟨.bool p, ?_, .inr ⟨p, rfl⟩⟩
    rw [evaluate, ha, hws]
    simp [applyMethod, hp]
  | ofBool _ ih =>
    obtain ⟨a, ha, ha'⟩ := ih
    exact ⟨a, ha, ha'.ofBool⟩
  | ofKind _ ih =>
    obtain ⟨a, ha, ha'⟩ := ih
    exact ⟨a, ha, ha'.any⟩

namespace Expr.HasKind

/-- Employees, who work on a floor of an office. -/
private def staff : Directory where
  catalog.classes := [
    { name := "Employee", kind := .data false false,
      fields := [{ name := "age", type := .builtin .int },
        { name := "office", type := .record "Office" }] },
    { name := "Office", kind := .data false false,
      fields := [{ name := "floor", type := .builtin .int }] }]

private def employees : Schema := staff.schemaOf (.record "Employee")

private def employee : Param where
  key := 0
  name := "r"
  index := 0
  schema := some employees

private def limit : Param where
  key := 1
  name := "v"
  index := 1
  schema := none

private def ageField : Field where
  name := "age"
  type := .builtin .int

private def officeField : Field where
  name := "office"
  type := .record "Office"

private def floorField : Field where
  name := "floor"
  type := .builtin .int

/-- `(r.office.floor % r.age < v) | r.office.is_null()`. -/
private def condition : Expr :=
  .binary .or
    (.binary .lt
      (.binary .mod (.member employee ⟨employees, [officeField, floorField]⟩)
        (.member employee ⟨employees, [ageField]⟩))
      (.param limit))
    (.call "is_null" [] [] (some (.member employee ⟨employees, [officeField]⟩)))

/-- The age is zero, and the floor is not known. -/
private def newcomer : Env :=
  [("r", .record "Employee" 0 [("age", .int 0),
    ("office", .record "Office" 0 [("floor", .null)])]), ("v", .null)]

/-- Null members, a null parameter and the divisor zero are met in one condition. -/
theorem evaluate_newcomer :
    Layered staff.catalog.classes ∧ newcomer.Suits staff [employee, limit] (fun _ => .int) ∧
      condition.HasKind staff [employee, limit] (fun _ => .int) .bool ∧
      ∃ v, condition.evaluate staff newcomer = .ok v ∧ v.NullOr staff.catalog .bool := by
  have hlayered : Layered staff.catalog.classes :=
    .cons (by decide) nofun (.cons (by decide) nofun .nil)
  have hoffice : Schema.Conforms staff (staff.memberSchema officeField)
      (.record "Office" 0 [("floor", .null)]) := by
    refine .of_read fun f hf _ => ?_
    cases List.mem_singleton.1 hf
    exact ⟨.null, rfl, .inl rfl, fun h => absurd rfl h⟩
  have hoffice' : Value.IsData staff.catalog 1 (.record "Office" 0 [("floor", .null)]) := by
    refine .record (fun _ => .null) (fun f hf => ?_) fun f hf => .atom rfl
    cases List.mem_singleton.1 hf
    rfl
  have hsuits : newcomer.Suits staff [employee, limit] (fun _ => .int) := by
    constructor
    · intro p hp s hs
      obtain rfl : p = employee := by
        simp only [List.mem_cons, List.not_mem_nil, or_false] at hp
        rcases hp with rfl | rfl
        · rfl
        · cases hs
      cases hs
      refine ⟨_, rfl, .inr (.of_read fun f hf _ => ?_)⟩
      have hf : f ∈ [ageField, officeField] := hf
      simp only [List.mem_cons, List.not_mem_nil, or_false] at hf
      rcases hf with rfl | rfl
      · exact ⟨.int 0, rfl, .inr ⟨0, rfl⟩, fun _ => .of_read nofun⟩
      · exact ⟨_, rfl, .inr ⟨1, hoffice'⟩, fun _ => hoffice⟩
    · intro p hp hscalar
      simp only [List.mem_cons, List.not_mem_nil, or_false] at hp
      rcases hp with rfl | rfl
      · cases hscalar
      · exact ⟨.null, rfl, .inl rfl⟩
  have hage : ageField ∈ employees.fields := .head _
  have hoffice : officeField ∈ employees.fields := .tail _ (.head _)
  have hfloor : floorField ∈ (staff.memberSchema officeField).fields := .head _
  have hmember {fields : List Field} {f : Field} (h : employees.Reaches staff fields f) :
      (Expr.member employee ⟨employees, fields⟩).HasKind staff [employee, limit] (fun _ => .int)
        f.kind := .member (.head _) rfl h
  have hkind : condition.HasKind staff [employee, limit] (fun _ => .int) .bool :=
    .junction .or
      (.ofKind (.order .lt (.inl rfl)
        (.integers (.inr rfl) (hmember (.step hoffice rfl (.last hfloor rfl)))
          (hmember (.last hage rfl)))
        (.param (.tail _ (.head _)) rfl)))
      (.ofKind (.nullTest (.inl rfl) (hmember (.last hoffice rfl))))
  exact ⟨hlayered, hsuits, hkind, evaluate_eq_ok hlayered hsuits hkind⟩

end Expr.HasKind

end RecordQuery
