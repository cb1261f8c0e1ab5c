import RecordQuery.Proofs.BoundFilter
import RecordQuery.Proofs.MemoryTables
import RecordQuery.Proofs.SerializedMeaning

/-!
# Predicates of one and of two arguments

A filter by a value calls its predicate with the row, or with the row and the value, after the
number of arguments that the predicate insists on. For lambdas whose parameters with defaults come
last, as the grammar has them, this number decides rightly (`Lambda.two_le_required`): a lambda that
can be called with one argument insists on no more than one, and one that can only be called with
two insists on both. So each row is tested by a call whose arguments the predicate takes.
-/

namespace RecordQuery

theorem Except.exists_mapM_iff {α β ε : Type} {f : α → Except ε β} {xs : List α} :
    (∃ ys, xs.mapM f = .ok ys) ↔ ∀ x ∈ xs, ∃ y, f x = .ok y := by
  induction xs with
  | nil => simp
  | cons x xs ih => simp [List.mapM_cons, Except.bind_eq_ok, ← ih]

/-! ### What lambdas can be called with -/

namespace Lambda

variable {f : Lambda} {n : Nat}

/-- Behind a parameter with a default, no argument by position is insisted on. -/
def DefaultsLast (f : Lambda) : Prop :=
  f.positional.Pairwise fun p q => p.default.isSome = true → q.default.isSome = true

/-- The lambda takes any number of further arguments by position. -/
def takesRest (f : Lambda) : Bool :=
  f.params.any (·.kind == .rest)

/-- The lambda can be called with this number of arguments by position: whatever they are, they and
the parameters can be matched. -/
def Accepts (f : Lambda) (n : Nat) : Prop :=
  ∀ args : List Value, args.length = n → ∃ env, f.environment args = .ok env

theorem exists_bindPositional_iff {params : List LambdaParam} {args : List Value} :
    (∃ env, bindPositional params args = .ok env) ↔
      ∀ p ∈ params.drop args.length, p.default.isSome = true := by
  induction params generalizing args with
  | nil => simp [bindPositional]
  | cons p params ih =>
    cases args with
    | nil =>
      have hrest := @ih []
      rw [List.length_nil, List.drop_zero] at hrest
      cases hp : p.default with
      | none => simp [bindPositional, hp, fail]
      | some v => simp [bindPositional, hp, Except.bind_eq_ok, ← hrest]
    | cons v args => simp [bindPositional, Except.bind_eq_ok, ← ih]

theorem exists_bindOthers_iff {params : List LambdaParam} (extra : List Value) :
    (∃ env, bindOthers params extra = .ok env) ↔
      ∀ p ∈ params, p.kind = .rest ∨ p.default.isSome = true := by
  rw [bindOthers, Except.exists_mapM_iff]
  refine forall₂_congr fun p _ => ?_
  split
  · simp [*]
  · simp [*]
  · rename_i hdefault hkind
    simpa [hdefault, fail] using hkind

theorem takesRest_eq_false_iff :
    f.takesRest = false ↔
      (f.params.filter (·.kind != .positional)).all (·.kind != .rest) = true := by
  simp only [takesRest, List.any_eq_false, List.all_filter, List.all_eq_true]
  refine forall₂_congr fun p _ => ?_
  cases p.kind <;> simp

/-- Arguments by position and parameters can be matched if there is a parameter for each argument,
an argument or a default for each parameter by position, and a default for each one by name. -/
theorem exists_environment_iff {args : List Value} :
    (∃ env, f.environment args = .ok env) ↔
      (args.length ≤ f.positional.length ∨ f.takesRest = true) ∧
      (∀ p ∈ f.positional.drop args.length, p.default.isSome = true) ∧
      ∀ p ∈ f.params, p.kind = .named → p.default.isSome = true := by
  have hothers : (∀ p ∈ f.params.filter (·.kind != .positional),
      p.kind = .rest ∨ p.default.isSome = true) ↔
        ∀ p ∈ f.params, p.kind = .named → p.default.isSome = true := by
    simp only [List.mem_filter, and_imp]
    refine forall₂_congr fun p _ => ?_
    cases p.kind <;> simp
  rw [← exists_bindPositional_iff, ← hothers,
    ← exists_bindOthers_iff (args.drop f.positional.length), environment]
  have hextra : (args.drop f.positional.length).isEmpty = true ↔
      args.length ≤ f.positional.length := by simp
  cases hrest : f.takesRest with
  | true =>
    have hroom : (f.params.filter (·.kind != .positional)).all (·.kind != .rest) = false := by
      rw [← Bool.not_eq_true, ← takesRest_eq_false_iff, hrest]
      decide
    simp [hroom, Except.bind_eq_ok]
  | false =>
    rw [takesRest_eq_false_iff] at hrest
    by_cases hlength : args.length ≤ f.positional.length
    · simp [hlength, hextra.mpr hlength, Except.bind_eq_ok]
    · have hover : (args.drop f.positional.length).isEmpty = false := by
        rw [← Bool.not_eq_true, hextra]
        exact hlength
      simp [hlength, hover, hrest, fail]

/-- The parameters behind the first ones have defaults exactly if those without are not more than
these. -/
theorem forall_mem_drop_iff {params : List LambdaParam}
    (h : params.Pairwise fun p q => p.default.isSome = true → q.default.isSome = true) :
    (∀ p ∈ params.drop n, p.default.isSome = true) ↔
      (params.filter (·.default.isNone)).length ≤ n := by
  induction params generalizing n with
  | nil => simp
  | cons p params ih =>
    rw [List.pairwise_cons] at h
    cases hp : p.default with
    | none =>
      cases n with
      | zero => simp [hp]
      | succ n => simp [hp, ih h.2]
    | some v =>
      -- all parameters behind this one have defaults too
      have hall : ∀ q ∈ params, q.default.isSome = true := fun q hq => h.1 q hq (by simp [hp])
      have hnone : params.filter (·.default.isNone) = [] := by
        rw [List.filter_eq_nil_iff]
        intro q hq
        simpa [Option.isSome_iff_ne_none] using hall q hq
      have hdrop : ∀ q ∈ (p :: params).drop n, q.default.isSome = true := fun q hq =>
        List.forall_mem_cons.mpr ⟨by simp [hp], hall⟩ q (List.mem_of_mem_drop hq)
      simpa [hp, hnone] using hdrop

/-- The number of arguments by position that a lambda accepts: at least as many as it insists on,
and no more than it has parameters for. -/
theorem accepts_iff (hf : f.DefaultsLast) :
    f.Accepts n ↔ f.required ≤ n ∧ (n ≤ f.positional.length ∨ f.takesRest = true) ∧
      ∀ p ∈ f.params, p.kind = .named → p.default.isSome = true := by
  have hcount := @forall_mem_drop_iff n _ hf
  constructor
  · intro h
    obtain ⟨hroom, hdefaults, hnamed⟩ :=
      exists_environment_iff.mp (h (List.replicate n .null) List.length_replicate)
    rw [List.length_replicate] at hroom hdefaults
    exact ⟨hcount.mp hdefaults, hroom, hnamed⟩
  · rintro ⟨hrequired, hroom, hnamed⟩ args rfl
    exact exists_environment_iff.mpr ⟨hroom, hcount.mpr hrequired, hnamed⟩

theorem required_le (hf : f.DefaultsLast) (h : f.Accepts n) : f.required ≤ n :=
  ((accepts_iff hf).mp h).1

/-- A lambda that can be called with two arguments and not with one insists on both. -/
theorem two_le_required (hf : f.DefaultsLast) (h₁ : ¬ f.Accepts 1) (h₂ : f.Accepts 2) :
    2 ≤ f.required := by
  obtain ⟨-, hroom, hnamed⟩ := (accepts_iff hf).mp h₂
  by_contra hfew
  exact h₁ ((accepts_iff hf).mpr ⟨by omega, hroom.imp_left (by omega), hnamed⟩)

end Lambda

/-! ### What captured lambdas are over -/

section

variable {d : Directory} {params : List Param}

mutual

theorem Expr.Within.over : ∀ {e : Expr}, e.Within d params → e.Over (· ∈ params)
  | .literal _, _ | .unknown _, _ => trivial
  | .param p, h | .member p a, h => by
    cases h
    assumption
  | .binary op l r, h => by
    cases h with
    | binary _ hl hr => exact ⟨hl.over, hr.over⟩
  | .unary op e, h => by
    cases h with
    | not h => exact Expr.Within.over (e := e) h
  | .call method args named none, h => by
    cases h with
    | call hargs hnamed _ => exact ⟨argsOver_of_within hargs, namedOver_of_within hnamed⟩
  | .call method args named (some e), h => by
    cases h with
    | call hargs hnamed hon =>
      exact ⟨(hon e rfl).over, argsOver_of_within hargs, namedOver_of_within hnamed⟩

theorem Value.operandOver_of_within (v : Value) (h : v.Within d params) :
    v.OperandOver (· ∈ params) := by
  cases v with
  | expr e => exact h.of_expr.over
  | _ => trivial

theorem argsOver_of_within :
    ∀ {vs : List Value}, (∀ v ∈ vs, v.Within d params) → ArgsOver (· ∈ params) vs
  | [], _ => trivial
  | v :: vs, h => by
    rw [List.forall_mem_cons] at h
    exact ⟨v.operandOver_of_within h.1, argsOver_of_within h.2⟩

theorem namedOver_of_within :
    ∀ {vs : List (String × Value)}, (∀ e ∈ vs, e.2.Within d params) → NamedOver (· ∈ params) vs
  | [], _ => trivial
  | (n, v) :: rest, h => by
    rw [List.forall_mem_cons] at h
    exact ⟨v.operandOver_of_within h.1, namedOver_of_within h.2⟩

end

/-- A lambda into which nothing comes that was captured elsewhere is captured over parameters of its
own. -/
theorem Captured.wellFormed_of_capture {f : Lambda} {schemas : List (Option Schema)} {c : Captured}
    (hf : SelfContained d f schemas) (h : (capture d f schemas).result = .ok c) :
    c.WellFormed := by
  obtain ⟨hparams, hbody⟩ := within_of_capture hf.catalog hf.methods hf.lambda h
  refine ⟨?_, fun p hp q hq hkey => ?_, hbody.over⟩
  · rw [hparams, names_paramsFor]
    exact nodup_paramNames hf.names _
  · rw [hparams] at hp hq
    obtain ⟨⟨x, i⟩, hx, rfl⟩ := List.mem_map.mp hp
    obtain ⟨⟨y, j⟩, hy, rfl⟩ := List.mem_map.mp hq
    -- the key of a captured parameter is its place
    obtain rfl : i = j := hkey
    rw [List.mem_zipIdx_iff_getElem?] at hx hy
    obtain rfl : x = y := Option.some.inj (hx.symm.trans hy)
    rfl

end

/-! ### What predicates can be called with -/

namespace Predicate

variable {d : Directory} {p b : Predicate} {v : Value}

/-- The value of the predicate on arguments. -/
def apply (d : Directory) (p : Predicate) (args : List Value) : Except Error Value :=
  match p with
  | .lambda f => (f.call d args).result
  | .captured c => c.call d args
  | .bound f v => (f.call d (args ++ [v])).result
  | .other _ => fail .wrongType

/-- Does the predicate hold of the arguments? -/
def holds (d : Directory) (p : Predicate) (args : List Value) : Except Error Bool := do
  (← p.apply d args).truthy

/-- The predicate takes the arguments: none is missing, and none is one too many. -/
def Takes (p : Predicate) (args : List Value) : Prop :=
  match p with
  | .lambda f => ∃ env, f.environment args = .ok env
  | .captured c => args.length = c.arity
  | .bound f v => ∃ env, f.environment (args ++ [v]) = .ok env
  | .other _ => False

/-- The predicate can be called with this number of arguments, whatever they are. -/
def Accepts (p : Predicate) (n : Nat) : Prop :=
  ∀ args : List Value, args.length = n → p.Takes args

/-- A lambda as the grammar has it, or a captured one over parameters of its own. -/
inductive IsCallable : Predicate → Prop
  | lambda {f : Lambda} (h : f.DefaultsLast) : IsCallable (.lambda f)
  | captured {c : Captured} (h : c.WellFormed) : IsCallable (.captured c)

theorem test_eq_holds : p.test d = fun row => p.holds d [row] := by
  cases p <;> rfl

theorem arity_of_accepts {c : Captured} {n : Nat} (h : (captured c).Accepts n) : c.arity = n := by
  have hlength := h (List.replicate n .null) List.length_replicate
  rw [Takes, List.length_replicate] at hlength
  exact hlength.symm

theorem arity_lt_two (hp : p.IsCallable) (h : p.Accepts 1) : p.arity < 2 := by
  cases hp with
  | lambda hf =>
    have hrequired := Lambda.required_le hf h
    rw [arity]
    omega
  | captured hc =>
    rw [arity, arity_of_accepts h]
    decide

theorem two_le_arity (hp : p.IsCallable) (h₁ : ¬ p.Accepts 1) (h₂ : p.Accepts 2) :
    2 ≤ p.arity := by
  cases hp with
  | lambda hf => exact Lambda.two_le_required hf h₁ h₂
  | captured hc => exact Nat.le_of_eq (arity_of_accepts h₂).symm

/-- A predicate whose second parameter is fixed holds of a row where the predicate holds of the row
and the value. -/
theorem test_of_bindSecond (hp : p.IsCallable) (h₂ : p.Accepts 2)
    (hb : p.bindSecond d.catalog v = .ok b) : b.test d = fun row => p.holds d [row, v] := by
  cases hp with
  | lambda hf =>
    cases hb
    rfl
  | captured hc =>
    obtain ⟨s, hs, hb⟩ := Except.bind_eq_ok.mp hb
    cases hb
    exact Captured.test_bind hc (arity_of_accepts h₂) hs

/-- Only a captured lambda reads anything when its second parameter is fixed. -/
theorem bindSecond_eq_error {e : Error} (hp : p.IsCallable)
    (h : p.bindSecond d.catalog v = .error e) :
    ∃ c, p = .captured c ∧ c.bind d.catalog 1 v = .error e := by
  cases hp with
  | lambda hf => cases h
  | @captured c hc =>
    refine ⟨c, rfl, ?_⟩
    rcases Except.bind_eq_error.mp h with h | ⟨s, -, h⟩
    · exact h
    · cases h

end Predicate

/-! ### Filters by a value -/

namespace Query

variable {E : Engine} {d : Directory} {q : Query E} {p b : Predicate} {v : Value}

/-- The outcome is that of a filter by a test: the rows that pass are left in their order, and the
filter fails if the rows cannot be read or a test fails, with the failure that comes first. -/
structure FiltersBy (d : Directory) (q : Query E) (test : Value → Except Error Bool)
    (x : Except Error (Option (Query E))) : Prop where
  keeps : ∀ rows, q.rows d = .ok rows → (∀ row ∈ rows, ∃ b, test row = .ok b) →
    ∃ q', x = .ok (some q') ∧ q'.schema = q.schema ∧ q'.keys = none ∧
      q'.rows d = .ok (rows.filter (passes test))
  fails : ∀ e, x = .error e ↔ q.rows d = .error e ∨
    ∃ before row after, q.rows d = .ok (before ++ row :: after) ∧
      (∀ r ∈ before, ∃ b, test r = .ok b) ∧ test row = .error e

theorem filtersBy_filter (hE : E.SelectsRows) :
    FiltersBy d q (p.test d) (some <$> q.filter d p) where
  keeps rows hrows htests := by
    obtain ⟨q', hq', hschema, hkeys, hread⟩ :=
      filter_ok hE hrows (keepIf_eq_ok.mpr ⟨htests, rfl⟩)
    exact ⟨q', by rw [hq']; rfl, hschema, hkeys, hread⟩
  fails e := by
    have hmap : some <$> q.filter d p = .error e ↔ q.filter d p = .error e := by
      cases q.filter d p <;> simp [Functor.map, Except.map]
    rw [hmap, filter_eq_error hE, Except.bind_eq_error]
    simp only [keepIf_eq_error]
    constructor
    · rintro (h | ⟨rows, hrows, before, row, after, rfl, hbefore, hrow⟩)
      · exact .inl h
      · exact .inr ⟨before, row, after, hrows, hbefore, hrow⟩
    · rintro (h | ⟨before, row, after, hrows, hbefore, hrow⟩)
      · exact .inl h
      · exact .inr ⟨_, hrows, before, row, after, rfl, hbefore, hrow⟩

theorem filterIfNotNull_of_arity_lt (hv : v.isNull = false) (h : p.arity < 2) :
    q.filterIfNotNull d v p = some <$> q.filter d p := by
  have hfew : ¬ 2 ≤ p.arity := by omega
  simp only [filterIfNotNull, hv, hfew, Bool.not_false, decide_false, Bool.and_false]
  rfl

theorem filterIfNotNull_of_two_le_arity (hv : v.isNull = false) (h : 2 ≤ p.arity) :
    q.filterIfNotNull d v p = do return some (← q.filter d (← p.bindSecond d.catalog v)) := by
  simp [filterIfNotNull, filterBound, hv, h]

theorem filterIfNotNullOrEmpty_eq (hempty : v ≠ .str "") (hexpr : ∀ e, v ≠ .expr e) :
    q.filterIfNotNullOrEmpty d v p = q.filterIfNotNull d v p := by
  unfold filterIfNotNullOrEmpty
  split
  · exact (hempty rfl).elim
  · exact (hexpr _ rfl).elim
  · rfl

end Query

open Predicate Query

/-- **A filter by a value calls its predicate with as many arguments as it takes.** A predicate that
can be called with one argument is called with the row. One that can only be called with two has its
second parameter fixed first and is called with the row and the value; fixing it fails only for a
captured lambda that reads a member of the value, and then the filter fails before any row is read.
In either case the predicate takes the arguments of the calls. A filter by a value that must not be
empty is the same one, unless the value is the empty text or an expression. -/
theorem Query.filterIfNotNull_filtersBy {E : Engine} (hE : E.SelectsRows) {d : Directory}
    {p : Predicate} (hp : p.IsCallable) {v : Value} (hv : v.isNull = false) (q : Query E) :
    (p.Accepts 1 → q.FiltersBy d (fun row => p.holds d [row]) (q.filterIfNotNull d v p)) ∧
    (¬ p.Accepts 1 → p.Accepts 2 →
      (∀ b, p.bindSecond d.catalog v = .ok b →
        q.FiltersBy d (fun row => p.holds d [row, v]) (q.filterIfNotNull d v p)) ∧
      (∀ e, p.bindSecond d.catalog v = .error e →
        (∃ c, p = .captured c ∧ c.bind d.catalog 1 v = .error e) ∧
        q.filterIfNotNull d v p = .error e)) ∧
    ((p.Accepts 1 ∨ p.Accepts 2 ∧ ∃ b, p.bindSecond d.catalog v = .ok b) →
      ∃ args : Value → List Value, (∀ row, p.Takes (args row)) ∧
        q.FiltersBy d (fun row => p.holds d (args row)) (q.filterIfNotNull d v p)) ∧
    (v ≠ .str "" → (∀ e, v ≠ .expr e) →
      q.filterIfNotNullOrEmpty d v p = q.filterIfNotNull d v p) := by
  have hone (h : p.Accepts 1) :
      q.FiltersBy d (fun row => p.holds d [row]) (q.filterIfNotNull d v p) := by
    rw [filterIfNotNull_of_arity_lt hv (arity_lt_two hp h), ← test_eq_holds]
    exact filtersBy_filter hE
  have htwo (h₁ : ¬ p.Accepts 1) (h₂ : p.Accepts 2) {b : Predicate}
      (hb : p.bindSecond d.catalog v = .ok b) :
      q.FiltersBy d (fun row => p.holds d [row, v]) (q.filterIfNotNull d v p) := by
    rw [filterIfNotNull_of_two_le_arity hv (two_le_arity hp h₁ h₂), hb,
      ← test_of_bindSecond hp h₂ hb]
    exact filtersBy_filter hE
  refine ⟨hone, fun h₁ h₂ => ⟨fun b => htwo h₁ h₂, fun e he => ⟨bindSecond_eq_error hp he, ?_⟩⟩,
    fun h => ?_, filterIfNotNullOrEmpty_eq⟩
  · rw [filterIfNotNull_of_two_le_arity hv (two_le_arity hp h₁ h₂), he]
    rfl
  · by_cases h₁ : p.Accepts 1
    · exact ⟨fun row => [row], fun row => h₁ _ rfl, hone h₁⟩
    · obtain ⟨h₂, b, hb⟩ := h.resolve_left h₁
      exact ⟨fun row => [row, v], fun row => h₂ _ rfl, htwo h₁ h₂ hb⟩

/-! ### Predicates that compare a key -/

namespace Query

/-- Mappings with one key. -/
private def noteSchema : Schema :=
  { key := .anonymous "Note", name := "Note", fields := [{ name := "k", access := .item }],
    maker := .mapping }

private def noteKey : Accessor := ⟨noteSchema, noteSchema.fields⟩

private def note (i : Int) : Value := .dict [(.str "k", .int i)]

/-- `k` of the row is the value; all further parameters have defaults. -/
private def noteIs : Lambda where
  params := [{ name := "r" }, { name := "v" }, { name := "w", default := some .null },
    { name := "more", kind := .rest }, { name := "flag", kind := .named, default := some .null }]
  body := .binary .eq (.item (.var "r") (.str "k")) (.var "v")

private theorem noteIs_defaultsLast : noteIs.DefaultsLast := by
  simp [Lambda.DefaultsLast, Lambda.positional, noteIs]

private theorem noteIs_accepts_iff {n : Nat} : noteIs.Accepts n ↔ 2 ≤ n := by
  rw [Lambda.accepts_iff noteIs_defaultsLast]
  simp [Lambda.required, Lambda.positional, Lambda.takesRest, noteIs]

/-- A lambda that insists on two arguments and takes any number of them. -/
theorem filterIfNotNull_filtersBy_notes :
    Engine.inMemory.SelectsRows ∧ (Predicate.lambda noteIs).IsCallable ∧
    (Value.int 5).isNull = false ∧ ¬ (Predicate.lambda noteIs).Accepts 1 ∧
    (Predicate.lambda noteIs).Accepts 2 ∧
    ∃ q', (ofList [note 5, note 1] noteSchema : Query .inMemory).filterIfNotNullOrEmpty {}
      (.int 5) (.lambda noteIs) = .ok (some q') ∧ q'.rows {} = .ok [note 5] := by
  have hcallable : (Predicate.lambda noteIs).IsCallable := .lambda noteIs_defaultsLast
  have hone : ¬ (Predicate.lambda noteIs).Accepts 1 := fun h => by
    simpa using noteIs_accepts_iff.mp h
  have htwo : (Predicate.lambda noteIs).Accepts 2 := noteIs_accepts_iff.mpr (Nat.le_refl 2)
  obtain ⟨-, hpair, -, hempty⟩ := filterIfNotNull_filtersBy Engine.selectsRows_inMemory (d := {})
    hcallable (v := .int 5) rfl (ofList [note 5, note 1] noteSchema)
  obtain ⟨q', hq', -, -, hrows⟩ := ((hpair hone htwo).1 _ rfl).keeps [note 5, note 1] rfl (by
    simp only [List.forall_mem_cons]
    exact ⟨⟨true, rfl⟩, ⟨false, rfl⟩, by simp⟩)
  refine ⟨Engine.selectsRows_inMemory, hcallable, rfl, hone, htwo, q', ?_, hrows⟩
  rw [hempty (by simp) (by simp), hq']

private def noteParam : Param := { key := 0, name := "r", index := 0, schema := some noteSchema }

private def otherNoteParam : Param :=
  { key := 1, name := "s", index := 1, schema := some noteSchema }

private def givenParam : Param := { key := 1, name := "v", index := 1, schema := none }

/-- A parameter of another lambda, which has the name of `givenParam`. -/
private def strayParam : Param := { key := 2, name := "v", index := 1, schema := none }

/-- The key of one row is that of the other. -/
private def sameKey : Captured where
  params := [noteParam, otherNoteParam]
  body := .binary .eq (.member noteParam noteKey) (.member otherNoteParam noteKey)

private theorem sameKey_wellFormed : sameKey.WellFormed where
  names := by decide
  identity := by simp [sameKey, noteParam, otherNoteParam]
  closed := by simp [sameKey, Expr.Over]

/-- The key of the row is the value, which is read by a parameter of another lambda. -/
private def strayKeyIs : Captured where
  params := [noteParam, givenParam]
  body := .binary .eq (.member noteParam noteKey) (.param strayParam)

/-- What the filters need: a captured lambda reads the members of the value before any row is there;
it has to be over parameters of its own, as one of the same name is found in a call and not when the
second parameter is fixed; and an expression is not to be compared with the empty text. -/
theorem filterIfNotNull_unlike_calls :
    (¬ ∀ (d : Directory) (p : Predicate) (v : Value) (q : Query .inMemory), p.IsCallable →
      v.isNull = false → ¬ p.Accepts 1 → p.Accepts 2 →
      q.FiltersBy d (fun row => p.holds d [row, v]) (q.filterIfNotNull d v p)) ∧
    (¬ ∀ (d : Directory) (c : Captured) (v : Value) (q : Query .inMemory), c.arity = 2 →
      v.isNull = false → (∃ s, c.bind d.catalog 1 v = .ok s) →
      q.FiltersBy d (fun row => c.holds d v row) (q.filterIfNotNull d v (.captured c))) ∧
    ¬ ∀ (d : Directory) (p : Predicate) (v : Value) (q : Query .inMemory), p.IsCallable →
      v.isNull = false → v ≠ .str "" → ¬ p.Accepts 1 → p.Accepts 2 →
      q.FiltersBy d (fun row => p.holds d [row, v]) (q.filterIfNotNullOrEmpty d v p) := by
  refine ⟨fun h => ?_, fun h => ?_, fun h => ?_⟩
  · have hcalls := h {} (.captured sameKey) (.int 5) (ofList [] noteSchema)
      (.captured sameKey_wellFormed) rfl
      (fun haccepts => by cases Predicate.arity_of_accepts haccepts) (fun args hargs => hargs)
    obtain ⟨q', hq', -⟩ := hcalls.keeps [] rfl (by simp)
    cases hq'
  · have hcalls := h {} strayKeyIs (.int 5) (ofList [note 5] noteSchema) rfl rfl ⟨_, rfl⟩
    obtain ⟨q', hq', -⟩ := hcalls.keeps [note 5] rfl (by
      simp only [List.forall_mem_cons]
      exact ⟨⟨true, rfl⟩, by simp⟩)
    cases hq'
  · have hcalls := h {} (.lambda noteIs) (.expr (.literal .null)) (ofList [] noteSchema)
      (.lambda noteIs_defaultsLast) rfl (by simp)
      (fun haccepts => by simpa using noteIs_accepts_iff.mp haccepts)
      (noteIs_accepts_iff.mpr (Nat.le_refl 2))
    obtain ⟨q', hq', -⟩ := hcalls.keeps [] rfl (by simp)
    cases hq'

end Query

end RecordQuery
