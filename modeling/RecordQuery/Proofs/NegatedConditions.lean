import RecordQuery.Proofs.Filtering
import RecordQuery.Proofs.MemoryTables
import RecordQuery.Proofs.NullSafety

/-!
# Negated conditions

A condition is true, false or null on a row (`Expr.IsCondition.exists_truth`). Comparisons and
negations hand null on; "and" and "or" count it as false. So the negation of a joined condition and
the junction of the negated ones keep the same rows except where one of the two conditions is null
and the other does not decide: there the negated junction keeps the row, and the junction of the
negations drops it (`Query.filter_negated`).
-/

namespace RecordQuery

namespace Value

/-- True, false, or null for neither. -/
def ofTruth : Option Bool → Value
  | some p => .bool p
  | none => .null

theorem truthy_ofTruth (t : Option Bool) : (ofTruth t).truthy = .ok (t.getD false) := by
  cases t <;> rfl

variable {catalog : Catalog} {a b v : Value} {p : Bool}

/-- A comparison that can be asked for its truth is no captured one. -/
theorem exists_bool_of_operate {op : BinaryOp} (hop : op.IsComparison)
    (hv : a.operate catalog op b = .ok v) (hp : v.truthy = .ok p) : ∃ q, v = .bool q := by
  have hplain (h : a.operatePlain catalog op b = .ok v) : ∃ q, v = .bool q := by
    cases hop <;> obtain ⟨q, -, h⟩ := Except.bind_eq_ok.1 h <;> cases h <;> exact ⟨_, rfl⟩
  unfold operate at hv
  split at hv
  · cases hv
    cases hp
  · rw [operateReflected_comparison hop] at hv
    cases hv
    cases hp
  · exact hplain hv

end Value

open Value

theorem BinaryOp.IsComparison.exists_truth {catalog : Catalog} {op : BinaryOp} {a b v : Value}
    {p : Bool} (hop : op.IsComparison) (hv : op.apply catalog a b = .ok v)
    (hp : v.truthy = .ok p) : ∃ t, v = ofTruth t := by
  have hbool (h : a.operate catalog op b = .ok v) : ∃ t, v = ofTruth t := by
    obtain ⟨q, rfl⟩ := exists_bool_of_operate hop h hp
    exact ⟨some q, rfl⟩
  have hguarded (h : (if a.isNull || b.isNull then .ok .null else a.operate catalog op b) =
      Except.ok v) : ∃ t, v = ofTruth t := by
    split at h
    · cases h
      exact ⟨none, rfl⟩
    · exact hbool h
  cases hop with
  | eq | ne => exact hbool hv
  | lt | le | gt | ge => exact hguarded hv

namespace Expr

/-- The expression is built from comparisons and null tests by "and", "or" and "not". -/
inductive IsCondition : Expr → Prop
  | comparison {op : BinaryOp} {l r : Expr} (hop : op.IsComparison) : IsCondition (.binary op l r)
  | nullTest {method : String} {e : Expr} (hmethod : method = "is_null" ∨ method = "is_not_null") :
    IsCondition (.call method [] [] (some e))
  | junction {op : BinaryOp} {a b : Expr} (hop : op.IsJunction) (ha : IsCondition a)
    (hb : IsCondition b) : IsCondition (.binary op a b)
  | not {a : Expr} (ha : IsCondition a) : IsCondition (.unary .not a)

variable {d : Directory} {env : Env} {a b e : Expr} {t u : Option Bool}

/-- Negation hands null on. -/
theorem evaluate_not (h : e.evaluate d env = .ok (ofTruth t)) :
    (Expr.unary .not e).evaluate d env = .ok (ofTruth (t.map (!·))) := by
  rw [evaluate, h]
  cases t <;> rfl

/-- "And" counts null as false. -/
theorem evaluate_and (ha : a.evaluate d env = .ok (ofTruth t))
    (hb : b.evaluate d env = .ok (ofTruth u)) :
    (Expr.binary .and a b).evaluate d env =
      .ok (ofTruth (some (t.getD false && u.getD false))) := by
  rw [evaluate, ha, hb]
  rcases t with _ | _ | _ <;> rcases u with _ | _ | _ <;> rfl

/-- "Or" counts null as false. -/
theorem evaluate_or (ha : a.evaluate d env = .ok (ofTruth t))
    (hb : b.evaluate d env = .ok (ofTruth u)) :
    (Expr.binary .or a b).evaluate d env =
      .ok (ofTruth (some (t.getD false || u.getD false))) := by
  rw [evaluate, ha, hb]
  rcases t with _ | _ | _ <;> rcases u with _ | _ | _ <;> rfl

/-- What a condition evaluates to, where it can be asked for its truth. -/
theorem IsCondition.exists_truth {v : Value} {p : Bool} (h : e.IsCondition)
    (hv : e.evaluate d env = .ok v) (hp : v.truthy = .ok p) : ∃ t, v = ofTruth t := by
  cases h with
  | comparison hop =>
    rw [evaluate] at hv
    obtain ⟨x, -, hv⟩ := Except.bind_eq_ok.1 hv
    obtain ⟨y, -, hv⟩ := Except.bind_eq_ok.1 hv
    exact hop.exists_truth hv hp
  | nullTest hmethod =>
    rw [evaluate] at hv
    obtain ⟨x, -, hv⟩ := Except.bind_eq_ok.1 hv
    rcases hmethod with rfl | rfl
    · cases hv
      exact ⟨some x.isNull, rfl⟩
    · cases hv
      exact ⟨some !x.isNull, rfl⟩
  | junction hop =>
    rw [evaluate] at hv
    obtain ⟨x, -, hv⟩ := Except.bind_eq_ok.1 hv
    obtain ⟨y, -, hv⟩ := Except.bind_eq_ok.1 hv
    cases hop <;> obtain ⟨q, -, hv⟩ := Except.bind_eq_ok.1 hv
    · cases q
      · cases hv
        exact ⟨some false, rfl⟩
      · obtain ⟨r, -, hv⟩ := Except.bind_eq_ok.1 hv
        cases hv
        exact ⟨some r, rfl⟩
    · cases q
      · obtain ⟨r, -, hv⟩ := Except.bind_eq_ok.1 hv
        cases hv
        exact ⟨some r, rfl⟩
      · cases hv
        exact ⟨some true, rfl⟩
  | not =>
    rw [evaluate] at hv
    obtain ⟨x, -, hv⟩ := Except.bind_eq_ok.1 hv
    rw [UnaryOp.apply] at hv
    split at hv
    · cases hv
      exact ⟨none, rfl⟩
    · obtain ⟨q, -, hv⟩ := Except.bind_eq_ok.1 hv
      cases hv
      exact ⟨some !q, rfl⟩

end Expr

namespace Captured

/-- `~(a & b)`. -/
def notBoth (params : List Param) (a b : Expr) : Captured where
  params
  body := .unary .not (.binary .and a b)

/-- `(~a) | (~b)`. -/
def eitherNot (params : List Param) (a b : Expr) : Captured where
  params
  body := .binary .or (.unary .not a) (.unary .not b)

/-- `~(a | b)`. -/
def notEither (params : List Param) (a b : Expr) : Captured where
  params
  body := .unary .not (.binary .or a b)

/-- `(~a) & (~b)`. -/
def bothNot (params : List Param) (a b : Expr) : Captured where
  params
  body := .binary .and (.unary .not a) (.unary .not b)

/-- Is the condition true of a row? -/
def test (d : Directory) (c : Captured) (row : Value) : Except Error Bool :=
  (Predicate.captured c).test d row

/-- Does a filter by the condition keep a row? -/
def keeps (d : Directory) (c : Captured) (row : Value) : Bool :=
  passes (c.test d) row

/-- One of two truths is null, and neither is the one that decides their junction: false for "and",
true for "or". -/
def undecided (deciding : Bool) (t u : Option Bool) : Bool :=
  (t.isNone || u.isNone) && t != some deciding && u != some deciding

variable {d : Directory} {params : List Param} {a b : Expr} {row : Value} {t u : Option Bool}

theorem test_of_call {c : Captured} (h : c.call d [row] = .ok (ofTruth t)) :
    c.test d row = .ok (t.getD false) := by
  simp [test, Predicate.test, Predicate.call, h, truthy_ofTruth]

theorem keeps_of_call {c : Captured} (h : c.call d [row] = .ok (ofTruth t)) :
    c.keeps d row = t.getD false := by
  rw [keeps, passes, test_of_call h]
  rfl

theorem evaluate_of_call {c : Captured} {v : Value} (h : c.call d [row] = .ok v) :
    [row].length = c.arity ∧ c.body.evaluate d (c.environment [row]) = .ok v := by
  rw [call] at h
  split at h
  · exact ⟨‹_›, h⟩
  · cases h

/-- Another body over the same parameters. -/
theorem call_of_evaluate {e : Expr} {v w : Value} (ha : Captured.call d ⟨params, a⟩ [row] = .ok v)
    (he : e.evaluate d (Captured.environment ⟨params, a⟩ [row]) = .ok w) :
    Captured.call d ⟨params, e⟩ [row] = .ok w := by
  have hlength : [row].length = Captured.arity ⟨params, e⟩ := (evaluate_of_call ha).1
  rw [call, if_pos hlength]
  exact he

/-- A condition that a filter can test is true, false or null. -/
theorem exists_truth_of_test {c : Captured} (hc : c.body.IsCondition) {p : Bool}
    (h : c.test d row = .ok p) : ∃ t, c.call d [row] = .ok (ofTruth t) := by
  obtain ⟨v, hcall, hp⟩ := Except.bind_eq_ok.1 h
  have hcall : c.call d [row] = .ok v := hcall
  obtain ⟨t, rfl⟩ := hc.exists_truth (evaluate_of_call hcall).2 hp
  exact ⟨t, hcall⟩

section Answers

variable (ha : Captured.call d ⟨params, a⟩ [row] = .ok (ofTruth t))
  (hb : Captured.call d ⟨params, b⟩ [row] = .ok (ofTruth u))

include ha hb

theorem call_notBoth :
    (notBoth params a b).call d [row] = .ok (ofTruth (some !(t.getD false && u.getD false))) :=
  call_of_evaluate ha
    (Expr.evaluate_not (Expr.evaluate_and (evaluate_of_call ha).2 (evaluate_of_call hb).2))

theorem call_eitherNot :
    (eitherNot params a b).call d [row] =
      .ok (ofTruth (some ((t.map (!·)).getD false || (u.map (!·)).getD false))) :=
  call_of_evaluate ha (Expr.evaluate_or (Expr.evaluate_not (evaluate_of_call ha).2)
    (Expr.evaluate_not (evaluate_of_call hb).2))

theorem call_notEither :
    (notEither params a b).call d [row] = .ok (ofTruth (some !(t.getD false || u.getD false))) :=
  call_of_evaluate ha
    (Expr.evaluate_not (Expr.evaluate_or (evaluate_of_call ha).2 (evaluate_of_call hb).2))

theorem call_bothNot :
    (bothNot params a b).call d [row] =
      .ok (ofTruth (some ((t.map (!·)).getD false && (u.map (!·)).getD false))) :=
  call_of_evaluate ha (Expr.evaluate_and (Expr.evaluate_not (evaluate_of_call ha).2)
    (Expr.evaluate_not (evaluate_of_call hb).2))

/-- The negated "and" keeps what the "or" of the negations keeps, and the rows on which null leaves
the "and" undecided. -/
theorem keeps_notBoth :
    (notBoth params a b).keeps d row =
      ((eitherNot params a b).keeps d row || undecided false t u) ∧
    (undecided false t u = true → (eitherNot params a b).keeps d row = false) := by
  rw [keeps_of_call (call_notBoth ha hb), keeps_of_call (call_eitherNot ha hb)]
  rcases t with _ | _ | _ <;> rcases u with _ | _ | _ <;> decide

/-- The negated "or" keeps what the "and" of the negations keeps, and the rows on which null leaves
the "or" undecided. -/
theorem keeps_notEither :
    (notEither params a b).keeps d row =
      ((bothNot params a b).keeps d row || undecided true t u) ∧
    (undecided true t u = true → (bothNot params a b).keeps d row = false) := by
  rw [keeps_of_call (call_notEither ha hb), keeps_of_call (call_bothNot ha hb)]
  rcases t with _ | _ | _ <;> rcases u with _ | _ | _ <;> decide

/-- The four conditions can be tested where the two that they are made of can. -/
theorem exists_test_of_call {c : Captured}
    (hc : c ∈ [notBoth params a b, eitherNot params a b, notEither params a b,
      bothNot params a b]) : ∃ p, c.test d row = .ok p := by
  simp only [List.mem_cons, List.not_mem_nil, or_false] at hc
  rcases hc with rfl | rfl | rfl | rfl
  · exact ⟨_, test_of_call (call_notBoth ha hb)⟩
  · exact ⟨_, test_of_call (call_eitherNot ha hb)⟩
  · exact ⟨_, test_of_call (call_notEither ha hb)⟩
  · exact ⟨_, test_of_call (call_bothNot ha hb)⟩

end Answers

end Captured

namespace Query

open Captured

variable {E : Engine} {d : Directory} {q : Query E} {rows : List Value}

/-- A filter keeps the rows that its condition is true of, if it can be tested on all of them. -/
theorem filter_keeps (hE : E.SelectsRows) {c : Captured} (hrows : q.rows d = .ok rows)
    (htests : ∀ row ∈ rows, ∃ p, c.test d row = .ok p) :
    ∃ q', q.filter d (.captured c) = .ok q' ∧ q'.rows d = .ok (rows.filter (c.keeps d)) := by
  obtain ⟨q', hq', -, -, hread⟩ := filter_ok hE hrows (keepIf_eq_ok.2 ⟨htests, rfl⟩)
  exact ⟨q', hq', hread⟩

/-- **Filters by negated conditions.** Where two conditions can be tested on every row, so can the
negations of their junctions and the junctions of their negations. Of each row both conditions are
true, false or null, and the two forms of a negated junction keep it or drop it alike, unless one of
the conditions is null and neither decides the junction: then the negation keeps the row and the
other form drops it. -/
theorem filter_negated (hE : E.SelectsRows) {params : List Param} {a b : Expr}
    (ha : a.IsCondition) (hb : b.IsCondition) (hrows : q.rows d = .ok rows)
    (htests : ∀ row ∈ rows, (∃ p, Captured.test d ⟨params, a⟩ row = .ok p) ∧
      ∃ p, Captured.test d ⟨params, b⟩ row = .ok p) :
    (∀ c ∈ [notBoth params a b, eitherNot params a b, notEither params a b, bothNot params a b],
      ∃ q', q.filter d (.captured c) = .ok q' ∧ q'.rows d = .ok (rows.filter (c.keeps d))) ∧
    ∀ row ∈ rows, ∃ t u : Option Bool,
      Captured.call d ⟨params, a⟩ [row] = .ok (ofTruth t) ∧
      Captured.call d ⟨params, b⟩ [row] = .ok (ofTruth u) ∧
      (undecided false t u = false →
        (notBoth params a b).keeps d row = (eitherNot params a b).keeps d row) ∧
      (undecided false t u = true →
        (notBoth params a b).keeps d row = true ∧ (eitherNot params a b).keeps d row = false) ∧
      (undecided true t u = false →
        (notEither params a b).keeps d row = (bothNot params a b).keeps d row) ∧
      (undecided true t u = true →
        (notEither params a b).keeps d row = true ∧ (bothNot params a b).keeps d row = false) := by
  have hanswers : ∀ row ∈ rows, ∃ t u,
      Captured.call d ⟨params, a⟩ [row] = .ok (ofTruth t) ∧
        Captured.call d ⟨params, b⟩ [row] = .ok (ofTruth u) := by
    intro row hrow
    obtain ⟨⟨p, hp⟩, p', hp'⟩ := htests row hrow
    obtain ⟨t, ht⟩ := exists_truth_of_test ha hp
    obtain ⟨u, hu⟩ := exists_truth_of_test hb hp'
    exact ⟨t, u, ht, hu⟩
  refine ⟨fun c hc => filter_keeps hE hrows fun row hrow => ?_, fun row hrow => ?_⟩
  · obtain ⟨t, u, ht, hu⟩ := hanswers row hrow
    exact exists_test_of_call ht hu hc
  · obtain ⟨t, u, ht, hu⟩ := hanswers row hrow
    obtain ⟨hboth, hboth'⟩ := keeps_notBoth ht hu
    obtain ⟨heither, heither'⟩ := keeps_notEither ht hu
    refine ⟨t, u, ht, hu, fun h => ?_, fun h => ⟨?_, hboth' h⟩, fun h => ?_,
      fun h => ⟨?_, heither' h⟩⟩
    · rw [hboth, h, Bool.or_false]
    · rw [hboth, h, Bool.or_true]
    · rw [heither, h, Bool.or_false]
    · rw [heither, h, Bool.or_true]

/-- Mappings with the key `k`. -/
private def counted : Schema :=
  { key := .anonymous "Counted", name := "Counted", fields := [{ name := "k", access := .item }],
    maker := .mapping }

private def counter : Param := { key := 0, name := "r", index := 0, schema := some counted }

/-- `r.k`. -/
private def count : Expr := .member counter ⟨counted, counted.fields⟩

/-- `r.k > 1`. -/
private def several : Expr := .binary .gt count (.literal (.int 1))

/-- `r.k.is_null()`. -/
private def unknownCount : Expr := .call "is_null" [] [] (some count)

/-- A row without a count, and one with a count. -/
private def counts : List Value := [.dict [(.str "k", .null)], .dict [(.str "k", .int 5)]]

private theorem test_counts : ∀ row ∈ counts,
    (∃ p, Captured.test {} ⟨[counter], several⟩ row = .ok p) ∧
      ∃ p, Captured.test {} ⟨[counter], unknownCount⟩ row = .ok p :=
  List.forall_mem_cons.2 ⟨⟨⟨_, rfl⟩, _, rfl⟩, List.forall_mem_cons.2 ⟨⟨⟨_, rfl⟩, _, rfl⟩, nofun⟩⟩

/-- The filters by the two conditions on a row without a count and on one with a count. -/
theorem filter_negated_counts :
    Engine.inMemory.SelectsRows ∧ several.IsCondition ∧ unknownCount.IsCondition ∧
      (ofList counts counted : Query .inMemory).rows {} = .ok counts ∧
      ∃ q', (ofList counts counted : Query .inMemory).filter {}
        (.captured (notEither [counter] several unknownCount)) = .ok q' ∧
        q'.rows {} = .ok (counts.filter ((notEither [counter] several unknownCount).keeps {})) :=
  ⟨Engine.selectsRows_inMemory, .comparison .gt, .nullTest (.inl rfl), rfl,
    (filter_negated Engine.selectsRows_inMemory (.comparison .gt) (.nullTest (.inl rfl)) rfl
      test_counts).1 _ (.tail _ (.tail _ (.head _)))⟩

/-- On the row without a count, `r.k > 1` is null and `r.k.is_null()` is true: the negated "and"
keeps the row, and the "or" of the negations drops it. -/
theorem not_keeps_notBoth_iff :
    ¬ ∀ (d : Directory) (q : Query .inMemory) (rows : List Value) (params : List Param)
        (a b : Expr),
      a.IsCondition → b.IsCondition → q.rows d = .ok rows →
      (∀ row ∈ rows, (∃ p, Captured.test d ⟨params, a⟩ row = .ok p) ∧
        ∃ p, Captured.test d ⟨params, b⟩ row = .ok p) →
      ∀ row ∈ rows, ((notBoth params a b).keeps d row = true ↔
        (eitherNot params a b).keeps d row = true) := by
  intro h
  have hkeeps := h {} (ofList counts counted) counts [counter] several
    unknownCount (.comparison .gt) (.nullTest (.inl rfl)) rfl test_counts _ (.head _)
  have hdrops : (eitherNot [counter] several unknownCount).keeps {} (.dict [(.str "k", .null)]) =
      false := rfl
  rw [hdrops] at hkeeps
  exact Bool.false_ne_true (hkeeps.1 rfl)

end Query
end RecordQuery
