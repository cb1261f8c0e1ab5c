import RecordQuery.Proofs.Substitution

/-!
# The parameters that an expression reads

`Expr.reads` lists the parameters that an expression reads, from left to right. Whether a parameter
is referred to, and whether an expression is over some parameters, are questions about this list. A
substitution takes its parameter out of the list, keeps the others in their order and shares exactly
the parts that it finds nothing in (`Expr.removed_substitute`); where it finds nothing it reads
nothing either, and so cannot fail (`Expr.substitute_of_not_references`).
-/

namespace RecordQuery

mutual

/-- The parameters that the expression reads, once for each time that it reads them. -/
def Expr.reads : Expr → List Param
  | .literal _ | .unknown _ => []
  | .param p | .member p _ => [p]
  | .binary _ l r => l.reads ++ r.reads
  | .unary _ e => e.reads
  | .call _ args named none => argsReads args ++ namedReads named
  | .call _ args named (some e) => e.reads ++ argsReads args ++ namedReads named

/-- The same of an argument; a plain value reads no parameter. -/
def Value.operandReads : Value → List Param
  | .expr e => e.reads
  | _ => []

def argsReads : List Value → List Param
  | [] => []
  | v :: vs => v.operandReads ++ argsReads vs

def namedReads : List (String × Value) → List Param
  | [] => []
  | (_, v) :: rest => v.operandReads ++ namedReads rest

end

section

variable {p : Param}

mutual

theorem Expr.references_eq : ∀ e : Expr, e.references p = e.reads.any (·.is p)
  | .literal _ | .unknown _ => rfl
  | .param q | .member q _ => by simp [Expr.references, Expr.reads]
  | .binary _ l r => by simp [Expr.references, Expr.reads, l.references_eq, r.references_eq]
  | .unary _ e => by simp [Expr.references, Expr.reads, e.references_eq]
  | .call _ args named none => by
    simp [Expr.references, Expr.reads, argsReference_eq args, namedReference_eq named]
  | .call _ args named (some e) => by
    simp [Expr.references, Expr.reads, e.references_eq, argsReference_eq args,
      namedReference_eq named, Bool.or_assoc]

theorem Value.operandReferences_eq (v : Value) :
    v.operandReferences p = v.operandReads.any (·.is p) := by
  cases v with
  | expr e => exact e.references_eq
  | _ => rfl

theorem argsReference_eq : ∀ vs : List Value, argsReference p vs = (argsReads vs).any (·.is p)
  | [] => rfl
  | v :: vs => by simp [argsReference, argsReads, v.operandReferences_eq, argsReference_eq vs]

theorem namedReference_eq : ∀ vs : List (String × Value),
    namedReference p vs = (namedReads vs).any (·.is p)
  | [] => rfl
  | (_, v) :: rest => by
    simp [namedReference, namedReads, v.operandReferences_eq, namedReference_eq rest]

end

theorem Expr.references_eq_false_iff {e : Expr} :
    e.references p = false ↔ ∀ q ∈ e.reads, q.is p = false := by
  rw [e.references_eq, List.any_eq_false]
  simp

end

section

variable {P : Param → Prop}

mutual

theorem Expr.over_iff : ∀ e : Expr, e.Over P ↔ ∀ q ∈ e.reads, P q
  | .literal _ | .unknown _ => by simp [Expr.Over, Expr.reads]
  | .param q | .member q _ => by simp [Expr.Over, Expr.reads]
  | .binary _ l r => by
    simp [Expr.Over, Expr.reads, l.over_iff, r.over_iff, or_imp, forall_and]
  | .unary _ e => by simp [Expr.Over, Expr.reads, e.over_iff]
  | .call _ args named none => by
    simp [Expr.Over, Expr.reads, argsOver_iff args, namedOver_iff named, or_imp, forall_and]
  | .call _ args named (some e) => by
    simp [Expr.Over, Expr.reads, e.over_iff, argsOver_iff args, namedOver_iff named, or_imp,
      forall_and]

theorem Value.operandOver_iff (v : Value) : v.OperandOver P ↔ ∀ q ∈ v.operandReads, P q := by
  cases v with
  | expr e => exact e.over_iff
  | _ => simp [Value.OperandOver, Value.operandReads]

theorem argsOver_iff : ∀ vs : List Value, ArgsOver P vs ↔ ∀ q ∈ argsReads vs, P q
  | [] => by simp [ArgsOver, argsReads]
  | v :: vs => by
    simp [ArgsOver, argsReads, v.operandOver_iff, argsOver_iff vs, or_imp, forall_and]

theorem namedOver_iff : ∀ vs : List (String × Value), NamedOver P vs ↔ ∀ q ∈ namedReads vs, P q
  | [] => by simp [NamedOver, namedReads]
  | (_, v) :: rest => by
    simp [NamedOver, namedReads, v.operandOver_iff, namedOver_iff rest, or_imp, forall_and]

end

end

/-! ### What a substitution leaves -/

section

variable {catalog : Catalog} {p : Param} {v : Value}

mutual

/-- An expression that does not refer to the parameter is returned as it is. -/
theorem Expr.substitute_of_not_references :
    ∀ {e : Expr}, e.references p = false → e.substitute catalog p v = .ok ⟨e, true⟩
  | .literal _, _ | .unknown _, _ => rfl
  | .param q, h | .member q _, h => by
    rw [Expr.references] at h
    simp [Expr.substitute, h]
  | .binary op l r, h => by
    rw [Expr.references, Bool.or_eq_false_iff] at h
    simp [Expr.substitute, Expr.substitute_of_not_references h.1,
      Expr.substitute_of_not_references h.2]
  | .unary op e, h => by
    rw [Expr.references] at h
    simp [Expr.substitute, Expr.substitute_of_not_references h]
  | .call method args named none, h => by
    rw [Expr.references, Bool.or_eq_false_iff] at h
    simp [Expr.substitute, substituteArgs_of_not_references h.1,
      substituteNamed_of_not_references h.2]
  | .call method args named (some e), h => by
    simp only [Expr.references, Bool.or_eq_false_iff] at h
    simp [Expr.substitute, Expr.substitute_of_not_references h.1.1,
      substituteArgs_of_not_references h.1.2, substituteNamed_of_not_references h.2]

theorem Value.substituteOperand_of_not_references (w : Value)
    (h : w.operandReferences p = false) :
    Value.substituteOperand catalog p v w = .ok ⟨w, true⟩ := by
  cases w with
  | expr e =>
    have he : e.references p = false := h
    simp [Value.substituteOperand, Expr.substitute_of_not_references he]
  | _ => rfl

theorem substituteArgs_of_not_references :
    ∀ {vs : List Value}, argsReference p vs = false →
      substituteArgs catalog p v vs = .ok ⟨vs, true⟩
  | [], _ => rfl
  | w :: ws, h => by
    rw [argsReference, Bool.or_eq_false_iff] at h
    simp [substituteArgs, w.substituteOperand_of_not_references h.1,
      substituteArgs_of_not_references h.2]

theorem substituteNamed_of_not_references :
    ∀ {vs : List (String × Value)}, namedReference p vs = false →
      substituteNamed catalog p v vs = .ok ⟨vs, true⟩
  | [], _ => rfl
  | (n, w) :: ws, h => by
    rw [namedReference, Bool.or_eq_false_iff] at h
    simp [substituteNamed, w.substituteOperand_of_not_references h.1,
      substituteNamed_of_not_references h.2]

end

/-- The parameters read before and after a substitution for `p`: those that are not `p` are left,
and the part is shared exactly if all of them are. -/
structure Removed (p : Param) (before after : List Param) (shared : Bool) : Prop where
  after_eq : after = before.filter fun q => !q.is p
  shared_eq : shared = before.all fun q => !q.is p

theorem Removed.nil : Removed p [] [] true := ⟨rfl, rfl⟩

theorem Removed.append {before₁ after₁ before₂ after₂ : List Param} {shared₁ shared₂ : Bool}
    (h₁ : Removed p before₁ after₁ shared₁) (h₂ : Removed p before₂ after₂ shared₂) :
    Removed p (before₁ ++ before₂) (after₁ ++ after₂) (shared₁ && shared₂) where
  after_eq := by rw [h₁.after_eq, h₂.after_eq, List.filter_append]
  shared_eq := by rw [h₁.shared_eq, h₂.shared_eq, List.all_append]

mutual

theorem Expr.removed_substitute :
    ∀ {e : Expr} {s : Substituted Expr}, e.substitute catalog p v = .ok s →
      Removed p e.reads s.result.reads s.shared
  | .literal _, s, h | .unknown _, s, h => by
    cases h
    exact .nil
  | .param q, s, h => by
    rw [Expr.substitute, Except.ok.injEq] at h
    subst h
    cases hq : q.is p <;> exact ⟨by simp [Expr.reads, hq], by simp [Expr.reads, hq]⟩
  | .member q a, s, h => by
    rw [Expr.substitute] at h
    cases hq : q.is p with
    | true =>
      rw [if_pos hq] at h
      obtain ⟨w, -, h⟩ := Except.bind_eq_ok.mp h
      cases h
      exact ⟨by simp [Expr.reads, hq], by simp [Expr.reads, hq]⟩
    | false =>
      rw [if_neg (by simp [hq])] at h
      cases h
      exact ⟨by simp [Expr.reads, hq], by simp [Expr.reads, hq]⟩
  | .binary op l r, s, h => by
    rw [Expr.substitute] at h
    obtain ⟨l', hl, h⟩ := Except.bind_eq_ok.mp h
    obtain ⟨r', hr, h⟩ := Except.bind_eq_ok.mp h
    cases h
    exact (Expr.removed_substitute hl).append (Expr.removed_substitute hr)
  | .unary op e, s, h => by
    rw [Expr.substitute] at h
    obtain ⟨e', he, h⟩ := Except.bind_eq_ok.mp h
    cases h
    have hremoved := Expr.removed_substitute he
    exact hremoved
  | .call method args named none, s, h => by
    rw [Expr.substitute] at h
    obtain ⟨args', hargs, h⟩ := Except.bind_eq_ok.mp h
    obtain ⟨named', hnamed, h⟩ := Except.bind_eq_ok.mp h
    cases h
    exact (removed_substituteArgs hargs).append (removed_substituteNamed hnamed)
  | .call method args named (some e), s, h => by
    rw [Expr.substitute] at h
    obtain ⟨e', he, h⟩ := Except.bind_eq_ok.mp h
    obtain ⟨args', hargs, h⟩ := Except.bind_eq_ok.mp h
    obtain ⟨named', hnamed, h⟩ := Except.bind_eq_ok.mp h
    cases h
    exact ((Expr.removed_substitute he).append (removed_substituteArgs hargs)).append
      (removed_substituteNamed hnamed)

theorem Value.removed_substituteOperand (w : Value) {s : Substituted Value}
    (h : Value.substituteOperand catalog p v w = .ok s) :
    Removed p w.operandReads s.result.operandReads s.shared := by
  cases w with
  | expr e =>
    rw [Value.substituteOperand] at h
    obtain ⟨e', he, h⟩ := Except.bind_eq_ok.mp h
    cases h
    exact Expr.removed_substitute (e := e) he
  | _ =>
    cases h
    exact .nil

theorem removed_substituteArgs :
    ∀ {vs : List Value} {s : Substituted (List Value)}, substituteArgs catalog p v vs = .ok s →
      Removed p (argsReads vs) (argsReads s.result) s.shared
  | [], s, h => by
    cases h
    exact .nil
  | w :: ws, s, h => by
    rw [substituteArgs] at h
    obtain ⟨w', hw, h⟩ := Except.bind_eq_ok.mp h
    obtain ⟨ws', hws, h⟩ := Except.bind_eq_ok.mp h
    cases h
    exact (w.removed_substituteOperand hw).append (removed_substituteArgs hws)

theorem removed_substituteNamed :
    ∀ {vs : List (String × Value)} {s : Substituted (List (String × Value))},
      substituteNamed catalog p v vs = .ok s →
      Removed p (namedReads vs) (namedReads s.result) s.shared
  | [], s, h => by
    cases h
    exact .nil
  | (n, w) :: ws, s, h => by
    rw [substituteNamed] at h
    obtain ⟨w', hw, h⟩ := Except.bind_eq_ok.mp h
    obtain ⟨ws', hws, h⟩ := Except.bind_eq_ok.mp h
    cases h
    exact (w.removed_substituteOperand hw).append (removed_substituteNamed hws)

end

namespace Expr

variable {e : Expr} {s : Substituted Expr}

/-- What is left of an expression over some parameters is over those that were not replaced. -/
theorem over_substitute {P : Param → Prop} (hP : e.Over P)
    (h : e.substitute catalog p v = .ok s) : s.result.Over fun q => P q ∧ q.is p = false := by
  rw [over_iff] at hP ⊢
  rw [(removed_substitute h).after_eq]
  intro q hq
  obtain ⟨hq, hqp⟩ := List.mem_filter.mp hq
  exact ⟨hP q hq, by simpa using hqp⟩

theorem shared_iff (h : e.substitute catalog p v = .ok s) :
    s.shared = true ↔ e.references p = false := by
  rw [(removed_substitute h).shared_eq, references_eq_false_iff, List.all_eq_true]
  simp

end Expr

end

namespace Expr

/-- **Substitution removes its parameter and nothing else.** What is left does not refer to the
parameter, and refers to any other one as before. It is the expression itself, as a part that is
shared and as a tree, exactly if the expression did not refer to the parameter. -/
theorem substitute_removes {catalog : Catalog} {p q : Param} (hpq : q.is p = false)
    {v : Value} {e : Expr} {s : Substituted Expr} (h : e.substitute catalog p v = .ok s) :
    s.result.references p = false ∧ s.result.references q = e.references q ∧
      (s.shared = true ↔ e.references p = false) ∧
      (s.result = e ↔ e.references p = false) := by
  have hafter := (removed_substitute h).after_eq
  have hp : s.result.references p = false := by
    rw [references_eq_false_iff, hafter]
    intro x hx
    simpa using (List.mem_filter.mp hx).2
  refine ⟨hp, ?_, shared_iff h, fun hsame => by rwa [hsame] at hp, fun hunread => ?_⟩
  · rw [references_eq, references_eq, hafter, List.any_filter]
    congr 1
    funext x
    cases hx : x.is q with
    | false => simp
    | true =>
      -- parameters are told apart by their keys, so what is `q` is not `p`
      have hxp : x.is p = false := by
        simp only [Param.is, beq_iff_eq, beq_eq_false_iff_ne] at hx hpq ⊢
        rwa [hx]
      simp [hxp]
  · rw [substitute_of_not_references hunread] at h
    cases h
    rfl

/-- Mappings with a name. -/
private def tagSchema : Schema :=
  { key := .anonymous "Tag", name := "Tag", fields := [{ name := "name", access := .item }],
    maker := .mapping }

private def tagParam : Param := { key := 0, name := "t", index := 0, schema := some tagSchema }

private def markParam : Param := { key := 1, name := "m", index := 1, schema := none }

/-- The name with the mark taken out is the mark: the mark is read by an argument, beside a plain
value, and by an operand. -/
private def unmarked : Expr :=
  .binary .eq
    (.call "replace" [.expr (.param markParam), .str ""] []
      (some (.member tagParam ⟨tagSchema, tagSchema.fields⟩)))
    (.param markParam)

/-- The mark is replaced, and the member chain on the other parameter stays. -/
theorem substitute_removes_mark :
    tagParam.is markParam = false ∧ ∃ s, unmarked.substitute {} markParam (.str "-") = .ok s ∧
      s.result.references markParam = false ∧ s.result.references tagParam = true ∧
      s.shared = false := by
  have hother : tagParam.is markParam = false := by decide
  obtain ⟨s, hs⟩ : ∃ s, unmarked.substitute {} markParam (.str "-") = .ok s := ⟨_, rfl⟩
  obtain ⟨hgone, hkept, hshared, -⟩ := substitute_removes hother hs
  refine ⟨hother, s, hs, hgone, hkept.trans rfl, ?_⟩
  have hread : unmarked.references markParam = true := rfl
  cases hflag : s.shared with
  | false => rfl
  | true => simp [hshared.mp hflag] at hread

end Expr

end RecordQuery
