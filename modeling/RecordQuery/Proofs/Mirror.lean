import Mathlib.Data.String.Basic
import RecordQuery.Proofs.Success
import RecordQuery.Value.Arithmetic

/-!
# Literals as operands

The literals of a lambda body are integers, texts and truth values. Operators on two of them give
literals again (`IsLiteral.operatePlain`), and a comparison of a literal with any value is the
comparison of that value with the literal, with the operator turned round (`IsLiteral.mirror`).
-/

namespace RecordQuery

/-- The operator that compares the other way round. Operators that compare nothing stay. -/
def BinaryOp.mirror : BinaryOp → BinaryOp
  | .lt => .gt
  | .le => .ge
  | .gt => .lt
  | .ge => .le
  | op => op

/-- The operator is a sum, a difference or a product. -/
inductive BinaryOp.IsArithmetic : BinaryOp → Prop
  | add : IsArithmetic .add
  | sub : IsArithmetic .sub
  | mul : IsArithmetic .mul

/-- The operator is a comparison. -/
inductive BinaryOp.IsComparison : BinaryOp → Prop
  | eq : IsComparison .eq
  | ne : IsComparison .ne
  | lt : IsComparison .lt
  | le : IsComparison .le
  | gt : IsComparison .gt
  | ge : IsComparison .ge

/-- The operator joins two conditions. -/
inductive BinaryOp.IsJunction : BinaryOp → Prop
  | and : IsJunction .and
  | or : IsJunction .or

theorem BinaryOp.IsComparison.mirror {op : BinaryOp} (h : op.IsComparison) :
    op.mirror.IsComparison := by
  cases h <;> constructor

theorem Number.compare?_int_swap (i : Int) (x : Number) :
    x.compare? (.int i) = ((Number.int i).compare? x).map (·.swap) := by
  cases x with
  | int j => exact congrArg some (Int.compare_swap i j).symm
  | float e => cases h : e.compareInt? i <;> simp [compare?, h]

namespace Value

variable {catalog : Catalog} {a b v : Value}

theorem operateReflected_arithmetic {op : BinaryOp} (hop : op.IsArithmetic) (e : Expr) :
    operateReflected catalog op a e = .ok (.expr (.binary op (.literal a) e)) := by
  cases hop <;> rfl

theorem operateReflected_comparison {op : BinaryOp} (hop : op.IsComparison) (e : Expr) :
    operateReflected catalog op a e = .ok (.expr (.binary op.mirror e (.literal a))) := by
  cases hop <;> rfl

theorem operateReflected_junction {op : BinaryOp} (hop : op.IsJunction) (e : Expr) :
    operateReflected catalog op a e = fail .wrongType := by
  cases hop <;> rfl

/-- The value is a literal of a lambda body. -/
inductive IsLiteral : Value → Prop
  | int (i : Int) : IsLiteral (.int i)
  | str (s : String) : IsLiteral (.str s)
  | bool (b : Bool) : IsLiteral (.bool b)

namespace IsLiteral

theorem lift (h : a.IsLiteral) : a.lift = .literal a := by
  cases h <;> rfl

theorem operate (ha : a.IsLiteral) (hb : b.IsLiteral) (op : BinaryOp) :
    a.operate catalog op b = a.operatePlain catalog op b := by
  cases ha <;> cases hb <;> rfl

/-! ### Operators on two literals -/

theorem times (h : a.IsLiteral) {n : Int} (hv : a.times n = .ok v) : v.IsLiteral := by
  cases h with
  | int i => cases hv
  | bool b => cases hv
  | str s =>
    obtain ⟨items, -, hv⟩ := Except.bind_eq_ok.1 hv
    cases hv
    exact .str _

theorem arithmetic (ha : a.IsLiteral) (hb : b.IsLiteral) {op : BinaryOp} (hop : op.IsArithmetic)
    (hv : a.operatePlain catalog op b = .ok v) : v.IsLiteral := by
  cases hop with
  | add => cases ha <;> cases hb <;> cases hv <;> first | exact .int _ | exact .str _
  | sub => cases ha <;> cases hb <;> cases hv <;> exact .int _
  | mul =>
    cases ha <;> cases hb
    case str.str => cases hv
    case str.int s j => exact IsLiteral.times (.str s) hv
    case str.bool s q => exact IsLiteral.times (.str s) hv
    case int.str i t => exact IsLiteral.times (.str t) hv
    case bool.str p t => exact IsLiteral.times (.str t) hv
    all_goals cases hv; exact .int _

theorem comparison {op : BinaryOp} (hop : op.IsComparison)
    (hv : a.operatePlain catalog op b = .ok v) : v.IsLiteral := by
  cases hop <;> obtain ⟨holds, -, hv⟩ := Except.bind_eq_ok.1 hv <;> cases hv <;> exact .bool _

theorem junction (ha : a.IsLiteral) (hb : b.IsLiteral) {op : BinaryOp} (hop : op.IsJunction)
    (hv : a.operatePlain catalog op b = .ok v) : v.IsLiteral := by
  cases hop <;> cases ha <;> cases hb <;> cases hv <;> first | exact .int _ | exact .bool _

/-- The operators of lambda bodies give literals when applied to literals. -/
theorem operatePlain (ha : a.IsLiteral) (hb : b.IsLiteral) {op : BinaryOp}
    (hop : op.IsArithmetic ∨ op.IsComparison ∨ op.IsJunction)
    (hv : a.operatePlain catalog op b = .ok v) : v.IsLiteral := by
  rcases hop with hop | hop | hop
  · exact arithmetic ha hb hop hv
  · exact comparison hop hv
  · exact junction ha hb hop hv

/-! ### A literal on the left of a comparison -/

/-- A literal is a text or an integer, as which truth values count. -/
theorem text_or_number (h : a.IsLiteral) :
    (∃ s, a = .str s) ∨ ∃ i, a.number? = some (.int i) := by
  cases h with
  | int i => exact .inr ⟨i, rfl⟩
  | str s => exact .inl ⟨s, rfl⟩
  | bool p => exact .inr ⟨_, rfl⟩

theorem sameAtom_comm (h : a.IsLiteral) : b.sameAtom a = a.sameAtom b := by
  rcases h.text_or_number with ⟨s, rfl⟩ | ⟨i, ha⟩
  · cases b <;> simp [sameAtom, number?, BEq.comm]
  · unfold sameAtom
    rw [ha]
    cases b.number? with
    | none => rfl
    | some y =>
      simp only [Number.compare?_int_swap]
      cases (Number.int i).compare? y with
      | none => rfl
      | some o => cases o <;> rfl

theorem compareAtoms_swap (h : a.IsLiteral) (c : Comparison) :
    compareAtoms c.swap b a = compareAtoms c a b := by
  rcases h.text_or_number with ⟨s, rfl⟩ | ⟨i, ha⟩
  · cases b with
    | str t =>
      have hswap : compare t s = (compare s t).swap := Std.OrientedCmp.eq_swap
      simp only [compareAtoms, number?, hswap, Comparison.holds_swap]
    | _ => rfl
  · unfold compareAtoms
    rw [ha]
    cases hb : b.number? with
    | none => cases h <;> cases b <;> first | rfl | cases ha
    | some y =>
      simp only [Number.compare?_int_swap]
      cases (Number.int i).compare? y with
      | none => rfl
      | some o => exact congrArg Except.ok (c.holds_swap o)

theorem equalBy_comm (h : a.IsLiteral) (parts parts' : Value → Value → Except Error Bool) :
    equalBy parts catalog b a = equalBy parts' catalog a b := by
  have hatom := h.sameAtom_comm (b := b)
  cases h <;> cases b <;> first | rfl | exact congrArg Except.ok hatom

theorem comparesBy_swap (h : a.IsLiteral) (parts parts' : Value → Value → Except Error Bool)
    (c : Comparison) : comparesBy parts catalog c.swap b a = comparesBy parts' catalog c a b := by
  have hatoms := h.compareAtoms_swap (b := b) c
  cases h <;> cases b <;> exact hatoms

/-- Equality with a literal has no sides. -/
theorem equal_comm (h : a.IsLiteral) : b.equal catalog a = a.equal catalog b :=
  h.equalBy_comm _ _

theorem compares_swap (h : a.IsLiteral) (c : Comparison) :
    b.compares catalog c.swap a = a.compares catalog c b :=
  h.comparesBy_swap _ _ c

/-- A literal is compared with a value like the value with the literal. -/
theorem mirror (h : a.IsLiteral) {op : BinaryOp} (hop : op.IsComparison) :
    a.operate catalog op b = b.operate catalog op.mirror a := by
  have hequal : b.equal catalog a = a.equal catalog b := h.equal_comm
  have hcompares (c : Comparison) : b.compares catalog c.swap a = a.compares catalog c b :=
    h.compares_swap c
  have hplain : ∀ op, op.IsComparison →
      a.operatePlain catalog op b = b.operatePlain catalog op.mirror a := by
    intro op hop
    cases hop <;> simp only [Value.operatePlain, BinaryOp.mirror]
    case eq | ne => rw [hequal]
    all_goals rw [← hcompares]; rfl
  cases b with
  | expr e => cases h <;> cases hop <;> rfl
  | _ => cases h <;> exact hplain op hop

/-! ### A literal on the left of a captured expression -/

theorem operate_expr (h : a.IsLiteral) (op : BinaryOp) (e : Expr) :
    a.operate catalog op (.expr e) = operateReflected catalog op a e := by
  cases h <;> rfl

end IsLiteral

end Value
end RecordQuery
