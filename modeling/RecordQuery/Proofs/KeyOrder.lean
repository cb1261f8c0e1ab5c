import Mathlib
import RecordQuery.Proofs.RunSorting
import RecordQuery.Column.Memory
import RecordQuery.Query.Sorting

/-!
# The order of sorted rows

`SortKey.rank` says where the key of a row stands, and `Precedes keys` is the lexicographic order of
rows under several keys, each in its own direction. Where the values of each key are null or of one
kind (`SortKey.Ordered`), applying the keys one after the other, the least significant one first,
puts the rows stably in that order (`Query.sortList_eq_ok`).
-/

namespace RecordQuery

/-- The places of values: null comes before everything else, and numbers and texts are each in their
own order. -/
abbrev Rank := WithBot (Int ⊕ₗ String)

/-- The kinds of values that are totally ordered. -/
inductive KeyKind where
  | number | text

namespace Value

/-- Where a value stands among those of its kind; truth values count as 0 and 1. -/
def rank : Value → Rank
  | .bool b => (Sum.inlₗ (if b then 1 else 0) : Int ⊕ₗ String)
  | .int i => (Sum.inlₗ i : Int ⊕ₗ String)
  | .str s => (Sum.inrₗ s : Int ⊕ₗ String)
  | _ => ⊥

/-- The value is null or of the kind. -/
inductive IsKey : KeyKind → Value → Prop
  | null (kind : KeyKind) : IsKey kind .null
  | bool (b : Bool) : IsKey .number (.bool b)
  | int (i : Int) : IsKey .number (.int i)
  | str (s : String) : IsKey .text (.str s)

variable {catalog : Catalog} {a b : Value}

theorem matching_of_number {i j : Int} (ha : a.number? = some (.int i))
    (hb : b.number? = some (.int j)) : a.matching catalog b = .ok (decide (i = j)) := by
  have hatom : a.sameAtom b = decide (i = j) := by
    unfold sameAtom
    rw [Bool.eq_iff_iff]
    simp [ha, hb, Number.compare?]
  rw [← hatom]
  cases a <;> cases ha <;> cases b <;> cases hb <;> rfl

theorem compares_of_number {c : Comparison} {i j : Int} (ha : a.number? = some (.int i))
    (hb : b.number? = some (.int j)) : a.compares catalog c b = .ok (c.holds (compare i j)) := by
  have hatoms : compareAtoms c a b = .ok (c.holds (compare i j)) := by
    simp [compareAtoms, ha, hb, Number.compare?]
  rw [← hatoms]
  cases a <;> cases ha <;> cases b <;> cases hb <;> rfl

theorem compares_str (c : Comparison) (s t : String) :
    (Value.str s).compares catalog c (.str t) = .ok (c.holds (compare s t)) :=
  rfl

theorem holds_lt {γ : Type} [LinearOrder γ] (x y : γ) :
    Comparison.lt.holds (compare x y) = decide (x < y) := by
  rw [Bool.eq_iff_iff]
  simp [Comparison.holds, compare_lt_iff_lt]

/-- Equal keys are told from keys of which one is smaller. -/
theorem keyBefore_of_number {i j : Int} (ha : a.number? = some (.int i))
    (hb : b.number? = some (.int j)) : Query.keyBefore catalog a b = .ok (decide (i < j)) := by
  have ha' : a.isNull = false := by cases a <;> first | rfl | cases ha
  have hb' : b.isNull = false := by cases b <;> first | rfl | cases hb
  rw [Query.keyBefore, ha', hb']
  simp only [matching_of_number ha hb, compares_of_number ha hb, holds_lt, Except.ok_bind]
  split
  · rename_i heq
    have := of_decide_eq_true heq
    simp [this]
  · rfl

theorem keyBefore_str (s t : String) :
    Query.keyBefore catalog (.str s) (.str t) = .ok (decide (s < t)) := by
  have hmatching : (Value.str s).matching catalog (.str t) = .ok (decide (s = t)) := rfl
  simp only [Query.keyBefore, isNull, hmatching, compares_str, Except.ok_bind]
  rw [show Comparison.lt.holds (compare s t) = decide (s < t) from holds_lt s t]
  split
  · rename_i heq
    have := of_decide_eq_true heq
    simp [this]
  · rfl

/-- A key sorts before another one of its kind exactly if it ranks lower. -/
theorem keyBefore_eq {kind : KeyKind} (ha : IsKey kind a) (hb : IsKey kind b) :
    Query.keyBefore catalog a b = .ok (decide (a.rank < b.rank)) := by
  cases ha <;> cases hb
  case null.null | null.bool | null.int | null.str => simp [Query.keyBefore, isNull, rank]
  case bool.null | int.null | str.null => simp [Query.keyBefore, isNull, rank]
  case str.str s t => simp only [keyBefore_str, rank, WithBot.coe_lt_coe, Sum.Lex.inr_lt_inr_iff]
  all_goals
    rw [keyBefore_of_number rfl rfl]
    simp only [rank, WithBot.coe_lt_coe, Sum.Lex.inl_lt_inl_iff]

end Value

/-- Does a rank come before another one in the direction? -/
def Direction.Before (direction : Direction) (x y : Rank) : Prop :=
  match direction with
  | .ascending => x < y
  | .descending => y < x

namespace Direction.Before

variable {direction : Direction} {x y z : Rank}

theorem asymm (h : direction.Before x y) : ¬ direction.Before y x := by
  cases direction <;> exact lt_asymm h

/-- Of two ranks in order, a third one stands behind the first or before the second. -/
theorem or (h : direction.Before x z) (y : Rank) : direction.Before x y ∨ direction.Before y z := by
  cases direction with
  | ascending => exact (lt_or_ge x y).imp_right fun hyx => lt_of_le_of_lt hyx h
  | descending => exact (lt_or_ge y x).imp_right fun hxy => lt_of_lt_of_le h hxy

end Direction.Before

/-! ### One key -/

namespace SortKey

variable {d : Directory} {key : SortKey} {rows : List Value}

/-- Where the key of a row stands. -/
def rank (d : Directory) (key : SortKey) (row : Value) : Rank :=
  match key.source.read d row with
  | .ok v => v.rank
  | .error _ => ⊥

/-- Does the key put the first row before the second one? -/
def Before (d : Directory) (key : SortKey) (a b : Value) : Prop :=
  key.direction.Before (key.rank d a) (key.rank d b)

/-- The key can be read from each row, and its values are null or of one kind. -/
def Ordered (d : Directory) (key : SortKey) (rows : List Value) : Prop :=
  ∃ kind, ∀ row ∈ rows, ∃ v, key.source.read d row = .ok v ∧ v.IsKey kind

theorem Ordered.mono {more : List Value} (h : key.Ordered d more) (hsub : rows ⊆ more) :
    key.Ordered d rows := by
  obtain ⟨kind, h⟩ := h
  exact ⟨kind, fun row hrow => h row (hsub hrow)⟩

theorem Before.asymm {a b : Value} (h : key.Before d a b) : ¬ key.Before d b a :=
  Direction.Before.asymm h

/-- Two rows of which the key puts neither before the other one agree on it. -/
theorem rank_eq_iff {a b : Value} :
    key.rank d a = key.rank d b ↔ ¬ key.Before d a b ∧ ¬ key.Before d b a := by
  unfold Before
  cases key.direction <;>
    simp only [Direction.Before, not_lt, le_antisymm_iff, and_comm]

/-- Rows are sorted by comparing their keys. -/
theorem sortByKey_of_read {value : Value → Value}
    (hread : ∀ row ∈ rows, key.source.read d row = .ok (value row)) :
    Query.sortByKey d key rows = do
      let out ← Query.sortKeyed d.catalog key.direction (rows.map fun row => (value row, row))
      return out.map (·.2) := by
  have hkeyed : rows.mapM (fun row => do return (← key.source.read d row, row)) =
      Except.ok (rows.map fun row => (value row, row)) := by
    refine Except.mapM_of_ok fun row hrow => ?_
    rw [hread row hrow]
    rfl
  rw [Query.sortByKey, hkeyed, Except.ok_bind]

/-- Sorting by a key succeeds, and puts the rows stably in its order. -/
theorem sortByKey_eq_ok (h : key.Ordered d rows) :
    ∃ out, Query.sortByKey d key rows = .ok out ∧ StablyOrdered (key.Before d) rows out := by
  obtain ⟨kind, hkey⟩ := h
  choose! value hread hkind using hkey
  have hranks : Ranks (fun _ => False)
      (fun a b : Query.KeyedRow => Query.keyBefore d.catalog a.1 b.1)
      (fun a => a.1.rank) (rows.map fun row => (value row, row)) := by
    intro a ha b hb
    obtain ⟨row, hrow, rfl⟩ := List.mem_map.1 ha
    obtain ⟨row', hrow', rfl⟩ := List.mem_map.1 hb
    exact .of_eq (Value.keyBefore_eq (hkind row hrow) (hkind row' hrow')) rfl
  obtain ⟨out, hout, hordered⟩ :=
    (RunSort.gives_sortIn hranks key.direction.isDescending).exists_ok
  refine ⟨out.map (·.2), ?_, ?_⟩
  · rw [sortByKey_of_read hread, Query.sortKeyed, hout]
    rfl
  · have hrows : (rows.map fun row => (value row, row)).map Prod.snd = rows := by
      simp [Function.comp_def]
    rw [← hrows]
    refine hordered.map Prod.snd fun a ha b hb => ?_
    obtain ⟨row, hrow, rfl⟩ := List.mem_map.1 ha
    obtain ⟨row', hrow', rfl⟩ := List.mem_map.1 hb
    simp only [Before, rank, hread row hrow, hread row' hrow']
    cases key.direction <;> simp [Direction.Before, Direction.isDescending]

end SortKey

/-! ### Several keys -/

variable {d : Directory} {keys : List SortKey} {rows : List Value}

/-- The most significant key on which the rows differ puts the first one before the second one. -/
def Precedes (d : Directory) (keys : List SortKey) (a b : Value) : Prop :=
  ∃ front key back, keys = front ++ key :: back ∧
    (∀ k ∈ front, k.rank d a = k.rank d b) ∧ key.Before d a b

theorem precedes_iff {a b : Value} :
    Precedes d keys a b ↔ Lexicographic (SortKey.Before d) keys a b := by
  simp only [Precedes, Lexicographic, SortKey.rank_eq_iff]

theorem not_precedes_nil (a b : Value) : ¬ Precedes d [] a b :=
  precedes_iff.not.2 Lexicographic.not_nil

theorem precedes_cons_iff {key : SortKey} {a b : Value} :
    Precedes d (key :: keys) a b ↔ ThenBy (key.Before d) (Precedes d keys) a b := by
  simp only [precedes_iff, Lexicographic.cons_iff, ThenBy]

/-- Two rows of which the keys put neither before the other one agree on all of them. -/
theorem agree_iff {a b : Value} :
    (∀ k ∈ keys, k.rank d a = k.rank d b) ↔ ¬ Precedes d keys a b ∧ ¬ Precedes d keys b a := by
  simp only [precedes_iff, SortKey.rank_eq_iff, Lexicographic.ties_iff]

theorem Precedes.asymm {a b : Value} (h : Precedes d keys a b) : ¬ Precedes d keys b a := by
  rw [precedes_iff] at h ⊢
  exact h.asymm fun _ _ _ => SortKey.Before.asymm

/-- Sorting by several keys succeeds, and puts the rows stably in their lexicographic order. -/
theorem Query.sortList_eq_ok (h : ∀ key ∈ keys, key.Ordered d rows) :
    ∃ out, Query.sortList d keys rows = .ok out ∧ StablyOrdered (Precedes d keys) rows out := by
  induction keys with
  | nil => exact ⟨rows, rfl, .of_pairwise (List.pairwise_of_forall fun _ _ => not_precedes_nil _ _)⟩
  | cons key keys ih =>
    rw [List.forall_mem_cons] at h
    obtain ⟨mid, hmid, hordered⟩ := ih h.2
    -- the most significant key sorts last, and its ties keep the order that the others left
    obtain ⟨out, hout, hordered'⟩ := SortKey.sortByKey_eq_ok (h.1.mono hordered.perm.subset)
    refine ⟨out, ?_, (hordered.then hordered').congr fun _ _ _ _ => precedes_cons_iff.symm⟩
    rw [Query.sortList] at hmid ⊢
    rw [List.reverse_cons, List.foldlM_append, hmid]
    simp [Query.namingKey, hout]

namespace Query

variable {E : Engine}

theorem rows_of_list {q : Query E} (hsource : q.source = .list rows) (hkeys : q.keys = some keys) :
    q.rows d = sortList d keys rows := by
  simp only [Query.rows, sorted, hsource, hkeys, Option.getD_some]
  cases sortList d keys rows <;> rfl

/-- Iterating over a sorted list gives its rows, each in its place: of two rows, the first one is
put first by the most significant key on which they differ, or they agree on all keys and it came
first in the list. -/
theorem rows_lexicographic {q : Query E} (hsource : q.source = .list rows)
    (hkeys : q.keys = some keys) (h : ∀ key ∈ keys, key.Ordered d rows) :
    ∃ placed : List (Value × Nat), placed.Perm rows.zipIdx ∧
      q.rows d = .ok (placed.map Prod.fst) ∧
      placed.Pairwise fun a b => Precedes d keys a.1 b.1 ∨
        (∀ key ∈ keys, key.rank d a.1 = key.rank d b.1) ∧ a.2 < b.2 := by
  obtain ⟨out, hout, placed, hperm, rfl, hordered⟩ := sortList_eq_ok h
  refine ⟨placed, hperm, ?_, hordered.imp fun {a b} hab => ?_⟩
  · rw [rows_of_list hsource hkeys, hout]
  · rcases hab with hab | ⟨htie, hpos⟩
    · exact .inl hab
    · by_cases hab : Precedes d keys a.1 b.1
      · exact .inl hab
      · exact .inr ⟨agree_iff.2 ⟨hab, htie⟩, hpos⟩

/-- Mappings with the keys `a` and `b`. -/
private def pairSchema : Schema :=
  { key := .anonymous "Pair", name := "Pair", maker := .mapping,
    fields := [{ name := "a", access := .item }, { name := "b", access := .item }] }

private def pair (a b : Value) : Value :=
  .dict [(.str "a", a), (.str "b", b)]

private def pairs : List Value :=
  [pair (.int 1) (.str "y"), pair .null (.str "x"), pair (.bool true) (.str "x"),
   pair (.int 2) .null, pair (.int 1) (.str "x")]

private def pairKeys : List SortKey :=
  [⟨.accessor ⟨pairSchema, [pairSchema.fields[0]]⟩, .descending⟩,
   ⟨.accessor ⟨pairSchema, [pairSchema.fields[1]]⟩, .ascending⟩]

/-- Null and the truth value are keys among the integers. -/
theorem pairs_lexicographic :
    (∀ key ∈ pairKeys, key.Ordered {} pairs) ∧
    ∃ placed : List (Value × Nat), placed.Perm pairs.zipIdx ∧
      ({ source := .list pairs, schema := pairSchema, keys := some pairKeys } :
        Query .inMemory).rows {} = .ok (placed.map Prod.fst) ∧
      placed.Pairwise fun a b => Precedes {} pairKeys a.1 b.1 ∨
        (∀ key ∈ pairKeys, key.rank {} a.1 = key.rank {} b.1) ∧ a.2 < b.2 := by
  have hordered : ∀ key ∈ pairKeys, key.Ordered {} pairs := by
    simp only [pairKeys, List.forall_mem_cons]
    refine ⟨⟨.number, ?_⟩, ⟨.text, ?_⟩, by simp⟩
    · simp only [pairs, List.forall_mem_cons]
      exact ⟨⟨_, rfl, .int 1⟩, ⟨_, rfl, .null _⟩, ⟨_, rfl, .bool true⟩, ⟨_, rfl, .int 2⟩,
        ⟨_, rfl, .int 1⟩, by simp⟩
    · simp only [pairs, List.forall_mem_cons]
      exact ⟨⟨_, rfl, .str "y"⟩, ⟨_, rfl, .str "x"⟩, ⟨_, rfl, .str "x"⟩, ⟨_, rfl, .null _⟩,
        ⟨_, rfl, .str "x"⟩, by simp⟩
  exact ⟨hordered, rows_lexicographic rfl rfl hordered⟩

end Query
end RecordQuery
