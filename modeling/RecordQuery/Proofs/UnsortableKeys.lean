import RecordQuery.Column.Memory
import RecordQuery.Proofs.KeyOrder

/-!
# Keys that cannot be sorted by

Numbers and texts cannot be compared, so a list cannot be sorted by a key that has both, wherever
they and the nulls between them stand: whatever a sort compares, it cannot have found the place of a
number beside a text (`SortKey.sortByKey_of_isMixed`). Sorting by several keys therefore fails if
and only if one of them is mixed, and the key that is named is the least significant one, which is
sorted by first (`Query.rows_steady`).
-/

namespace RecordQuery

/-- Items cannot be in both of two orders that put two of them the other way round. -/
theorem StablyOrdered.not_of_reversed {α : Type} {before before' : α → α → Prop}
    {items out : List α} (h : StablyOrdered before items out) (h' : StablyOrdered before' items out)
    (hasymm : ∀ a b, before a b → ¬ before b a) (hasymm' : ∀ a b, before' a b → ¬ before' b a)
    {a b : α} (ha : a ∈ items) (hb : b ∈ items) (hab : before a b) : ¬ before' b a := by
  intro hba
  have hpairs := ((h.pairwise hasymm).and (h'.pairwise hasymm')).imp
    (S := fun x y => x = y ∨ (¬ before y x ∧ ¬ before' y x) ∨ ¬ before x y ∧ ¬ before' x y)
    fun hxy => .inr (.inl hxy)
  have : Std.Symm fun x y : α =>
      x = y ∨ (¬ before y x ∧ ¬ before' y x) ∨ ¬ before x y ∧ ¬ before' x y :=
    ⟨fun x y hxy => hxy.imp Eq.symm Or.symm⟩
  rcases hpairs.forall_of_forall (fun _ _ => .inl rfl) (h.perm.mem_iff.2 ha)
    (h.perm.mem_iff.2 hb) with rfl | ⟨-, hno⟩ | ⟨hno, -⟩
  · exact hasymm _ _ hab hab
  · exact hno hba
  · exact hno hab

/-- Does a key belong to one of the kinds that are totally ordered? -/
def Query.isSteadyKey : Value → Bool
  | .null | .bool _ | .int _ | .str _ => true
  | _ => false

namespace Value

variable {catalog : Catalog} {a b : Value}

/-- The kind of a key, unless it is null or of no kind that is totally ordered. -/
def keyKind? : Value → Option KeyKind
  | .bool _ | .int _ => some .number
  | .str _ => some .text
  | _ => none

theorem isKey_of_isSteadyKey {kind : KeyKind} (h : Query.isSteadyKey a = true)
    (hkind : ∀ k, a.keyKind? = some k → k = kind) : a.IsKey kind := by
  cases a with
  | null => exact .null kind
  | bool b =>
    cases hkind .number rfl
    exact .bool b
  | int i =>
    cases hkind .number rfl
    exact .int i
  | str s =>
    cases hkind .text rfl
    exact .str s
  | _ => cases h

theorem eq_null_of_keyKind? (h : Query.isSteadyKey a = true) (hk : a.keyKind? = none) :
    a = .null := by
  cases a with
  | null => rfl
  | bool | int | str => cases hk
  | _ => cases h

/-- A number and a text are told apart, but neither sorts before the other one. -/
theorem keyBefore_of_ne {k l : KeyKind} (hk : a.keyKind? = some k) (hl : b.keyKind? = some l)
    (hne : k ≠ l) : Query.keyBefore catalog a b = .error (.fault .wrongType) := by
  cases a <;> cases hk <;> cases b <;> cases hl <;> first | rfl | exact absurd rfl hne

/-- Two keys are of one kind or of different ones. -/
theorem isKey_or_ne (ha : Query.isSteadyKey a = true) (hb : Query.isSteadyKey b = true) :
    (∃ kind, a.IsKey kind ∧ b.IsKey kind) ∨
      ∃ k l, a.keyKind? = some k ∧ b.keyKind? = some l ∧ k ≠ l := by
  cases hk : a.keyKind? with
  | none =>
    cases eq_null_of_keyKind? ha hk
    refine .inl ⟨b.keyKind?.getD .number, .null _, isKey_of_isSteadyKey hb fun l hl => ?_⟩
    rw [hl, Option.getD_some]
  | some k =>
    have ha : a.IsKey k := isKey_of_isSteadyKey ha fun l hl => Option.some.inj (hl.symm.trans hk)
    by_cases hkind : ∀ l, b.keyKind? = some l → l = k
    · exact .inl ⟨k, ha, isKey_of_isSteadyKey hb hkind⟩
    · push Not at hkind
      obtain ⟨l, hl, hne⟩ := hkind
      exact .inr ⟨k, l, rfl, hl, hne.symm⟩

/-- Where a value stands if texts come before numbers. -/
def turnedRank (a : Value) : WithBot (String ⊕ₗ Int) :=
  a.rank.map fun r => toLex (ofLex r).swap

theorem turnedRank_lt_iff {kind : KeyKind} (ha : IsKey kind a) (hb : IsKey kind b) :
    a.turnedRank < b.turnedRank ↔ a.rank < b.rank := by
  cases ha <;> cases hb <;> simp [turnedRank, rank]

/-- Keys are compared as in either ranking of numbers and texts, or the comparison fails because of
their types. -/
theorem gives_keyBefore {β : Type} [LinearOrder β] (standing : Value → β)
    (hstanding : ∀ kind a b, IsKey kind a → IsKey kind b →
      (standing a < standing b ↔ a.rank < b.rank))
    (ha : Query.isSteadyKey a = true) (hb : Query.isSteadyKey b = true) :
    Gives (· = .fault .wrongType) (· = decide (standing a < standing b))
      (Query.keyBefore catalog a b) := by
  rcases isKey_or_ne ha hb with ⟨kind, hka, hkb⟩ | ⟨k, l, hk, hl, hne⟩
  · rw [keyBefore_eq hka hkb]
    exact decide_eq_decide.2 (hstanding kind a b hka hkb).symm
  · rw [keyBefore_of_ne hk hl hne]
    rfl

/-- A number and a text stand in different order in the two rankings. -/
theorem rank_lt_and_turnedRank_lt (ha : a.keyKind? = some .number) (hb : b.keyKind? = some .text) :
    a.rank < b.rank ∧ b.turnedRank < a.turnedRank := by
  cases a <;> cases ha <;> cases b <;> cases hb <;> simp [turnedRank, rank]

end Value

/-- Rows are sorted as in either ranking of numbers and texts, or not at all because of the types of
their keys. -/
theorem Query.gives_sortKeyed (catalog : Catalog) {β : Type} [LinearOrder β] (standing : Value → β)
    (hstanding : ∀ kind a b, Value.IsKey kind a → Value.IsKey kind b →
      (standing a < standing b ↔ a.rank < b.rank))
    (direction : Direction) {rows : List KeyedRow} (h : ∀ a ∈ rows, isSteadyKey a.1 = true) :
    Gives (· = .fault .wrongType)
      (StablyOrdered (fun a b => if direction.isDescending then standing b.1 < standing a.1
        else standing a.1 < standing b.1) rows) (sortKeyed catalog direction rows) := by
  have hranks : Ranks (· = .fault .wrongType) (fun a b : KeyedRow => keyBefore catalog a.1 b.1)
      (fun a => standing a.1) rows := fun a ha b hb =>
    Value.gives_keyBefore standing hstanding (h a ha) (h b hb)
  exact RunSort.gives_sortIn hranks _

/-! ### One key -/

namespace SortKey

variable {d : Directory} {key : SortKey} {rows : List Value}

/-- The key can be read from each row, as null, a truth value, an integer or a text. -/
def IsSteady (d : Directory) (key : SortKey) (rows : List Value) : Prop :=
  ∀ row ∈ rows, ∃ v, key.source.read d row = .ok v ∧ Query.isSteadyKey v = true

/-- The key is of the kind for one of the rows. -/
def Occurs (d : Directory) (key : SortKey) (rows : List Value) (kind : KeyKind) : Prop :=
  ∃ row ∈ rows, ∃ v, key.source.read d row = .ok v ∧ v.keyKind? = some kind

/-- The key is a number for one of the rows and a text for another one. -/
def IsMixed (d : Directory) (key : SortKey) (rows : List Value) : Prop :=
  key.Occurs d rows .number ∧ key.Occurs d rows .text

theorem IsSteady.mono {more : List Value} (h : key.IsSteady d more) (hsub : rows ⊆ more) :
    key.IsSteady d rows :=
  fun row hrow => h row (hsub hrow)

theorem IsMixed.mono {more : List Value} (h : key.IsMixed d rows) (hsub : rows ⊆ more) :
    key.IsMixed d more := by
  obtain ⟨⟨row, hrow, hv⟩, row', hrow', hw⟩ := h
  exact ⟨⟨row, hsub hrow, hv⟩, row', hsub hrow', hw⟩

/-- Keys that are not mixed are of one kind. -/
theorem IsSteady.ordered (h : key.IsSteady d rows) (hmixed : ¬ key.IsMixed d rows) :
    key.Ordered d rows := by
  have hkind : ∃ kind, ∀ k, key.Occurs d rows k → k = kind := by
    by_cases hnumber : key.Occurs d rows .number
    · refine ⟨.number, fun k hk => ?_⟩
      cases k with
      | number => rfl
      | text => exact absurd ⟨hnumber, hk⟩ hmixed
    · refine ⟨.text, fun k hk => ?_⟩
      cases k with
      | number => exact absurd hk hnumber
      | text => rfl
  obtain ⟨kind, hkind⟩ := hkind
  refine ⟨kind, fun row hrow => ?_⟩
  obtain ⟨v, hread, hv⟩ := h row hrow
  exact ⟨v, hread, Value.isKey_of_isSteadyKey hv fun k hk => hkind k ⟨row, hrow, v, hread, hk⟩⟩

/-- **A mixed key cannot be sorted by**, in whatever order the rows come. -/
theorem sortByKey_of_isMixed (h : key.IsSteady d rows) (hmixed : key.IsMixed d rows) :
    Query.sortByKey d key rows = .error (.fault .wrongType) := by
  choose! value hread hvalue using h
  have hsteady : ∀ a ∈ rows.map fun row => (value row, row), Query.isSteadyKey a.1 = true :=
    List.forall_mem_map.2 hvalue
  have hoccurs : ∀ kind, key.Occurs d rows kind →
      ∃ a ∈ rows.map fun row => (value row, row), a.1.keyKind? = some kind := by
    rintro kind ⟨row, hrow, v, hv, hkind⟩
    cases (hread row hrow).symm.trans hv
    exact ⟨_, List.mem_map_of_mem hrow, hkind⟩
  -- what comes of the sort is in order however numbers and texts stand to each other
  have hrank := Query.gives_sortKeyed d.catalog Value.rank (fun _ _ _ _ _ => Iff.rfl)
    key.direction hsteady
  have hturned := Query.gives_sortKeyed d.catalog Value.turnedRank
    (fun _ _ _ => Value.turnedRank_lt_iff) key.direction hsteady
  rw [sortByKey_of_read hread]
  cases hout : Query.sortKeyed d.catalog key.direction _ with
  | ok out =>
    rw [hout] at hrank hturned
    obtain ⟨a, ha, hnumber⟩ := hoccurs .number hmixed.1
    obtain ⟨b, hb, htext⟩ := hoccurs .text hmixed.2
    obtain ⟨hlt, hlt'⟩ := Value.rank_lt_and_turnedRank_lt hnumber htext
    cases hdirection : key.direction.isDescending with
    | false =>
      simp only [hdirection, Bool.false_eq_true, ↓reduceIte] at hrank hturned
      exact (hrank.not_of_reversed hturned (fun _ _ => lt_asymm) (fun _ _ => lt_asymm)
        ha hb hlt hlt').elim
    | true =>
      simp only [hdirection, ↓reduceIte] at hrank hturned
      exact (hrank.not_of_reversed hturned (fun _ _ => lt_asymm) (fun _ _ => lt_asymm)
        hb ha hlt hlt').elim
  | error e =>
    rw [hout] at hrank
    cases hrank
    rfl

end SortKey

/-! ### Several keys -/

variable {d : Directory} {keys front back : List SortKey} {key : SortKey} {rows : List Value}

namespace Query

theorem sortList_cons (key : SortKey) (keys : List SortKey) (rows : List Value) :
    sortList d (key :: keys) rows =
      sortList d keys rows >>= fun mid => namingKey key (sortByKey d key mid) := by
  rw [sortList, List.reverse_cons, List.foldlM_append]
  simp only [List.foldlM_cons, List.foldlM_nil, bind_pure]
  rfl

/-- Less significant keys are sorted by first. -/
theorem sortList_append_error {e : Error} (h : sortList d back rows = .error e) :
    sortList d (front ++ back) rows = .error e := by
  rw [sortList, List.reverse_append, List.foldlM_append]
  change sortList d back rows >>= _ = _
  rw [h, Except.error_bind]

/-- The least significant mixed key is named. -/
theorem sortList_of_isMixed (h : ∀ k ∈ front ++ key :: back, k.IsSteady d rows)
    (hmixed : key.IsMixed d rows) (hback : ∀ k ∈ back, ¬ k.IsMixed d rows) :
    sortList d (front ++ key :: back) rows = .error (.unsortableKey key.source.label) := by
  refine sortList_append_error ?_
  have hkey : ∀ k ∈ key :: back, k.IsSteady d rows :=
    fun k hk => h k (List.mem_append_right front hk)
  rw [List.forall_mem_cons] at hkey
  obtain ⟨mid, hmid, hordered⟩ :=
    sortList_eq_ok fun k hk => (hkey.2 k hk).ordered (hback k hk)
  rw [sortList_cons, hmid, Except.ok_bind, SortKey.sortByKey_of_isMixed
    (hkey.1.mono hordered.perm.subset) (hmixed.mono hordered.perm.symm.subset)]
  rfl

/-- If some key is mixed, there is a least significant one. -/
theorem exists_last_isMixed (h : ∃ key ∈ keys, key.IsMixed d rows) :
    ∃ front key back, keys = front ++ key :: back ∧ key.IsMixed d rows ∧
      ∀ k ∈ back, ¬ k.IsMixed d rows := by
  induction keys with
  | nil => simp at h
  | cons k keys ih =>
    by_cases hmixed : ∃ key ∈ keys, key.IsMixed d rows
    · obtain ⟨front, key, back, rfl, hkey, hback⟩ := ih hmixed
      exact ⟨k :: front, key, back, rfl, hkey, hback⟩
    · obtain ⟨key, hmem, hkey⟩ := h
      rcases List.mem_cons.1 hmem with rfl | hmem
      · exact ⟨[], key, keys, rfl, hkey, fun l hl hl' => hmixed ⟨l, hl, hl'⟩⟩
      · exact absurd ⟨key, hmem, hkey⟩ hmixed

/-- **Unsortable keys are reported, and only those.** If the keys of a query over a list are null,
truth values, integers or texts for all rows, reading its rows fails with a type error if and only
if some key is a number for one row and a text for another. The error names the least significant
such key, whatever the directions and however other keys separate the rows. Otherwise the rows that
the query holds come in some order. In any case the query holds them as they were given: sorted by
other keys instead, they come stably in the order of those. -/
theorem rows_steady {E : Engine} {q : Query E} (hsource : q.source = .list rows)
    (hkeys : q.keys = some keys) (h : ∀ key ∈ keys, key.IsSteady d rows) :
    ((∃ e, q.rows d = .error e ∧ e.isTypeError = true) ↔ ∃ key ∈ keys, key.IsMixed d rows) ∧
    (∀ front key back, keys = front ++ key :: back → key.IsMixed d rows →
      (∀ k ∈ back, ¬ k.IsMixed d rows) → q.rows d = .error (.unsortableKey key.source.label)) ∧
    ((¬ ∃ key ∈ keys, key.IsMixed d rows) → ∃ out, q.rows d = .ok out ∧ out.Perm rows) ∧
    ∀ more : List SortKey, (∀ key ∈ more, key.Ordered d rows) →
      ∃ out, Query.rows d { q with keys := some more } = .ok out ∧
        StablyOrdered (Precedes d more) rows out := by
  have hrows : q.rows d = sortList d keys rows := rows_of_list hsource hkeys
  have hnamed : ∀ front key back, keys = front ++ key :: back → key.IsMixed d rows →
      (∀ k ∈ back, ¬ k.IsMixed d rows) →
      q.rows d = .error (.unsortableKey key.source.label) := by
    rintro front key back rfl hmixed hback
    rw [hrows]
    exact sortList_of_isMixed h hmixed hback
  have hread : (¬ ∃ key ∈ keys, key.IsMixed d rows) →
      ∃ out, q.rows d = .ok out ∧ out.Perm rows := by
    intro hnone
    obtain ⟨out, hout, hordered⟩ := sortList_eq_ok fun key hkey =>
      (h key hkey).ordered fun hmixed => hnone ⟨key, hkey, hmixed⟩
    exact ⟨out, by rw [hrows, hout], hordered.perm⟩
  refine ⟨⟨?_, ?_⟩, hnamed, hread, fun more hmore => ?_⟩
  · rintro ⟨e, he, -⟩
    by_contra hnone
    obtain ⟨out, hout, -⟩ := hread hnone
    cases he.symm.trans hout
  · intro hmixed
    obtain ⟨front, key, back, hsplit, hkey, hback⟩ := exists_last_isMixed hmixed
    exact ⟨_, hnamed front key back hsplit hkey hback, rfl⟩
  · obtain ⟨out, hout, hordered⟩ := sortList_eq_ok hmore
    exact ⟨out, (rows_of_list (q := { q with keys := some more }) hsource rfl).trans hout, hordered⟩

/-- Mappings with the keys `a`, `b` and `c`. -/
private def labelSchema : Schema :=
  { key := .anonymous "Label", name := "Label", maker := .mapping,
    fields := [{ name := "a", access := .item }, { name := "b", access := .item },
      { name := "c", access := .item }] }

private def label (a b c : Value) : Value :=
  .dict [(.str "a", a), (.str "b", b), (.str "c", c)]

private def labels : List Value :=
  [label (.int 1) (.str "x") (.bool true), label (.int 2) .null .null,
   label (.int 3) (.int 5) (.str "y")]

private def labelKey (i : Fin 3) (direction : Direction) : SortKey :=
  ⟨.accessor ⟨labelSchema, [labelSchema.fields.get i]⟩, direction⟩

private def labelKeys : List SortKey :=
  [labelKey 0 .ascending, labelKey 1 .ascending, labelKey 2 .descending, labelKey 0 .descending]

private def labelQuery : Query .inMemory :=
  { source := .list labels, schema := labelSchema, keys := some labelKeys }

/-- The first key alone would say how the labels are ordered. -/
theorem rows_labels : (∀ key ∈ labelKeys, key.IsSteady {} labels) ∧
    labelQuery.rows {} = .error (.unsortableKey "c") := by
  have hsteady : ∀ key ∈ labelKeys, key.IsSteady {} labels := by
    simp only [labelKeys, List.forall_mem_cons]
    refine ⟨?_, ?_, ?_, ?_, by simp⟩
    all_goals
      simp only [SortKey.IsSteady, labels, List.forall_mem_cons]
      exact ⟨⟨_, rfl, rfl⟩, ⟨_, rfl, rfl⟩, ⟨_, rfl, rfl⟩, by simp⟩
  have hmixed : (labelKey 2 .descending).IsMixed {} labels :=
    ⟨⟨labels[0], by simp [labels], .bool true, rfl, rfl⟩,
      labels[2], by simp [labels], .str "y", rfl, rfl⟩
  have hback : ∀ key ∈ [labelKey 0 .descending], ¬ key.IsMixed {} labels := by
    simp only [List.forall_mem_singleton]
    rintro ⟨-, row, hrow, v, hv, htext⟩
    simp only [labels, List.mem_cons, List.not_mem_nil, or_false] at hrow
    rcases hrow with rfl | rfl | rfl <;> cases hv <;> cases htext
  obtain ⟨-, hnamed, -⟩ := rows_steady (q := labelQuery) rfl rfl hsteady
  exact ⟨hsteady, hnamed [labelKey 0 .ascending, labelKey 1 .ascending] _ _ rfl hmixed hback⟩

end Query
end RecordQuery
