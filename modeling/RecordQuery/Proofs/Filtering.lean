import RecordQuery.Proofs.TableLaws
import RecordQuery.Query.Filter

/-!
# Filters

A filter makes its tests on the rows of a query in their order. It succeeds exactly if the rows can
be read and every test succeeds (`Query.filter_ok`), and otherwise it fails like the reading or like
the first test that fails (`Query.filter_eq_error`).
-/

namespace RecordQuery

section KeepIf

variable {α β : Type} {test : α → Except Error Bool}

/-- The test succeeds, and its answer is yes. -/
def passes (test : α → Except Error Bool) (x : α) : Bool :=
  (test x).toOption.getD false

theorem keepIf_eq_ok {xs kept : List α} :
    keepIf test xs = .ok kept ↔
      (∀ x ∈ xs, ∃ b, test x = .ok b) ∧ kept = xs.filter (passes test) := by
  induction xs generalizing kept with
  | nil => simp [keepIf, eq_comm]
  | cons x xs ih =>
    rw [keepIf, Except.bind_eq_ok]
    constructor
    · rintro ⟨b, hb, h⟩
      obtain ⟨rest, hrest, h⟩ := Except.bind_eq_ok.mp h
      obtain ⟨htests, rfl⟩ := ih.mp hrest
      cases h
      refine ⟨List.forall_mem_cons.mpr ⟨⟨b, hb⟩, htests⟩, ?_⟩
      cases b <;> simp [passes, hb, Except.toOption]
    · rintro ⟨htests, rfl⟩
      obtain ⟨b, hb⟩ := htests x List.mem_cons_self
      refine ⟨b, hb, ?_⟩
      rw [ih.mpr ⟨fun y hy => htests y (List.mem_cons_of_mem _ hy), rfl⟩]
      cases b <;> simp [passes, hb, Except.toOption]

/-- The tests fail like the first one that does. -/
theorem keepIf_eq_error {xs : List α} {e : Error} :
    keepIf test xs = .error e ↔
      ∃ before x after, xs = before ++ x :: after ∧ (∀ y ∈ before, ∃ b, test y = .ok b) ∧
        test x = .error e := by
  induction xs with
  | nil => simp [keepIf]
  | cons x xs ih =>
    cases hx : test x with
    | error e' =>
      simp only [keepIf, hx, Except.error_bind, Except.error.injEq]
      constructor
      · rintro rfl
        exact ⟨[], x, xs, rfl, by simp, hx⟩
      · rintro ⟨_ | ⟨y, before⟩, z, after, heq, hbefore, hz⟩
        · cases heq
          rwa [hx, Except.error.injEq] at hz
        · cases heq
          obtain ⟨b, hb⟩ := hbefore x List.mem_cons_self
          rw [hx] at hb
          cases hb
    | ok b =>
      have hcons : keepIf test (x :: xs) = .error e ↔ keepIf test xs = .error e := by
        cases hxs : keepIf test xs <;> simp [keepIf, hx, hxs]
      rw [hcons, ih]
      constructor
      · rintro ⟨before, y, after, rfl, hbefore, hy⟩
        exact ⟨x :: before, y, after, rfl, List.forall_mem_cons.mpr ⟨⟨b, hx⟩, hbefore⟩, hy⟩
      · rintro ⟨_ | ⟨y, before⟩, z, after, heq, hbefore, hz⟩
        · cases heq
          rw [hx] at hz
          cases hz
        · cases heq
          exact ⟨before, z, after, rfl, fun y hy => hbefore y (List.mem_cons_of_mem _ hy), hz⟩

/-- Making all tests first and keeping the items behind comes to the same. -/
theorem keepIf_eq_mask (test : α → Except Error Bool) (xs : List α) :
    keepIf test xs = do return keepMasked (← xs.mapM test) xs := by
  induction xs with
  | nil => rfl
  | cons x xs ih =>
    rw [keepIf, ih, List.mapM_cons]
    cases test x with
    | error e => rfl
    | ok b =>
      cases xs.mapM test with
      | error e => rfl
      | ok mask => cases b <;> rfl

end KeepIf

namespace Query

variable {E : Engine} {d : Directory} {q q₁ : Query E} {p : Predicate}

theorem sorted_of_keys_none (h : q.keys = none) : q.sorted d = .ok q.source := by
  rw [sorted, h]
  split
  · rename_i rows heq
    simp [sortList, heq]
  · rename_i t placement heq
    simp [sortTable, heq]

/-- The rows of a query without pending keys are those that it holds. -/
theorem rows_of_keys_none (h : q.keys = none) : q.rows d = q.source.rows := by
  simp [rows, sorted_of_keys_none h]

/-- What a filter makes of the rows in their order: the query of those that pass, or the failure of
the first test that fails. -/
theorem filter_of_sorted (hE : E.SelectsRows) {source : RowSource E}
    (hsorted : q.sorted d = .ok source) :
    match source.rows >>= keepIf (p.test d) with
    | .ok kept =>
      ∃ q', q.filter d p = .ok q' ∧ q'.schema = q.schema ∧ q'.keys = none ∧
        q'.source.rows = .ok kept
    | .error e => q.filter d p = .error e := by
  rw [filter, hsorted, Except.ok_bind]
  cases source with
  | list rows =>
    simp only [RowSource.rows, Except.ok_bind]
    cases keepIf (p.test d) rows with
    | error e => rfl
    | ok kept => exact ⟨_, rfl, rfl, rfl, rfl⟩
  | table t placement =>
    cases hrecords : E.records t with
    | error e => simp [RowSource.rows, hrecords]
    | ok records =>
      simp only [RowSource.rows, hrecords, Except.ok_bind, keepIf_eq_mask]
      cases hmask : records.mapM (p.test d) with
      | error e => rfl
      | ok mask =>
        obtain ⟨t', ht', hkept⟩ := hE.filter hrecords (Except.mapM_eq_ok.1 hmask).length_eq.symm
        simp only [Except.ok_bind, ht']
        exact ⟨_, rfl, rfl, rfl, hkept⟩

theorem keys_of_filter (h : q.filter d p = .ok q₁) : q₁.keys = none := by
  obtain ⟨source, -, h⟩ := Except.bind_eq_ok.1 h
  cases source with
  | list rows =>
    obtain ⟨kept, -, h⟩ := Except.bind_eq_ok.1 h
    cases h
    rfl
  | table t placement =>
    obtain ⟨records, -, h⟩ := Except.bind_eq_ok.1 h
    obtain ⟨mask, -, h⟩ := Except.bind_eq_ok.1 h
    obtain ⟨t₁, -, h⟩ := Except.bind_eq_ok.1 h
    cases h
    rfl

/-- What is left of a sorted query, over a table or a list as before. -/
theorem source_of_filter_table {t : E.Table} {placement : NullPlacement}
    (hsorted : q.sorted d = .ok (.table t placement)) (h : q.filter d p = .ok q₁) :
    ∃ mask t₁, E.filter mask t = .ok t₁ ∧ q₁.source = .table t₁ placement := by
  rw [filter, hsorted, Except.ok_bind] at h
  obtain ⟨records, -, h⟩ := Except.bind_eq_ok.1 h
  obtain ⟨mask, -, h⟩ := Except.bind_eq_ok.1 h
  obtain ⟨t₁, ht₁, h⟩ := Except.bind_eq_ok.1 h
  cases h
  exact ⟨mask, t₁, ht₁, rfl⟩

theorem source_of_filter_list {rows : List Value} (hsorted : q.sorted d = .ok (.list rows))
    (h : q.filter d p = .ok q₁) : ∃ kept, q₁.source = .list kept := by
  rw [filter, hsorted, Except.ok_bind] at h
  obtain ⟨kept, -, h⟩ := Except.bind_eq_ok.1 h
  cases h
  exact ⟨kept, rfl⟩

/-- If the rows can be read and every test succeeds, the rows that pass are those of the filtered
query. -/
theorem filter_ok (hE : E.SelectsRows) {rows kept : List Value} (hrows : q.rows d = .ok rows)
    (hkept : keepIf (p.test d) rows = .ok kept) :
    ∃ q', q.filter d p = .ok q' ∧ q'.schema = q.schema ∧ q'.keys = none ∧ q'.rows d = .ok kept := by
  obtain ⟨source, hsorted, hsource⟩ := Except.bind_eq_ok.mp hrows
  have h := filter_of_sorted (p := p) hE hsorted
  rw [hsource, Except.ok_bind, hkept] at h
  obtain ⟨q', hq', hschema, hkeys, hread⟩ := h
  exact ⟨q', hq', hschema, hkeys, by rw [rows_of_keys_none hkeys, hread]⟩

theorem filter_of_rows_error (hE : E.SelectsRows) {e : Error}
    (h : (q.rows d >>= keepIf (p.test d)) = .error e) :
    q.filter d p = .error e := by
  rw [rows] at h
  cases hsorted : q.sorted d with
  | error e' =>
    rw [hsorted] at h
    rw [filter, hsorted]
    cases h
    rfl
  | ok source =>
    have hf := filter_of_sorted (p := p) hE hsorted
    rw [hsorted, Except.ok_bind] at h
    rwa [h] at hf

/-- A filter fails exactly if the reading of the rows fails, or else one of its tests. -/
theorem filter_eq_error (hE : E.SelectsRows) {e : Error} :
    q.filter d p = .error e ↔ (q.rows d >>= keepIf (p.test d)) = .error e := by
  refine ⟨fun h => ?_, filter_of_rows_error hE⟩
  cases hall : q.rows d >>= keepIf (p.test d) with
  | error e' =>
    rw [filter_of_rows_error hE hall] at h
    cases h
    rfl
  | ok kept =>
    obtain ⟨rows, hrows, hkept⟩ := Except.bind_eq_ok.mp hall
    obtain ⟨q', hq', -⟩ := filter_ok hE hrows hkept
    rw [hq'] at h
    cases h

end Query
end RecordQuery
