import RecordQuery.Proofs.ColumnProjection
import RecordQuery.Proofs.Filtering
import RecordQuery.Proofs.TableOrder
import RecordQuery.Query.Sorting

/-!
# Queries over tables and lists

`Agree placement t records q q'` says that `q` is a query over the table `t`, whose columns are of
plain types, and `q'` one over its records, with the same schema and the same pending keys. Where
every key ends in a column without parts and nulls fit the placement (`Query.SortsAlike`), both are
sorted into the same rows (`Agree.sorted`), and they are in agreement again after a filter, a sort
or a projection (`Agree.filter`, `Agree.orderBy`, `Agree.thenBy`, `Agree.project`). What this takes
of the library of tables is named in `Engine.Supports`.
-/

namespace RecordQuery

open ColumnType

/-! ### Keys that lead to columns -/

/-- A key that no struct is the value of. -/
def SortKey.EndsInScalar (key : SortKey) : Prop :=
  ∀ a fields, key.source = .accessor a → a.resultType ≠ .column (.struct fields)

/-- The key is read along a chain of the columns. -/
def SortKey.OnColumns (columns : List (String × ColumnType)) (key : SortKey) : Prop :=
  ∃ a t, key.source = .accessor a ∧ ColumnChain columns a.fields t ∧ a.resultType = .column t

/-- The values of a column without parts are of one kind of keys that columns hold. -/
theorem ColumnType.isCell_of_holds {t : ColumnType} (ht : t.IsPlain)
    (hscalar : ∀ fields, t ≠ .struct fields) : ∃ kind, ∀ v, Holds t v → Value.IsCell kind v := by
  cases ht with
  | bool =>
    refine ⟨.bool, fun v hv => ?_⟩
    rcases hv.of_bool with rfl | ⟨b, rfl⟩
    · exact .null _
    · exact .bool b
  | @integer t range h hword =>
    refine ⟨.integer, fun v hv => ?_⟩
    rcases hv.of_range? h with rfl | ⟨i, rfl, hi⟩
    · exact .null _
    · rw [inRange, Bool.and_eq_true, decide_eq_true_iff, decide_eq_true_iff] at hi
      exact .int ⟨hword.1.trans hi.1, hi.2.trans_lt hword.2⟩
  | string =>
    refine ⟨.text, fun v hv => ?_⟩
    rcases hv.of_string with rfl | ⟨s, rfl⟩
    · exact .null _
    · exact .str s
  | struct => exact absurd rfl (hscalar _)

/-- Records of columns can be sorted by a key that ends in a column without parts. -/
theorem SortKey.OnColumns.hasCells {d : Directory} {columns : List (String × ColumnType)}
    {key : SortKey} (h : key.OnColumns columns) (hscalar : key.EndsInScalar)
    (hplain : (ColumnType.struct columns).IsPlain) {records : List Value}
    (hrecords : ∀ r ∈ records, Row.HasColumns columns r) : key.HasCells d records := by
  obtain ⟨a, t, hsource, hchain, htype⟩ := h
  have hstruct : ∀ fields, t ≠ .struct fields := by
    rintro fields rfl
    exact hscalar a fields hsource htype
  obtain ⟨kind, hkind⟩ := isCell_of_holds (hchain.isPlain hplain) hstruct
  refine ⟨kind, fun row hrow => ?_⟩
  obtain ⟨entries, rfl, hentries⟩ := hrecords row hrow
  obtain ⟨v, hv, hholds⟩ := hchain.readFields_eq_ok hplain d.catalog hentries
  exact ⟨v, by rw [hsource]; exact hv, hkind v hholds⟩

/-! ### Queries that agree -/

variable {E : Engine}

/-- A query over a table, and one over the list of its records, with the same pending keys. -/
structure Agree (placement : NullPlacement) (t : E.Table) (records : List Value) (q q' : Query E) :
    Prop where
  table : q.source = .table t placement
  list : q'.source = .list records
  plain : (ColumnType.struct (E.columns t)).IsPlain
  records_eq : E.records t = .ok records
  schema : ∃ key name, q.schema = .ofColumns key name (E.columns t)
  schema_eq : q'.schema = q.schema
  keys_eq : q'.keys = q.keys
  keys : ∀ k ∈ q.keys.getD [], k.OnColumns (E.columns t)

/-- Every pending key ends in a column without parts, and one that is null for a row that the query
holds has the direction in which null comes at the end of the placement. -/
def Query.SortsAlike (d : Directory) (placement : NullPlacement) (q : Query E) : Prop :=
  ∀ rows, q.source = .list rows → ∀ key ∈ q.keys.getD [],
    key.EndsInScalar ∧ key.NullsFit d placement rows

theorem Query.sortsAlike_of_keys_none {d : Directory} {placement : NullPlacement} {q : Query E}
    (h : q.keys = none) : q.SortsAlike d placement := by
  simp [SortsAlike, h]

/-- What the two pipelines rely on: a library that selects rows, sorts stably and keeps records, and
values that are converted to the types of columns. -/
structure Engine.Supports (E : Engine) (d : Directory) : Prop where
  selects : E.SelectsRows
  sorts : E.SortsStably
  keeps : E.KeepsRecords
  casts : d.catalog.CastsToPlain

namespace Agree

variable {d : Directory} {placement : NullPlacement} {t : E.Table} {records : List Value}
  {q q' : Query E}

theorem hasColumns (h : Agree placement t records q q') (hE : E.KeepsRecords) :
    ∀ r ∈ records, Row.HasColumns (E.columns t) r :=
  hE.hasColumns h.records_eq h.plain

/-- Queries that agree are sorted alike. -/
theorem sorted (h : Agree placement t records q q') (hE : E.Supports d)
    (hfit : q'.SortsAlike d placement) {source source' : RowSource E}
    (hsorted : q.sorted d = .ok source) (hsorted' : q'.sorted d = .ok source') :
    ∃ t₁ records₁, source = .table t₁ placement ∧ source' = .list records₁ ∧
      E.columns t₁ = E.columns t ∧ E.records t₁ = .ok records₁ := by
  have hfit : ∀ key ∈ q.keys.getD [], key.EndsInScalar ∧ key.NullsFit d placement records := by
    rw [← h.keys_eq]
    exact hfit records h.list
  have hcells : ∀ key ∈ q.keys.getD [], key.HasCells d records := fun key hkey =>
    (h.keys key hkey).hasCells (hfit key hkey).1 h.plain (h.hasColumns hE.keeps)
  have hordered : ∀ key ∈ q.keys.getD [], key.Ordered d records := fun key hkey =>
    (hcells key hkey).ordered
  rw [Query.sorted, h.table] at hsorted
  rw [Query.sorted, h.list, h.keys_eq] at hsorted'
  obtain ⟨t', ht', hsorted⟩ := Except.bind_eq_ok.1 hsorted
  obtain ⟨out, hout, hsorted'⟩ := Except.bind_eq_ok.1 hsorted'
  cases hsorted
  cases hsorted'
  obtain ⟨t₁, placed, ht₁, hperm, hplaced, -, hcolumns, hread⟩ :=
    Query.sortTable_eq_ok placement hE.selects hE.sorts h.records_eq hcells
  cases ht'.symm.trans ht₁
  obtain ⟨out', hout', hlist⟩ := Query.sortList_eq_ok hordered
  cases hout.symm.trans hout'
  refine ⟨t', out, rfl, rfl, hcolumns, ?_⟩
  have htable : StablyOrdered (Precedes d (q.keys.getD [])) records (placed.map Prod.fst) :=
    StablyOrdered.congr ⟨placed, hperm, rfl, hplaced⟩ fun a ha b hb =>
      Query.placed_iff_precedes ha hb hordered fun key hkey => (hfit key hkey).2
  rw [hread, htable.unique (fun _ _ => Precedes.asymm) hlist]

theorem unsorted (htable : q.source = .table t placement) (hlist : q'.source = .list records)
    (hplain : (ColumnType.struct (E.columns t)).IsPlain) (hrecords : E.records t = .ok records)
    (hschema : ∃ key name, q.schema = .ofColumns key name (E.columns t))
    (hschema' : q'.schema = q.schema) (hkeys : q.keys = none) (hkeys' : q'.keys = none) :
    Agree placement t records q q' :=
  ⟨htable, hlist, hplain, hrecords, hschema, hschema', hkeys'.trans hkeys.symm, by simp [hkeys]⟩

/-- A filter makes the same tests on both, and keeps the same rows. -/
theorem filter (h : Agree placement t records q q') (hE : E.Supports d)
    (hfit : q'.SortsAlike d placement) {p : Predicate} {q₁ q₁' : Query E}
    (hq : q.filter d p = .ok q₁) (hq' : q'.filter d p = .ok q₁') :
    ∃ t₁ records₁, Agree placement t₁ records₁ q₁ q₁' := by
  obtain ⟨source, hsorted, -⟩ := Except.bind_eq_ok.1 hq
  obtain ⟨source', hsorted', -⟩ := Except.bind_eq_ok.1 hq'
  obtain ⟨t₁, records', rfl, rfl, hcolumns, hrecords⟩ := h.sorted hE hfit hsorted hsorted'
  have hf := Query.filter_of_sorted (p := p) hE.selects hsorted
  have hf' := Query.filter_of_sorted (p := p) hE.selects hsorted'
  rw [RowSource.rows, hrecords, Except.ok_bind, hq] at hf
  rw [RowSource.rows, Except.ok_bind, hq'] at hf'
  cases hkept : keepIf (p.test d) records' with
  | error e =>
    rw [hkept] at hf
    cases hf
  | ok kept =>
    rw [hkept] at hf hf'
    obtain ⟨_, ⟨⟩, hschema, hkeys, hread⟩ := hf
    obtain ⟨_, ⟨⟩, hschema', hkeys', hread'⟩ := hf'
    obtain ⟨mask, t₂, hmask, htable⟩ := Query.source_of_filter_table hsorted hq
    obtain ⟨kept', hlist⟩ := Query.source_of_filter_list hsorted' hq'
    rw [htable] at hread
    rw [hlist] at hread'
    cases hread'
    have hcolumns : E.columns t₂ = E.columns t :=
      (hE.selects.columns_filter hmask).trans hcolumns
    refine ⟨_, _, .unsorted htable hlist ?_ hread ?_ ?_ hkeys hkeys'⟩
    · rw [hcolumns]
      exact h.plain
    · rw [hschema, hcolumns]
      exact h.schema
    · rw [hschema, hschema', h.schema_eq]

/-- A projection builds the same records from both. -/
theorem project (h : Agree placement t records q q') (hE : E.Supports d)
    (hfit : q'.SortsAlike d placement) {key : SchemaKey} {name : String}
    {columns : List (String × ColumnType)} (hcolumns : columns ≠ [])
    (hplain : (ColumnType.struct columns).IsPlain) {q₁ q₁' : Query E}
    (hq : q.project d (.between q.schema (.ofColumns key name columns)) = .ok q₁)
    (hq' : q'.project d (.between q'.schema (.ofColumns key name columns)) = .ok q₁') :
    ∃ t₁ records₁, Agree placement t₁ records₁ q₁ q₁' := by
  obtain ⟨source, hsorted, hq⟩ := Except.bind_eq_ok.1 hq
  obtain ⟨source', hsorted', hq'⟩ := Except.bind_eq_ok.1 hq'
  obtain ⟨t₀, records', rfl, rfl, hsame, hrecords⟩ := h.sorted hE hfit hsorted hsorted'
  obtain ⟨_, hread, hq⟩ := Except.bind_eq_ok.1 hq
  cases hread.symm.trans hrecords
  obtain ⟨built, hbuilt, hq⟩ := Except.bind_eq_ok.1 hq
  obtain ⟨built', hbuilt', hq'⟩ := Except.bind_eq_ok.1 hq'
  rw [h.schema_eq] at hbuilt'
  cases hbuilt.symm.trans hbuilt'
  cases hq'
  obtain ⟨key₀, name₀, hschema⟩ := h.schema
  rw [hschema, ← hsame] at hbuilt
  have hplain₀ : (ColumnType.struct (E.columns t₀)).IsPlain := hsame ▸ h.plain
  have hholds : ∀ r ∈ built, Row.HasColumns columns r := by
    intro r hr
    obtain ⟨v, hv, hbuild⟩ := Except.exists_of_mem_mapM hbuilt hr
    exact ProjectionPlan.hasColumns_apply hE.casts hplain₀ hplain
      (hE.keeps.hasColumns hrecords hplain₀ v hv) hbuild
  simp only [ProjectionPlan.between, Schema.isMapping_ofColumns key name hcolumns, if_true] at hq
  obtain ⟨t₁, ht₁, hq⟩ := Except.bind_eq_ok.1 hq
  cases hq
  rw [Schema.tableOf, Schema.columns?_ofColumns] at ht₁
  have hcolumns₁ := hE.keeps.columns_ofRecords ht₁
  have hrecords₁ := hE.keeps.records_ofRecords hcolumns hplain hholds ht₁
  exact ⟨t₁, built, .unsorted rfl rfl (hcolumns₁ ▸ hplain) hrecords₁
    ⟨key, name, by rw [hcolumns₁]⟩ rfl rfl rfl⟩

theorem addKey (h : Agree placement t records q q') {k : SortKey}
    (hk : k.OnColumns (E.columns t)) :
    Agree placement t records (q.addKey k) (q'.addKey k) where
  table := h.table
  list := h.list
  plain := h.plain
  records_eq := h.records_eq
  schema := h.schema
  schema_eq := h.schema_eq
  keys_eq := by rw [Query.addKey, Query.addKey, h.keys_eq]
  keys := by
    intro k' hk'
    rcases List.mem_append.1 hk' with hk' | hk'
    · exact h.keys k' hk'
    · rw [List.mem_singleton.1 hk']
      exact hk

/-- A spec is resolved to the same key on both, which is read along columns. -/
theorem resolveSpec (h : Agree placement t records q q') {spec : OrderingSpec} {k : SortKey}
    (hk : (q.resolveSpec d spec).result = .ok k) :
    (q'.resolveSpec d spec).result = .ok k ∧ k.OnColumns (E.columns t) := by
  refine ⟨by rw [Query.resolveSpec, h.schema_eq]; exact hk, ?_⟩
  obtain ⟨key, name, hschema⟩ := h.schema
  obtain ⟨a, ha, hk⟩ := Outcome.result_bind_eq_ok.1 hk
  cases hk
  rw [hschema] at ha
  obtain ⟨ty, hchain, htype⟩ := ColumnChain.of_resolveNames ha
  exact ⟨a, ty, rfl, hchain, htype⟩

theorem addSpecs (h : Agree placement t records q q') {specs : List OrderingSpec} {q₁ q₁' : Query E}
    (hq : (q.addSpecs d specs).result = .ok q₁) (hq' : (q'.addSpecs d specs).result = .ok q₁') :
    Agree placement t records q₁ q₁' := by
  induction specs generalizing q q' with
  | nil =>
    cases hq
    cases hq'
    exact h
  | cons spec specs ih =>
    obtain ⟨k, hk, hq⟩ := Outcome.result_bind_eq_ok.1 hq
    obtain ⟨k', hk', hq'⟩ := Outcome.result_bind_eq_ok.1 hq'
    obtain ⟨hsame, hcolumns⟩ := h.resolveSpec hk
    cases hk'.symm.trans hsame
    exact ih (h.addKey hcolumns) hq hq'

theorem sortBy (h : Agree placement t records q q') (hE : E.Supports d)
    (hfit : q'.SortsAlike d placement)
    {k : SortKey}
    (hk : k.OnColumns (E.columns t)) {q₁ q₁' : Query E} (hq : q.sortBy d k = .ok q₁)
    (hq' : q'.sortBy d k = .ok q₁') : ∃ t₁ records₁, Agree placement t₁ records₁ q₁ q₁' := by
  obtain ⟨source, hsorted, hq⟩ := Except.bind_eq_ok.1 hq
  obtain ⟨source', hsorted', hq'⟩ := Except.bind_eq_ok.1 hq'
  cases hq
  cases hq'
  obtain ⟨t₁, records', rfl, rfl, hcolumns, hrecords⟩ := h.sorted hE hfit hsorted hsorted'
  refine ⟨t₁, records', rfl, rfl, ?_, hrecords, ?_, h.schema_eq, rfl, ?_⟩
  · exact hcolumns ▸ h.plain
  · rw [hcolumns]
    exact h.schema
  · rw [hcolumns]
    simpa using hk

/-- Ordering text gives both the same keys, after the pending ones were applied. -/
theorem orderBy (h : Agree placement t records q q') (hE : E.Supports d)
    (hfit : q'.SortsAlike d placement)
    {text : String} {q₁ q₁' : Query E} (hq : (q.orderBy d (.text text) false).result = .ok q₁)
    (hq' : (q'.orderBy d (.text text) false).result = .ok q₁') :
    ∃ t₁ records₁, Agree placement t₁ records₁ q₁ q₁' := by
  obtain ⟨-, -, hq⟩ := Outcome.result_bind_eq_ok.1 hq
  obtain ⟨-, -, hq'⟩ := Outcome.result_bind_eq_ok.1 hq'
  obtain ⟨specs, hspecs, hq⟩ := Outcome.result_bind_eq_ok.1 hq
  obtain ⟨specs', hspecs', hq'⟩ := Outcome.result_bind_eq_ok.1 hq'
  cases hspecs.symm.trans hspecs'
  cases specs with
  | nil => cases hq
  | cons spec specs =>
    obtain ⟨k, hk, hq⟩ := Outcome.result_bind_eq_ok.1 hq
    obtain ⟨k', hk', hq'⟩ := Outcome.result_bind_eq_ok.1 hq'
    obtain ⟨hsame, hcolumns⟩ := h.resolveSpec hk
    cases hk'.symm.trans hsame
    obtain ⟨q₂, hsort, hq⟩ := Outcome.result_bind_eq_ok.1 hq
    obtain ⟨q₂', hsort', hq'⟩ := Outcome.result_bind_eq_ok.1 hq'
    obtain ⟨t₁, records₁, h₁⟩ := h.sortBy hE hfit hcolumns hsort hsort'
    exact ⟨t₁, records₁, h₁.addSpecs hq hq'⟩

theorem thenBy (h : Agree placement t records q q') {text : String} {r r' : Option (Query E)}
    (hq : (q.thenBy d (.text text) false).result = .ok r)
    (hq' : (q'.thenBy d (.text text) false).result = .ok r') :
    Agree placement t records (r.getD q) (r'.getD q') := by
  unfold Query.thenBy at hq hq'
  split at hq
  · cases hq
  · split at hq'
    · cases hq'
    · obtain ⟨-, -, hq⟩ := Outcome.result_bind_eq_ok.1 hq
      obtain ⟨-, -, hq'⟩ := Outcome.result_bind_eq_ok.1 hq'
      obtain ⟨specs, hspecs, hq⟩ := Outcome.result_bind_eq_ok.1 hq
      obtain ⟨specs', hspecs', hq'⟩ := Outcome.result_bind_eq_ok.1 hq'
      cases hspecs.symm.trans hspecs'
      cases specs with
      | nil =>
        cases hq
        cases hq'
        exact h
      | cons spec specs =>
        obtain ⟨q₁, hadd, hq⟩ := Outcome.result_bind_eq_ok.1 hq
        obtain ⟨q₁', hadd', hq'⟩ := Outcome.result_bind_eq_ok.1 hq'
        cases hq
        cases hq'
        exact h.addSpecs hadd hadd'

end Agree

end RecordQuery
