import RecordQuery.Proofs.DataConstruction
import RecordQuery.Proofs.Filtering
import RecordQuery.Proofs.MemoryTables
import RecordQuery.Proofs.SharedSchemas
import RecordQuery.Query.Sorting

/-!
# The schema of a query over a table

Filters and sorts keep the columns of a table (`Query.Keeps`). A projection makes a table of its
records, all of which have the names of the target (`ProjectionPlan.names_apply`); so the table's
columns are those that the schema names, unless they were to be found from records that are not
there (`Query.namesColumns_of_project`). Along a run of these operations the columns of the
table are therefore the names of the schema, or the table has neither columns nor rows
(`TableStep.names_toTable`).
-/

namespace RecordQuery

/-! ### Records of mapping schemas -/

/-- A schema of mappings that has members, all of which can be assigned, under distinct names. -/
structure Schema.IsRowSchema (s : Schema) : Prop where
  maker : s.maker = .mapping
  isMapping : s.isMapping = true
  writable : ∀ f ∈ s.fields, f.writable = true
  nodup : s.names.Nodup

theorem map_fst_put_of_mem {α : Type} {entries : List (String × α)} {key : String}
    (h : key ∈ entries.map (·.1)) (value : α) :
    (put entries key value).map (·.1) = entries.map (·.1) := by
  rw [keys_put, if_pos h]

/-- Setting the values of names that are there keeps the names. -/
theorem map_fst_foldl_put {α : Type} {entries values : List (String × α)}
    (h : ∀ e ∈ values, e.1 ∈ entries.map (·.1)) :
    (values.foldl (fun all e => put all e.1 e.2) entries).map (·.1) = entries.map (·.1) := by
  induction values generalizing entries with
  | nil => rfl
  | cons e values ih =>
    rw [List.forall_mem_cons] at h
    have hput := map_fst_put_of_mem h.1 e.2
    rw [List.foldl_cons, ih (by rw [hput]; exact h.2), hput]

theorem Row.names_dict (entries : List (String × Value)) :
    names (.dict (entries.map fun e => (.str e.1, e.2))) = entries.map (·.1) := by
  rw [names, List.filterMap_map]
  exact congrFun (@List.filterMap_eq_map _ _ fun e => e.1) entries

namespace Schema.IsRowSchema

variable {s : Schema}

theorem filter_writable (h : s.IsRowSchema) : s.fields.filter (·.writable) = s.fields :=
  List.filter_eq_self.2 h.writable

/-- A new record has all members, in their order. -/
theorem names_newMapping (h : s.IsRowSchema) {values : List (String × Value)}
    (hvalues : ∀ e ∈ values, e.1 ∈ s.names) :
    Row.names (s.newMapping values) = s.names := by
  have hnames : (s.fields.map fun f => (f.name, Value.null)).map (·.1) = s.names := by
    rw [List.map_map]
    rfl
  rw [newMapping, blank_eq h.writable h.nodup]
  refine (Row.names_dict _).trans ?_
  rw [map_fst_foldl_put (by rwa [hnames]), hnames]

/-- The columns of the members, if all of them have column types, are named like them. -/
theorem names_of_columns? (h : s.IsRowSchema) {columns : List (String × ColumnType)}
    (hcolumns : s.columns? = some columns) : columns.map (·.1) = s.names := by
  rw [columns?, h.filter_writable] at hcolumns
  rw [names]
  clear h
  generalize s.fields = fields at hcolumns
  induction fields generalizing columns with
  | nil =>
    cases hcolumns
    rfl
  | cons f fields ih =>
    rw [List.mapM_cons] at hcolumns
    obtain ⟨c, hc, hcolumns⟩ := Option.bind_eq_some_iff.1 hcolumns
    obtain ⟨rest, hrest, hcolumns⟩ := Option.bind_eq_some_iff.1 hcolumns
    obtain ⟨t, -, rfl⟩ := Option.map_eq_some_iff.1 hc
    cases hcolumns
    rw [List.map_cons, List.map_cons, ih hrest]

end Schema.IsRowSchema

theorem Schema.isRowSchema_ofColumns (key : SchemaKey) (name : String)
    {columns : List (String × ColumnType)} (hne : columns ≠ [])
    (hnodup : (columns.map (·.1)).Nodup) : (Schema.ofColumns key name columns).IsRowSchema where
  maker := rfl
  isMapping := isMapping_ofColumns key name hne
  writable := writable_of_mem_ofColumns key name columns
  nodup := (names_ofColumns key name columns).symm ▸ hnodup

/-! ### Mapping types -/

namespace Catalog

variable {catalog : Catalog} {cls : String}

/-- The class and its bases are types of mappings. -/
def IsMappingType (catalog : Catalog) (cls : String) : Prop :=
  catalog.lineage cls ≠ [] ∧ ∀ c ∈ catalog.lineage cls, c.kind = .mapping

theorem nodup_written (catalog : Catalog) (cls : String) :
    ((catalog.written cls).map (·.1)).Nodup := by
  refine List.foldlRecOn
    (motive := fun all : List (String × TypeExpr) => (all.map Prod.fst).Nodup) _ _ List.nodup_nil
    fun all hall c _ => ?_
  exact List.foldlRecOn
    (motive := fun all : List (String × TypeExpr) => (all.map Prod.fst).Nodup) _ _ hall
    fun all hall _ _ => nodup_keys_put hall _ _

theorem nodup_annotations (catalog : Catalog) (cls : String) :
    ((catalog.annotations cls).map (·.1)).Nodup := by
  unfold annotations
  split
  · rename_i all hall
    refine Except.foldlM_induction
      (motive := fun all : List (String × TypeExpr) => (all.map Prod.fst).Nodup)
      (fun c _ all all' hall h => ?_) (b := []) List.nodup_nil hall
    refine Except.foldlM_induction
      (motive := fun all : List (String × TypeExpr) => (all.map Prod.fst).Nodup)
      (fun f _ all all' hall h => ?_) hall h
    obtain ⟨t, -, h⟩ := Except.bind_eq_ok.1 h
    cases h
    exact nodup_keys_put hall f.name t
  · exact nodup_written catalog cls

theorem IsMappingType.schemaOf (h : catalog.IsMappingType cls) :
    catalog.schemaOf (.record cls) =
      { key := .ofType (.record cls), name := cls, fields := catalog.mappingMembers cls,
        maker := .mapping } := by
  have hdata : catalog.dataClass? cls = none := by
    rw [dataClass?, List.find?_eq_none]
    intro c hc
    simp [ClassDecl.isData, h.2 c (List.mem_reverse.1 hc)]
  have hmapping : (catalog.lineage cls).any (·.kind == .mapping) = true := by
    obtain ⟨c, hc⟩ := List.exists_mem_of_ne_nil _ h.1
    exact List.any_eq_true.2 ⟨c, hc, by simp [h.2 c hc]⟩
  simp [Catalog.schemaOf, classSchema, hdata, hmapping]

/-- The schema of a mapping type, if that has keys. -/
theorem IsMappingType.isRowSchema (h : catalog.IsMappingType cls)
    (hne : (catalog.schemaOf (.record cls)).fields ≠ []) :
    (catalog.schemaOf (.record cls)).IsRowSchema := by
  rw [h.schemaOf] at hne ⊢
  refine ⟨rfl, ?_, ?_, ?_⟩
  · simpa [Schema.isMapping, mappingMembers] using hne
  · intro f hf
    obtain ⟨e, -, rfl⟩ := List.mem_map.1 hf
    rfl
  · simpa [Schema.names, mappingMembers, Function.comp_def] using nodup_annotations catalog cls

end Catalog

/-! ### Tables of records -/

/-- What a projection into a schema of mappings builds has the names of the schema. -/
theorem ProjectionPlan.names_apply {catalog : Catalog} {source target : Schema}
    (h : target.IsRowSchema) {v w : Value}
    (happly : (between source target).apply catalog v = .ok w) :
    Row.names w = target.names := by
  obtain ⟨values, hvalues, happly⟩ := Except.bind_eq_ok.1 happly
  have hnames : ∀ e ∈ values, e.1 ∈ target.names := by
    refine Except.foldlM_induction
      (motive := fun all : List (String × Value) => ∀ e ∈ all, e.1 ∈ target.names) ?_ (by simp)
      hvalues
    intro b hb all all' hall hput
    obtain ⟨w, -, hput⟩ := Except.bind_eq_ok.1 hput
    cases hput
    obtain ⟨f, hf, hb⟩ := List.mem_filterMap.1 hb
    intro e he
    rcases mem_of_mem_put he with rfl | he
    · exact List.mem_map.2 ⟨f, hf, by rw [Binding.name, (Binding.eq_of_ofTarget? hb).1]⟩
    · exact hall e he
  have hmaker : (between source target).target.maker = .mapping := h.maker
  unfold Schema.new at happly
  split at happly
  · cases happly
  · rw [hmaker] at happly
    cases happly
    exact h.names_newMapping hnames

/-- The columns of a table of records are those that the schema names, unless there are no records
and the columns are found from them. -/
theorem Schema.IsRowSchema.tableOf {E : Engine} (hE : E.KeepsRecords) {s : Schema}
    (h : s.IsRowSchema) {records : List Value} (hrecords : ∀ r ∈ records, Row.names r = s.names)
    {t : E.Table} (ht : s.tableOf E records = .ok t) :
    (E.columns t).map (·.1) = s.names ∨
      (s.columns? = none ∧ records = [] ∧ E.columns t = [] ∧ E.size t = 0) := by
  unfold Schema.tableOf at ht
  split at ht
  · rename_i columns hcolumns
    rw [hE.columns_ofRecords ht]
    exact .inl (h.names_of_columns? hcolumns)
  · rename_i hcolumns
    have hnames := hE.names_inferRecords ht
    cases records with
    | nil => exact .inr ⟨hcolumns, rfl, List.map_eq_nil_iff.1 hnames, hE.size_inferRecords ht⟩
    | cons r records =>
      rw [hnames]
      exact .inl (hrecords r List.mem_cons_self)

namespace Query

variable {E : Engine} {d : Directory} {q q₁ q₂ : Query E} {t t' : E.Table}
  {placement : NullPlacement}

/-! ### Filters and sorts -/

/-- Both queries have one schema and hold tables of the same columns, and the second table is empty
if the first one is. -/
def Keeps (q q₁ : Query E) : Prop :=
  ∃ t t₁ placement, q.source = .table t placement ∧ q₁.source = .table t₁ placement ∧
    E.columns t₁ = E.columns t ∧ (E.size t = 0 → E.size t₁ = 0) ∧ q₁.schema = q.schema

theorem Keeps.trans (h : q.Keeps q₁) (h₁ : q₁.Keeps q₂) : q.Keeps q₂ := by
  obtain ⟨t, t₁, placement, ht, ht₁, hcolumns, hsize, hschema⟩ := h
  obtain ⟨t₁', t₂, placement', ht₁', ht₂, hcolumns', hsize', hschema'⟩ := h₁
  cases ht₁.symm.trans ht₁'
  exact ⟨t, t₂, placement, ht, ht₂, hcolumns'.trans hcolumns, fun h => hsize' (hsize h),
    hschema'.trans hschema⟩

theorem keeps_of_eq (h : q.source = .table t placement)
    (hsource : q₁.source = q.source) (hschema : q₁.schema = q.schema) : q.Keeps q₁ :=
  ⟨t, t, placement, h, hsource.trans h, rfl, id, hschema⟩

/-- Sorting a table keeps its columns, and an empty one is left as it is. -/
theorem keeps_of_sortTable (hE : E.SelectsRows) {keys : List SortKey}
    (h : sortTable d keys placement t = .ok t') :
    E.columns t' = E.columns t ∧ (E.size t = 0 → t' = t) := by
  unfold sortTable at h
  split at h
  · cases h
    exact ⟨rfl, fun _ => rfl⟩
  · rename_i hne
    have hsize : E.size t ≠ 0 := fun hsize => hne (by simp [hsize])
    refine ⟨?_, fun hzero => absurd hzero hsize⟩
    obtain ⟨records, -, h⟩ := Except.bind_eq_ok.1 h
    obtain ⟨columns, -, h⟩ := Except.bind_eq_ok.1 h
    split at h
    · cases h
      rfl
    · obtain ⟨keyTable, -, h⟩ := Except.bind_eq_ok.1 h
      obtain ⟨positions, -, h⟩ := Except.bind_eq_ok.1 h
      exact hE.columns_take h

theorem sorted_table (hE : E.SelectsRows) (h : q.source = .table t placement)
    {source : RowSource E} (hsorted : q.sorted d = .ok source) :
    ∃ t', source = .table t' placement ∧ E.columns t' = E.columns t ∧ (E.size t = 0 → t' = t) := by
  rw [sorted, h] at hsorted
  obtain ⟨t', ht', hsorted⟩ := Except.bind_eq_ok.1 hsorted
  cases hsorted
  exact ⟨t', rfl, keeps_of_sortTable hE ht'⟩

theorem keeps_of_filter (hE : E.SelectsRows) (h : q.source = .table t placement) {p : Predicate}
    (hq : q.filter d p = .ok q₁) : q.Keeps q₁ := by
  obtain ⟨source, hsorted, hq'⟩ := Except.bind_eq_ok.1 hq
  obtain ⟨t', rfl, hcolumns, hsame⟩ := sorted_table hE h hsorted
  obtain ⟨records, hrecords, hq'⟩ := Except.bind_eq_ok.1 hq'
  obtain ⟨mask, hmask, hq'⟩ := Except.bind_eq_ok.1 hq'
  obtain ⟨t₁, ht₁, hq'⟩ := Except.bind_eq_ok.1 hq'
  cases hq'
  refine ⟨t, t₁, placement, h, rfl, (hE.columns_filter ht₁).trans hcolumns, fun hsize => ?_, rfl⟩
  -- there are no rows to be kept
  cases hsame hsize
  have hnil := List.eq_nil_of_length_eq_zero ((hE.size hrecords).trans hsize)
  subst hnil
  cases Except.mapM_eq_ok.1 hmask
  have hlength : ([] : List Bool).length = ([] : List Value).length := rfl
  obtain ⟨t₂, ht₂, hkept⟩ := hE.filter hrecords hlength
  cases ht₁.symm.trans ht₂
  exact (hE.size hkept).symm

theorem keeps_of_sortBy (hE : E.SelectsRows) (h : q.source = .table t placement) {k : SortKey}
    (hq : q.sortBy d k = .ok q₁) : q.Keeps q₁ := by
  obtain ⟨source, hsorted, hq⟩ := Except.bind_eq_ok.1 hq
  cases hq
  obtain ⟨t', rfl, hcolumns, hsame⟩ := sorted_table hE h hsorted
  exact ⟨t, t', placement, h, rfl, hcolumns, fun hsize => hsame hsize ▸ hsize, rfl⟩

theorem keeps_of_addSpecs (h : q.source = .table t placement) {specs : List OrderingSpec}
    (hq : (q.addSpecs d specs).result = .ok q₁) : q.Keeps q₁ := by
  induction specs generalizing q with
  | nil =>
    cases hq
    exact keeps_of_eq h rfl rfl
  | cons spec specs ih =>
    obtain ⟨k, -, hq⟩ := Outcome.result_bind_eq_ok.1 hq
    exact (keeps_of_eq h rfl rfl : q.Keeps (q.addKey k)).trans (ih (q := q.addKey k) h hq)

theorem keeps_of_orderBy (hE : E.SelectsRows) (h : q.source = .table t placement)
    {request : KeyRequest} {descending : Bool}
    (hq : (q.orderBy d request descending).result = .ok q₁) : q.Keeps q₁ := by
  unfold orderBy at hq
  split at hq
  · obtain ⟨-, -, hq⟩ := Outcome.result_bind_eq_ok.1 hq
    obtain ⟨specs, -, hq⟩ := Outcome.result_bind_eq_ok.1 hq
    cases specs with
    | nil => cases hq
    | cons spec specs =>
      obtain ⟨k, -, hq⟩ := Outcome.result_bind_eq_ok.1 hq
      obtain ⟨q₂, hsort, hq⟩ := Outcome.result_bind_eq_ok.1 hq
      have hkeeps := keeps_of_sortBy hE h hsort
      obtain ⟨-, t₂, placement₂, -, hsource, -⟩ := id hkeeps
      exact hkeeps.trans (keeps_of_addSpecs hsource hq)
  · obtain ⟨source, -, hq⟩ := Outcome.result_bind_eq_ok.1 hq
    exact keeps_of_sortBy hE h hq

theorem keeps_of_thenBy (h : q.source = .table t placement) {request : KeyRequest}
    {descending : Bool} {r : Option (Query E)}
    (hq : (q.thenBy d request descending).result = .ok r) : q.Keeps (r.getD q) := by
  unfold thenBy at hq
  split at hq
  · cases hq
  · split at hq
    · obtain ⟨-, -, hq⟩ := Outcome.result_bind_eq_ok.1 hq
      obtain ⟨specs, -, hq⟩ := Outcome.result_bind_eq_ok.1 hq
      cases specs with
      | nil =>
        cases hq
        exact keeps_of_eq h rfl rfl
      | cons spec specs =>
        obtain ⟨q₂, hadd, hq⟩ := Outcome.result_bind_eq_ok.1 hq
        cases hq
        exact keeps_of_addSpecs h hadd
    · obtain ⟨source, -, hq⟩ := Outcome.result_bind_eq_ok.1 hq
      cases hq
      exact keeps_of_eq h rfl rfl

/-! ### What a query holds -/

/-- The query holds a table whose columns are those that its schema names. -/
def NamesColumns (q : Query E) : Prop :=
  ∃ t placement, q.source = .table t placement ∧ (E.columns t).map (·.1) = q.schema.names

/-- The query holds a table without columns and rows. -/
def IsBare (q : Query E) : Prop :=
  ∃ t placement, q.source = .table t placement ∧ E.columns t = [] ∧ E.size t = 0

theorem exists_table (h : q.NamesColumns ∨ q.IsBare) :
    ∃ t placement, q.source = .table t placement := by
  rcases h with ⟨t, placement, hsource, -⟩ | ⟨t, placement, hsource, -⟩
  · exact ⟨t, placement, hsource⟩
  · exact ⟨t, placement, hsource⟩

theorem Keeps.namesColumns (h : q.Keeps q₁) (hq : q.NamesColumns) : q₁.NamesColumns := by
  obtain ⟨t, t₁, placement, ht, ht₁, hcolumns, -, hschema⟩ := h
  obtain ⟨t', placement', ht', hnames⟩ := hq
  cases ht.symm.trans ht'
  exact ⟨t₁, placement, ht₁, by rw [hcolumns, hschema, hnames]⟩

theorem Keeps.isBare (h : q.Keeps q₁) (hq : q.IsBare) : q₁.IsBare := by
  obtain ⟨t, t₁, placement, ht, ht₁, hcolumns, hsize, -⟩ := h
  obtain ⟨t', placement', ht', hnil, hempty⟩ := hq
  cases ht.symm.trans ht'
  exact ⟨t₁, placement, ht₁, hcolumns.trans hnil, hsize hempty⟩

/-- A projection into a schema of mappings makes a table with the columns that the schema names,
unless there are no rows and the columns are found from them. -/
theorem namesColumns_of_project (hE : E.SelectsRows) (hK : E.KeepsRecords)
    (h : q.source = .table t placement) {target : Schema} (htarget : target.IsRowSchema)
    (hq : q.project d (.between q.schema target) = .ok q₁) :
    q₁.NamesColumns ∨ (q₁.IsBare ∧ target.columns? = none ∧ q.rows d = .ok []) := by
  obtain ⟨source, hsorted, hq⟩ := Except.bind_eq_ok.1 hq
  obtain ⟨t', rfl, -⟩ := sorted_table hE h hsorted
  obtain ⟨records, hrecords, hq⟩ := Except.bind_eq_ok.1 hq
  obtain ⟨built, hbuilt, hq⟩ := Except.bind_eq_ok.1 hq
  have hmapping : (ProjectionPlan.between q.schema target).target.isMapping = true :=
    htarget.isMapping
  rw [if_pos hmapping] at hq
  obtain ⟨t₁, ht₁, hq⟩ := Except.bind_eq_ok.1 hq
  cases hq
  have hnames : ∀ r ∈ built, Row.names r = target.names := fun r hr =>
    have ⟨_, _, happly⟩ := Except.exists_of_mem_mapM hbuilt hr
    ProjectionPlan.names_apply htarget happly
  rcases htarget.tableOf hK hnames ht₁ with hcolumns | ⟨hcolumns, rfl, hbare⟩
  · exact .inl ⟨t₁, placement, rfl, hcolumns⟩
  · refine .inr ⟨⟨t₁, placement, rfl, hbare⟩, hcolumns, ?_⟩
    -- no records are built, so none were read
    cases Except.mapM_eq_ok.1 hbuilt
    rw [rows, hsorted, Except.ok_bind]
    exact hrecords

/-- A table without pending keys is given as it is. -/
theorem toTable_of_not_isOrdered (h : q.source = .table t placement)
    (hordered : q.isOrdered = false) : q.toTable d = .ok t := by
  have hkeys : q.keys = none := by simpa [isOrdered] using hordered
  rw [toTable, h, hkeys]
  simp [sortTable]

theorem NamesColumns.names_of_toTable (hE : E.SelectsRows) (h : q.NamesColumns)
    (ht : q.toTable d = .ok t) : (E.columns t).map (·.1) = q.schema.names := by
  obtain ⟨t', placement, hsource, hnames⟩ := h
  rw [toTable, hsource] at ht
  rw [(keeps_of_sortTable hE ht).1, hnames]

theorem IsBare.eq_nil_of_toTable (hE : E.SelectsRows) (h : q.IsBare) (ht : q.toTable d = .ok t) :
    E.columns t = [] ∧ E.size t = 0 := by
  obtain ⟨t', placement, hsource, hcolumns, hsize⟩ := h
  rw [toTable, hsource] at ht
  obtain ⟨-, hsame⟩ := keeps_of_sortTable hE ht
  cases hsame hsize
  exact ⟨hcolumns, hsize⟩

end Query

/-! ### Runs -/

/-- A schema that tables are projected into: that of a table, or that of a mapping type. -/
inductive RowTarget where
  | columns (key : SchemaKey) (name : String) (columns : List (String × ColumnType))
  | mappingType (cls : String)

namespace RowTarget

def schema (d : Directory) : RowTarget → Schema
  | .columns key name cs => .ofColumns key name cs
  | .mappingType cls => d.schemaOf (.record cls)

/-- The schema has members, under distinct names. -/
def IsProper (d : Directory) : RowTarget → Prop
  | .columns _ _ cs => cs ≠ [] ∧ (cs.map (·.1)).Nodup
  | .mappingType cls => d.catalog.IsMappingType cls ∧ (d.schemaOf (.record cls)).fields ≠ []

theorem IsProper.isRowSchema {d : Directory} {target : RowTarget} (h : target.IsProper d) :
    (target.schema d).IsRowSchema := by
  cases target with
  | columns key name cs => exact Schema.isRowSchema_ofColumns key name h.1 h.2
  | mappingType cls =>
    have hne := h.2
    rw [schema]
    rw [d.schemaOf_declared (.inl ⟨_, rfl⟩)] at hne ⊢
    exact h.1.isRowSchema hne

end RowTarget

/-- An operation that makes a query over a table of one. -/
inductive TableStep where
  | filter (p : Predicate)
  | orderBy (request : KeyRequest) (descending : Bool)
  /-- The query itself if the request is a text that names no key. -/
  | thenBy (request : KeyRequest) (descending : Bool)
  | mapTo (target : RowTarget)

namespace TableStep

variable {E : Engine} {d : Directory} {steps : List TableStep} {step : TableStep} {q q₁ : Query E}

/-- The query that the operation makes of a query. -/
def apply (d : Directory) (q : Query E) : TableStep → Except Error (Query E)
  | filter p => q.filter d p
  | orderBy request descending => (q.orderBy d request descending).result
  | thenBy request descending => do return (← (q.thenBy d request descending).result).getD q
  | mapTo target => q.project d (.between q.schema (target.schema d))

/-- The query that the operations make of a query, one after the other. -/
def run (d : Directory) (steps : List TableStep) (q : Query E) : Except Error (Query E) :=
  steps.foldlM (apply d) q

/-- A target has members, under distinct names. -/
def IsProper (d : Directory) : TableStep → Prop
  | mapTo target => target.IsProper d
  | _ => True

/-- A target whose members do not all have column types is projected into from a query with rows. -/
def HasRows (d : Directory) (q : Query E) : TableStep → Prop
  | mapTo target => (target.schema d).columns? = none → q.rows d ≠ .ok []
  | _ => True

/-- Along a run, targets whose members do not all have column types are projected into from queries
with rows. -/
def AllHaveRows (d : Directory) : List TableStep → Query E → Prop
  | [], _ => True
  | step :: steps, q =>
    step.HasRows d q ∧ ∀ q₁, step.apply d q = .ok q₁ → AllHaveRows d steps q₁

theorem apply_keeps_or (hE : E.SelectsRows) (hK : E.KeepsRecords) (hproper : step.IsProper d)
    {t : E.Table} {placement : NullPlacement} (h : q.source = .table t placement)
    (hq : step.apply d q = .ok q₁) :
    q.Keeps q₁ ∨ q₁.NamesColumns ∨ (q₁.IsBare ∧ ¬ step.HasRows d q) := by
  cases step with
  | filter p => exact .inl (Query.keeps_of_filter hE h hq)
  | orderBy request descending => exact .inl (Query.keeps_of_orderBy hE h hq)
  | thenBy request descending =>
    obtain ⟨r, hr, hq⟩ := Except.bind_eq_ok.1 hq
    cases hq
    exact .inl (Query.keeps_of_thenBy h hr)
  | mapTo target =>
    refine .inr ((Query.namesColumns_of_project hE hK h hproper.isRowSchema hq).imp_right ?_)
    exact fun ⟨hbare, hcolumns, hnone⟩ => ⟨hbare, fun hrows => hrows hcolumns hnone⟩

/-- An operation keeps the agreement of the columns with the schema. -/
theorem namesColumns_step (hE : E.SelectsRows) (hK : E.KeepsRecords) (hproper : step.IsProper d)
    (h : q.NamesColumns) (hrows : step.HasRows d q) (hq : step.apply d q = .ok q₁) :
    q₁.NamesColumns := by
  obtain ⟨t, placement, hsource, -⟩ := id h
  rcases apply_keeps_or hE hK hproper hsource hq with hkeeps | hnames | ⟨-, hnone⟩
  · exact hkeeps.namesColumns h
  · exact hnames
  · exact absurd hrows hnone

theorem namesColumns_or_isBare_step (hE : E.SelectsRows) (hK : E.KeepsRecords)
    (hproper : step.IsProper d) (h : q.NamesColumns ∨ q.IsBare) (hq : step.apply d q = .ok q₁) :
    q₁.NamesColumns ∨ q₁.IsBare := by
  obtain ⟨t, placement, hsource⟩ := Query.exists_table h
  rcases apply_keeps_or hE hK hproper hsource hq with hkeeps | hnames | ⟨hbare, -⟩
  · exact h.imp hkeeps.namesColumns hkeeps.isBare
  · exact .inl hnames
  · exact .inr hbare

theorem namesColumns_of_run (hE : E.SelectsRows) (hK : E.KeepsRecords)
    (hproper : ∀ step ∈ steps, step.IsProper d) (h : q.NamesColumns)
    (hrows : AllHaveRows d steps q) (hq : run d steps q = .ok q₁) : q₁.NamesColumns := by
  induction steps generalizing q with
  | nil =>
    cases hq
    exact h
  | cons step steps ih =>
    rw [List.forall_mem_cons] at hproper
    obtain ⟨q₂, hstep, hq⟩ := Except.bind_eq_ok.1 hq
    exact ih hproper.2 (namesColumns_step hE hK hproper.1 h hrows.1 hstep) (hrows.2 q₂ hstep) hq

theorem namesColumns_or_isBare_of_run (hE : E.SelectsRows) (hK : E.KeepsRecords)
    (hproper : ∀ step ∈ steps, step.IsProper d) (h : q.NamesColumns ∨ q.IsBare)
    (hq : run d steps q = .ok q₁) : q₁.NamesColumns ∨ q₁.IsBare := by
  induction steps generalizing q with
  | nil =>
    cases hq
    exact h
  | cons step steps ih =>
    rw [List.forall_mem_cons] at hproper
    obtain ⟨q₂, hstep, hq⟩ := Except.bind_eq_ok.1 hq
    exact ih hproper.2 (namesColumns_or_isBare_step hE hK hproper.1 h hstep) hq

/-- The schema of a query that was made of a table describes the table: there is one unless the
keys of a pending sort cannot be sorted by, and its columns are named as the schema says, or it has
neither columns nor rows. The latter needs a projection without rows into members that do not all
have column types. -/
theorem names_toTable (hE : E.SelectsRows) (hK : E.KeepsRecords) {t : E.Table}
    {placement : NullPlacement} {name : String} (hproper : ∀ step ∈ steps, step.IsProper d)
    (hq : run d steps (.ofTable t placement name none) = .ok q) :
    (q.isOrdered = false → ∃ t₁, q.toTable d = .ok t₁) ∧
      ∀ t₁, q.toTable d = .ok t₁ →
        ((E.columns t₁).map (·.1) = q.schema.names ∨ (E.columns t₁ = [] ∧ E.size t₁ = 0)) ∧
        (AllHaveRows d steps (.ofTable t placement name none) →
          (E.columns t₁).map (·.1) = q.schema.names) := by
  have hstart : (Query.ofTable t placement name none).NamesColumns :=
    ⟨t, placement, rfl, by simp [Query.ofTable, Schema.ofColumns, Schema.names, Function.comp_def]⟩
  have hrun := namesColumns_or_isBare_of_run hE hK hproper (.inl hstart) hq
  constructor
  · intro hordered
    obtain ⟨t₂, placement₂, hsource⟩ := Query.exists_table hrun
    exact ⟨t₂, Query.toTable_of_not_isOrdered hsource hordered⟩
  · intro t₁ ht₁
    exact ⟨hrun.imp (·.names_of_toTable hE ht₁) (·.eq_nil_of_toTable hE ht₁), fun hrows =>
      (namesColumns_of_run hE hK hproper hstart hrows hq).names_of_toTable hE ht₁⟩

private def age : FieldDecl where
  name := "age"
  type := .builtin .int

/-- Mappings that hold an age. -/
private def ages : Directory where
  catalog := { classes := [{ name := "Age", kind := .mapping, fields := [age] }] }

private def toAges : TableStep := .mapTo (.mappingType "Age")

private theorem isProper_toAges : toAges.IsProper ages := by
  refine ⟨⟨List.cons_ne_nil _ _, fun c hc => ?_⟩, List.cons_ne_nil _ _⟩
  cases List.mem_singleton.1 hc
  rfl

/-- `lambda r: r["name"]`. -/
private def isNamed : Lambda where
  params := [{ name := "r" }]
  body := .item (.var "r") (.str "name")

private def pets (rows : List (List Value)) : Query .inMemory :=
  .ofTable (E := .inMemory) { columns := [("name", .string), ("age", .int64)], rows } .atStart "Pet"
    none

private def herd : Query .inMemory := pets [[.str "Ada", .int 4], [.null, .int 9]]

private def listing : List TableStep :=
  [.filter (.lambda isNamed), toAges, .orderBy (.text "age desc") false]

/-- The ages of pets with a name make a table with a column of that name, also when they are
sorted. -/
theorem names_toTable_ages : Engine.inMemory.SelectsRows ∧ Engine.inMemory.KeepsRecords ∧
    ∃ q, run ages listing herd = .ok q ∧ (∃ t₁, q.toTable ages = .ok t₁) ∧
    ∀ t₁, q.toTable ages = .ok t₁ → t₁.columns.map (·.1) = ["age"] := by
  have hproper : ∀ step ∈ listing, step.IsProper ages := by
    rw [listing, List.forall_mem_cons, List.forall_mem_cons, List.forall_mem_singleton]
    exact ⟨trivial, isProper_toAges, trivial⟩
  have hrows : AllHaveRows ages listing herd := by
    refine ⟨trivial, fun q₁ h₁ => ?_⟩
    cases h₁
    exact ⟨fun _ => nofun, fun _ _ => ⟨trivial, fun _ _ => trivial⟩⟩
  have hselects := Engine.selectsRows_inMemory
  have hkeeps := Engine.keepsRecords_inMemory
  obtain ⟨q, hq⟩ : ∃ q, run ages listing herd = .ok q := ⟨_, rfl⟩
  refine ⟨hselects, hkeeps, q, hq, ?_, fun t₁ ht₁ => ?_⟩
  · cases hq
    exact ⟨⟨[("age", .int64)], [[.int 4]]⟩, by cbv⟩
  · have hnames := ((names_toTable hselects hkeeps hproper hq).2 t₁ ht₁).2 hrows
    cases hq
    exact hnames

/-- Without pets no column is left, although there is a member. -/
theorem names_toTable_no_rows : toAges.IsProper ages ∧ ∃ q,
    run ages [toAges] (pets []) = .ok q ∧ q.schema.names = ["age"] ∧
      q.toTable ages = .ok { columns := [], rows := [] } :=
  ⟨isProper_toAges, _, rfl, rfl, rfl⟩

end TableStep
end RecordQuery
