import RecordQuery.Proofs.ColumnChain
import RecordQuery.Proofs.TableLaws
import RecordQuery.Query.Selection

/-!
# Projections between columns

A projection of records of columns into the schema of other columns copies and converts cells, and
what it builds is a record of the other columns (`ProjectionPlan.hasColumns_apply`). All members of
such a schema have column types, so the table that is made of these records has the columns of the
target (`Schema.columns?_ofColumns`).
-/

namespace RecordQuery

open ColumnType

variable {catalog : Catalog} {columns source target : List (String × ColumnType)}

/-- What each step that succeeds preserves holds of the outcome of all steps. -/
theorem Except.foldlM_induction {ε α β : Type} {f : β → α → Except ε β} {motive : β → Prop}
    {xs : List α} (hstep : ∀ x ∈ xs, ∀ b b', motive b → f b x = .ok b' → motive b') {b r : β}
    (hb : motive b) (h : xs.foldlM f b = .ok r) : motive r := by
  induction xs generalizing b with
  | nil => cases h; exact hb
  | cons x xs ih =>
    rw [List.forall_mem_cons] at hstep
    rw [List.foldlM_cons] at h
    obtain ⟨b', hb', h⟩ := Except.bind_eq_ok.1 h
    exact ih hstep.2 (hstep.1 b b' hb hb') h

/-! ### Conversion -/

/-- What is converted to the type of a column is a value of it. -/
theorem Coercion.holds_of_apply (hcast : catalog.CastsToPlain) {c : Coercion} {t : ColumnType}
    (hc : c.target = .column t) (ht : t.IsPlain) {name : String} {v w : Value}
    (h : c.apply catalog name v = .ok w) : Holds t w := by
  unfold apply at h
  split at h
  · cases h
    exact .null t
  · rw [hc] at h
    split at h
    · rename_i w' hconvert
      cases h
      exact hcast ht hconvert
    · split at h
      · obtain ⟨shown, -, h⟩ := Except.bind_eq_ok.1 h
        cases h
      · cases h

/-- A binding copies the member of the target's name, and converts it if the types differ. -/
theorem Binding.eq_of_ofTarget? {s : Schema} {f : Field} {b : Binding}
    (h : ofTarget? s f = some b) : b.target = f ∧ b.source ∈ s.fields ∧
      b.coercion = if b.source.type.same f.type then none else some ⟨b.source.type, f.type⟩ := by
  unfold ofTarget? at h
  split at h
  · cases h
  · split at h
    · rename_i g hg
      split at h
      · cases h
        exact ⟨rfl, List.mem_of_find?_eq_some hg, rfl⟩
      · cases h
    · cases h

/-- A binding between columns gives a value of its target. -/
theorem Binding.holds_of_valueFrom (hcast : catalog.CastsToPlain) {key key' : SchemaKey}
    {name name' : String} {b : Binding} (hplain : (ColumnType.struct source).IsPlain)
    (hplain' : (ColumnType.struct target).IsPlain)
    (hb : b ∈ (ProjectionPlan.between (.ofColumns key name source)
      (.ofColumns key' name' target)).bindings) {entries : List (Value × Value)}
    (hentries : HoldsFields source entries) {w : Value}
    (h : b.valueFrom catalog (.dict entries) = .ok w) :
    ∃ t, (b.name, t) ∈ target ∧ Holds t w := by
  obtain ⟨f, hf, hb⟩ := List.mem_filterMap.1 hb
  obtain ⟨rfl, hsource, hcoercion⟩ := eq_of_ofTarget? hb
  obtain ⟨t, hmem, -, htype⟩ := Schema.mem_ofColumns hf
  obtain ⟨u, hmem', haccess, htype'⟩ := Schema.mem_ofColumns hsource
  obtain ⟨v, hv, h⟩ := Except.bind_eq_ok.1 h
  rw [read_eq_cell catalog hentries haccess] at hv
  cases hv
  refine ⟨t, hmem, ?_⟩
  rw [hcoercion] at h
  by_cases hsame : b.source.type.same b.target.type = true
  · rw [if_pos hsame] at h
    cases h
    rw [htype, htype'] at hsame
    rw [← eq_of_same hsame]
    exact hentries.holds_cell hplain.names hmem'
  · rw [if_neg hsame] at h
    exact Coercion.holds_of_apply hcast htype (hplain'.parts _ hmem) h

/-! ### Building records -/

namespace ColumnType.HoldsFields

/-- Setting the value of a field keeps the fields in their order. -/
theorem put {entries : List (String × Value)}
    (h : HoldsFields columns (entries.map fun e => (.str e.1, e.2)))
    (hnames : (columns.map (·.1)).Nodup) {name : String} {t : ColumnType}
    (hmem : (name, t) ∈ columns) {v : Value} (hv : Holds t v) :
    HoldsFields columns ((RecordQuery.put entries name v).map fun e => (.str e.1, e.2)) := by
  induction columns generalizing entries with
  | nil => cases hmem
  | cons c columns ih =>
    rw [List.map_cons, List.nodup_cons] at hnames
    cases entries with
    | nil => cases h
    | cons e entries =>
      obtain ⟨n, w⟩ := e
      cases h with
      | cons hw h =>
        rw [RecordQuery.put]
        rcases List.mem_cons.1 hmem with hhead | hmem
        · cases hhead
          rw [if_pos rfl]
          exact .cons hv h
        · have hne : n ≠ name := fun hn =>
            hnames.1 (List.mem_map.2 ⟨(name, t), hmem, hn.symm⟩)
          rw [if_neg hne]
          exact .cons hw (ih h hnames.2 hmem)

/-- Setting the values of some of the fields. -/
theorem putAll {entries values : List (String × Value)}
    (h : HoldsFields columns (entries.map fun e => (.str e.1, e.2)))
    (hnames : (columns.map (·.1)).Nodup)
    (hvalues : ∀ e ∈ values, ∃ t, (e.1, t) ∈ columns ∧ Holds t e.2) :
    HoldsFields columns ((values.foldl (fun all e => RecordQuery.put all e.1 e.2) entries).map
      fun e => (.str e.1, e.2)) := by
  induction values generalizing entries with
  | nil => exact h
  | cons e values ih =>
    rw [List.forall_mem_cons] at hvalues
    obtain ⟨⟨t, hmem, hv⟩, hvalues⟩ := hvalues
    exact ih (h.put hnames hmem hv) hvalues

theorem nulls (columns : List (String × ColumnType)) :
    HoldsFields columns (columns.map fun c => (.str c.1, .null)) := by
  induction columns with
  | nil => exact .nil
  | cons c columns ih => exact .cons (.null c.2) ih

end ColumnType.HoldsFields

/-- A new mapping starts with null under each name, if all members can be assigned. -/
theorem Schema.blank_eq {s : Schema} (hwritable : ∀ f ∈ s.fields, f.writable = true)
    (hnodup : s.names.Nodup) :
    (s.fields.filter (·.writable)).foldl (fun all f => put all f.name Value.null) [] =
      s.fields.map fun f => (f.name, .null) := by
  have hput := @foldl_put_eq Value [] (s.fields.map fun f => (f.name, .null))
    (by simpa [names, Function.comp_def] using hnodup)
  rw [List.foldl_map] at hput
  rw [List.filter_eq_self.2 hwritable]
  exact hput

theorem Schema.names_ofColumns (key : SchemaKey) (name : String)
    (columns : List (String × ColumnType)) :
    (Schema.ofColumns key name columns).names = columns.map (·.1) := by
  simp [names, ofColumns, Function.comp_def]

theorem Schema.readable_of_mem_ofColumns (key : SchemaKey) (name : String)
    (columns : List (String × ColumnType)) :
    ∀ f ∈ (Schema.ofColumns key name columns).fields, f.readable = true := by
  intro f hf
  obtain ⟨c, -, rfl⟩ := List.mem_map.1 hf
  rfl

theorem Schema.writable_of_mem_ofColumns (key : SchemaKey) (name : String)
    (columns : List (String × ColumnType)) :
    ∀ f ∈ (Schema.ofColumns key name columns).fields, f.writable = true := by
  intro f hf
  obtain ⟨c, -, rfl⟩ := List.mem_map.1 hf
  rfl

/-- A new record of columns has a cell for each of them. -/
theorem Schema.hasColumns_newMapping (key : SchemaKey) (name : String)
    (hnames : (columns.map (·.1)).Nodup) {values : List (String × Value)}
    (hvalues : ∀ e ∈ values, ∃ t, (e.1, t) ∈ columns ∧ Holds t e.2) :
    Row.HasColumns columns ((Schema.ofColumns key name columns).newMapping values) := by
  have hblank := blank_eq (writable_of_mem_ofColumns key name columns)
    ((names_ofColumns key name columns).symm ▸ hnames)
  refine ⟨_, rfl, ?_⟩
  rw [hblank]
  refine ColumnType.HoldsFields.putAll ?_ hnames hvalues
  rw [ofColumns, List.map_map, List.map_map]
  exact .nulls columns

/-- A projection builds a record of the columns of its target. -/
theorem ProjectionPlan.hasColumns_apply (hcast : catalog.CastsToPlain) {key key' : SchemaKey}
    {name name' : String} (hplain : (ColumnType.struct source).IsPlain)
    (hplain' : (ColumnType.struct target).IsPlain) {v w : Value} (hv : Row.HasColumns source v)
    (h : (between (.ofColumns key name source) (.ofColumns key' name' target)).apply catalog v =
      .ok w) : Row.HasColumns target w := by
  obtain ⟨entries, rfl, hentries⟩ := hv
  obtain ⟨values, hvalues, h⟩ := Except.bind_eq_ok.1 h
  have hholds : ∀ e ∈ values, ∃ t, (e.1, t) ∈ target ∧ Holds t e.2 := by
    refine Except.foldlM_induction (motive := fun all => ∀ e ∈ all, ∃ t, (e.1, t) ∈ target ∧
      Holds t e.2) ?_ (by simp) hvalues
    intro b hb all all' hall h
    obtain ⟨w, hw, h⟩ := Except.bind_eq_ok.1 h
    cases h
    intro e he
    rcases mem_of_mem_put he with rfl | he
    · exact Binding.holds_of_valueFrom hcast hplain hplain' hb hentries hw
    · exact hall e he
  unfold Schema.new at h
  split at h
  · cases h
  · cases h
    exact Schema.hasColumns_newMapping key' name' hplain'.names hholds

/-! ### The table of a projection -/

/-- All members of the schema of columns have column types. -/
theorem Schema.columns?_ofColumns (key : SchemaKey) (name : String)
    (columns : List (String × ColumnType)) :
    (Schema.ofColumns key name columns).columns? = some columns := by
  rw [columns?, List.filter_eq_self.2 (writable_of_mem_ofColumns key name columns), ofColumns,
    List.mapM_map]
  have hpure : columns.mapM (fun c => (some c : Option (String × ColumnType))) =
      some (columns.map id) := List.mapM_pure
  rw [List.map_id] at hpure
  exact hpure

theorem Schema.isMapping_ofColumns (key : SchemaKey) (name : String) (h : columns ≠ []) :
    (Schema.ofColumns key name columns).isMapping = true := by
  simp [isMapping, ofColumns, h]

/-- A projection leaves no pending keys. -/
theorem Query.keys_of_project {E : Engine} {d : Directory} {q q₁ : Query E} {plan : ProjectionPlan}
    (h : q.project d plan = .ok q₁) : q₁.keys = none := by
  obtain ⟨source, -, h⟩ := Except.bind_eq_ok.1 h
  cases source with
  | list rows =>
    obtain ⟨built, -, h⟩ := Except.bind_eq_ok.1 h
    cases h
    rfl
  | table t placement =>
    obtain ⟨records, -, h⟩ := Except.bind_eq_ok.1 h
    obtain ⟨built, -, h⟩ := Except.bind_eq_ok.1 h
    split at h
    · obtain ⟨t, -, h⟩ := Except.bind_eq_ok.1 h
      cases h
      rfl
    · cases h
      rfl

end RecordQuery
