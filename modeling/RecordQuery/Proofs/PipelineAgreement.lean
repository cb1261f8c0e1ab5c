import RecordQuery.Proofs.MemorySorting
import RecordQuery.Proofs.QueryAgreement

/-!
# Pipelines over tables and lists

A pipeline filters, sorts and projects a query step by step. Every step keeps a query over a table
and one over its records in agreement (`Agree.step`), and so does a run (`Pipeline.agree_of_run`).
The two therefore end in the same rows (`Pipeline.rows_agree`).
-/

namespace RecordQuery

open ColumnType

variable {E : Engine}

/-- An operation of a pipeline. -/
inductive PipelineStep where
  | filter (p : Predicate)
  | orderBy (text : String)
  /-- The query itself if the text names no key. -/
  | thenBy (text : String)
  /-- Into records of the given columns. -/
  | mapTo (key : SchemaKey) (name : String) (columns : List (String × ColumnType))

namespace PipelineStep

/-- The query that the operation makes of a query. -/
def apply (d : Directory) (q : Query E) : PipelineStep → Except Error (Query E)
  | filter p => q.filter d p
  | orderBy text => (q.orderBy d (.text text) false).result
  | thenBy text => do return (← (q.thenBy d (.text text) false).result).getD q
  | mapTo key name columns => q.project d (.between q.schema (.ofColumns key name columns))

/-- A target has columns, and they are of plain types with distinct names. -/
def IsPlain : PipelineStep → Prop
  | mapTo _ _ columns => columns ≠ [] ∧ (ColumnType.struct columns).IsPlain
  | _ => True

end PipelineStep

namespace Pipeline

/-- The query that the operations make of a query, one after the other. -/
def run (d : Directory) (steps : List PipelineStep) (q : Query E) : Except Error (Query E) :=
  steps.foldlM (PipelineStep.apply d) q

/-- The statement holds of every query of a run. -/
def Along (d : Directory) (P : Query E → Prop) : List PipelineStep → Query E → Prop
  | [], q => P q
  | step :: steps, q => P q ∧ ∀ q', step.apply d q = .ok q' → Along d P steps q'

end Pipeline

/-- An operation keeps queries in agreement. -/
theorem Agree.step {d : Directory} {placement : NullPlacement} {t : E.Table}
    {records : List Value} {q q' : Query E} (h : Agree placement t records q q')
    (hE : E.Supports d) (hfit : q'.SortsAlike d placement) {step : PipelineStep}
    (hplain : step.IsPlain) {q₁ q₁' : Query E} (hq : step.apply d q = .ok q₁)
    (hq' : step.apply d q' = .ok q₁') : ∃ t₁ records₁, Agree placement t₁ records₁ q₁ q₁' := by
  cases step with
  | filter p => exact h.filter hE hfit hq hq'
  | orderBy text => exact h.orderBy hE hfit hq hq'
  | thenBy text =>
    obtain ⟨r, hr, hq⟩ := Except.bind_eq_ok.1 hq
    obtain ⟨r', hr', hq'⟩ := Except.bind_eq_ok.1 hq'
    cases hq
    cases hq'
    exact ⟨t, records, h.thenBy hr hr'⟩
  | mapTo key name columns => exact h.project hE hfit hplain.1 hplain.2 hq hq'

namespace Pipeline

variable {d : Directory} {placement : NullPlacement} {steps : List PipelineStep}
  {q q' : Query E}

/-- A run keeps queries in agreement. -/
theorem agree_of_run (hE : E.Supports d) {t : E.Table} {records : List Value}
    (h : Agree placement t records q q') (hplain : ∀ step ∈ steps, step.IsPlain)
    (hfit : Along d (·.SortsAlike d placement) steps q')
    {r r' : Query E} (hr : run d steps q = .ok r) (hr' : run d steps q' = .ok r') :
    ∃ t₁ records₁, Agree placement t₁ records₁ r r' ∧ r'.SortsAlike d placement := by
  induction steps generalizing t records q q' with
  | nil =>
    cases hr
    cases hr'
    exact ⟨t, records, h, hfit⟩
  | cons step steps ih =>
    rw [List.forall_mem_cons] at hplain
    obtain ⟨q₁, hq, hr⟩ := Except.bind_eq_ok.1 hr
    obtain ⟨q₁', hq', hr'⟩ := Except.bind_eq_ok.1 hr'
    obtain ⟨t₁, records₁, h₁⟩ := h.step hE hfit.1 hplain.1 hq hq'
    exact ih h₁ hplain.2 (hfit.2 q₁' hq') hr hr'

/-- A pipeline over a table and one over the list of its records give the same rows if both succeed.
The columns of the table and of all targets are of plain types with distinct names, and along the
list's run every pending key ends in a column without parts and is ascending where nulls go to the
start, descending where they go to the end, if it is null for one of the rows. The library of tables
selects rows, sorts stably and keeps records. -/
theorem rows_agree (hE : E.Supports d) {t : E.Table} {name : String} {records : List Value}
    (ht : (ColumnType.struct (E.columns t)).IsPlain) (hrecords : E.records t = .ok records)
    (hplain : ∀ step ∈ steps, step.IsPlain)
    (hfit : Along d (·.SortsAlike d placement) steps
      (Query.ofList records (Schema.ofColumns (.anonymous name) name (E.columns t)) : Query E))
    (hq : run d steps (Query.ofTable t placement name none) = .ok q)
    (hq' : run d steps
      (Query.ofList records (Schema.ofColumns (.anonymous name) name (E.columns t))) = .ok q')
    {rows rows' : List Value} (hrows : q.rows d = .ok rows) (hrows' : q'.rows d = .ok rows') :
    rows = rows' := by
  have hstart : Agree placement t records (Query.ofTable t placement name none)
      (Query.ofList records (Schema.ofColumns (.anonymous name) name (E.columns t))) :=
    .unsorted rfl rfl ht hrecords ⟨.anonymous name, name, rfl⟩ rfl rfl rfl
  obtain ⟨t₁, records₁, h, hlast⟩ := agree_of_run hE hstart hplain hfit hq hq'
  obtain ⟨source, hsorted, hrows⟩ := Except.bind_eq_ok.1 hrows
  obtain ⟨source', hsorted', hrows'⟩ := Except.bind_eq_ok.1 hrows'
  obtain ⟨t₂, out, rfl, rfl, -, hread⟩ := h.sorted hE hlast hsorted hsorted'
  cases hrows'
  exact Except.ok.inj (hrows.symm.trans hread)

/-- Inhabitants, some of whom have no name or no home. -/
private def homes : Table where
  columns := [("id", .int64), ("name", .string), ("home", .struct [("city", .string)])]
  rows := [
    [.int 1, .str "Bo", .dict [(.str "city", .str "Rome")]],
    [.int 2, .null, .dict [(.str "city", .str "Oslo")]],
    [.int 3, .str "Al", .null],
    [.int 4, .str "Cy", .dict [(.str "city", .str "Rome")]]]

private def homesSchema : Schema :=
  .ofColumns (.anonymous "Row") "Row" homes.columns

private def homesTable : Query .inMemory :=
  .ofTable homes .atStart "Row" none

private def homesList : Query .inMemory :=
  .ofList (homes.rows.map (Table.record homes.columns)) homesSchema

private def cityKey : SortKey where
  source := .accessor ⟨homesSchema,
    [homesSchema.fields[2], { name := "city", type := .column .string, access := .item }]⟩
  direction := .ascending

private def idKey : SortKey where
  source := .accessor ⟨homesSchema, [homesSchema.fields[0]]⟩
  direction := .descending

/-- `lambda r: r["name"]`. -/
private def isNamed : Lambda where
  params := [{ name := "r" }]
  body := .item (.var "r") (.str "name")

private def listing : List PipelineStep :=
  [.orderBy "home.city", .thenBy "ID desc", .filter (.lambda isNamed),
   .mapTo (.anonymous "Entry") "Entry" [("name", .string), ("id", .string)]]

private def sortedHomes : Table :=
  { homes with rows := [homes.rows[2], homes.rows[1], homes.rows[3], homes.rows[0]] }

private theorem sorted_homesTable :
    ({ homesTable with keys := some [cityKey, idKey] } : Query .inMemory).sorted {} =
      .ok (.table sortedHomes .atStart) := by
  cbv

private theorem isPlain_homes : (ColumnType.struct homes.columns).IsPlain := by
  have hhome : (ColumnType.struct [("city", .string)]).IsPlain :=
    .struct (by decide) (by simp [IsPlain.string])
  have hid : ColumnType.int64.IsPlain := CellKind.isPlain_type .integer
  refine .struct (by decide) ?_
  simp [homes, IsPlain.string, hid, hhome]

/-- Tables in memory do what pipelines rely on. -/
theorem supports_inMemory : Engine.inMemory.Supports {} where
  selects := Engine.selectsRows_inMemory
  sorts := Engine.sortsStably_inMemory
  keeps := Engine.keepsRecords_inMemory
  casts ht h := ColumnType.holds_of_castValue ht h

private theorem run_homesTable : ∃ q rows,
    run {} listing homesTable = .ok q ∧ q.rows {} = .ok rows := by
  have horder : PipelineStep.apply {} homesTable (.orderBy "home.city") =
      .ok { homesTable with keys := some [cityKey] } := rfl
  have hthen : PipelineStep.apply {} { homesTable with keys := some [cityKey] }
      (.thenBy "ID desc") = .ok { homesTable with keys := some [cityKey, idKey] } := rfl
  have hfilter : PipelineStep.apply {} { homesTable with keys := some [cityKey, idKey] }
      (.filter (.lambda isNamed)) = .ok { homesTable with source := .table { homes with
        rows := [homes.rows[2], homes.rows[3], homes.rows[0]] } .atStart } := by
    rw [PipelineStep.apply, Query.filter, sorted_homesTable]
    rfl
  simp only [run, listing, List.foldlM_cons, List.foldlM_nil, horder, hthen, hfilter,
    Except.ok_bind]
  exact ⟨_, _, rfl, rfl⟩

private theorem run_homesList : ∃ q rows,
    run {} listing homesList = .ok q ∧ q.rows {} = .ok rows := by
  have hok : (do (← run {} listing homesList).rows {}).isOk = true := by decide +kernel
  cases hrows : (do (← run {} listing homesList).rows {}) with
  | error e =>
    rw [hrows] at hok
    cases hok
  | ok rows =>
    obtain ⟨q, hq, hrows⟩ := Except.bind_eq_ok.1 hrows
    exact ⟨q, rows, hq, hrows⟩

private theorem sortsAlike_homes (keys : List SortKey) (hkeys : keys ⊆ [cityKey, idKey]) :
    ({ homesList with keys := some keys } : Query .inMemory).SortsAlike {} .atStart := by
  intro rows hrows key hkey
  cases hrows
  simp only [List.subset_def, List.mem_cons, List.not_mem_nil, or_false] at hkeys
  rcases hkeys hkey with rfl | rfl
  · refine ⟨fun a fields h => ?_, fun _ => rfl⟩
    cases h
    exact nofun
  · refine ⟨fun a fields h => ?_, ?_⟩
    · cases h
      exact nofun
    · rintro ⟨row, hrow, hnull⟩
      simp only [homes, List.map_cons, List.map_nil, List.mem_cons, List.not_mem_nil,
        or_false] at hrow
      rcases hrow with rfl | rfl | rfl | rfl <;> cases hnull

/-- Those without a home come first, and those of one city from the last to the first. -/
theorem homes_agree : ∃ q q' rows,
    run {} listing homesTable = .ok q ∧ run {} listing homesList = .ok q' ∧
      q.rows {} = .ok rows ∧ q'.rows {} = .ok rows := by
  obtain ⟨q, rows, hq, hrows⟩ := run_homesTable
  obtain ⟨q', rows', hq', hrows'⟩ := run_homesList
  have hplain : ∀ step ∈ listing, step.IsPlain := by
    have htarget : (ColumnType.struct [("name", .string), ("id", .string)]).IsPlain :=
      .struct (by decide) (by simp [IsPlain.string])
    simp [listing, PipelineStep.IsPlain, htarget]
  have hfit : Along {} (·.SortsAlike {} .atStart) listing homesList := by
    have horder : PipelineStep.apply {} homesList (.orderBy "home.city") =
        .ok { homesList with keys := some [cityKey] } := rfl
    have hthen : PipelineStep.apply {} { homesList with keys := some [cityKey] }
        (.thenBy "ID desc") = .ok { homesList with keys := some [cityKey, idKey] } := rfl
    refine ⟨Query.sortsAlike_of_keys_none rfl, fun q₁ h₁ => ?_⟩
    cases h₁.symm.trans horder
    refine ⟨sortsAlike_homes _ (by simp), fun q₂ h₂ => ?_⟩
    cases h₂.symm.trans hthen
    refine ⟨sortsAlike_homes _ (by simp), fun q₃ h₃ => ?_⟩
    refine ⟨Query.sortsAlike_of_keys_none (Query.keys_of_filter h₃), fun q₄ h₄ => ?_⟩
    exact Query.sortsAlike_of_keys_none (Query.keys_of_project h₄)
  have hrecords : homes.records = .ok (homes.rows.map (Table.record homes.columns)) := rfl
  have heq := @rows_agree .inMemory {} .atStart listing q q' supports_inMemory homes "Row" _
    isPlain_homes hrecords hplain hfit hq hq' rows rows' hrows hrows'
  exact ⟨q, q', rows, hq, hq', hrows, heq ▸ hrows'⟩

end Pipeline
end RecordQuery
