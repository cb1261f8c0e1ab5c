import RecordQuery.Proofs.ColumnValue
import RecordQuery.Proofs.SharedSchemas

/-!
# Chains of columns

`ColumnChain columns fields t` says that the members `fields` lead from the columns through structs
to a column of type `t`. Names that are resolved on the schema of columns make such a chain
(`ColumnChain.of_resolveNames`), and a record of the columns can be read along it, with a value of
the type at the end (`ColumnChain.readFields_eq_ok`).
-/

namespace RecordQuery

/-- The members lead from the columns, each but the last one into a struct, to a column of the
type. -/
inductive ColumnChain : List (String × ColumnType) → List Field → ColumnType → Prop
  | last {columns : List (String × ColumnType)} {f : Field} {t : ColumnType}
    (hmem : (f.name, t) ∈ columns) (haccess : f.access = .item) (htype : f.type = .column t) :
    ColumnChain columns [f] t
  | step {columns parts : List (String × ColumnType)} {f : Field} {fields : List Field}
    {t : ColumnType} (hmem : (f.name, .struct parts) ∈ columns) (haccess : f.access = .item)
    (h : ColumnChain parts fields t) : ColumnChain columns (f :: fields) t

variable {columns : List (String × ColumnType)}

/-! ### Resolving names -/

/-- The member of a column. -/
theorem Schema.mem_ofColumns {key : SchemaKey} {name : String} {f : Field}
    (hf : f ∈ (Schema.ofColumns key name columns).fields) :
    ∃ t, (f.name, t) ∈ columns ∧ f.access = .item ∧ f.type = .column t := by
  obtain ⟨⟨n, t⟩, hc, rfl⟩ := List.mem_map.1 hf
  exact ⟨t, hc, rfl, rfl⟩

/-- The members that a name may mean can be read, and are called by the name up to case. -/
theorem Schema.mem_of_mem_candidates {s : Schema} {name : String} {f : Field}
    (h : f ∈ s.candidates name) :
    f ∈ s.fields ∧ f.readable = true ∧ Text.sameFold f.name name = true := by
  have hfolded : f ∈ s.fields.filter (fun f => f.readable && Text.sameFold f.name name) →
      f ∈ s.fields ∧ f.readable = true ∧ Text.sameFold f.name name = true := fun h => by
    rw [List.mem_filter, Bool.and_eq_true] at h
    exact h
  unfold candidates at h
  split at h
  · rename_i g hg
    split at h
    · rename_i hreadable
      cases List.mem_singleton.1 h
      have hname := List.find?_some hg
      exact ⟨List.mem_of_find?_eq_some hg, hreadable, by rw [eq_of_beq hname, Text.sameFold_self]⟩
    · exact hfolded h
  · exact hfolded h

theorem Schema.mem_of_candidates {s : Schema} {name : String} {f : Field} {fs : List Field}
    (h : s.candidates name = f :: fs) : f ∈ s.fields :=
  (mem_of_mem_candidates (h ▸ List.mem_cons_self)).1

/-- The values of a column that is no struct have no members. -/
theorem Directory.schemaOf_column (d : Directory) (t : ColumnType) :
    (d.schemaOf (.column t)).fields = [] :=
  (d.twin_spelling (.column t)).fields_eq

/-- The schema of a column's value has the columns of a struct, and no members otherwise. -/
theorem Directory.memberSchema_ofColumns (d : Directory) {key : SchemaKey} {name : String}
    {f : Field} (hf : f ∈ (Schema.ofColumns key name columns).fields) :
    (∃ parts key' name', f.type = .column (.struct parts) ∧
      d.memberSchema f = .ofColumns key' name' parts) ∨ (d.memberSchema f).fields = [] := by
  obtain ⟨⟨n, t⟩, -, rfl⟩ := List.mem_map.1 hf
  cases t with
  | struct parts => exact .inl ⟨parts, _, _, rfl, rfl⟩
  | _ => exact .inr (d.schemaOf_column _)

/-- Names resolved on the columns lead along a chain of them. -/
theorem ColumnChain.of_follow {d : Directory} {key : SchemaKey} {name : String} {position : Nat}
    {names : List String} {found : Resolution} (hnames : names ≠ [])
    (h : (d.follow (Schema.ofColumns key name columns) position names).result = .ok found) :
    ∃ t, ColumnChain columns found.fields t ∧
      ∃ f, found.fields.getLast? = some f ∧ f.type = .column t := by
  induction names generalizing columns key name position found with
  | nil => exact absurd rfl hnames
  | cons n names ih =>
    rw [Directory.follow] at h
    split at h
    · cases h
    · rename_i f fs hfound
      have hf := Schema.mem_of_candidates hfound
      obtain ⟨t, hmem, haccess, htype⟩ := Schema.mem_ofColumns hf
      cases names with
      | nil =>
        cases h
        exact ⟨t, .last hmem haccess htype, f, rfl, htype⟩
      | cons m names =>
        simp only [List.isEmpty_cons, Bool.false_eq_true, if_false] at h
        obtain ⟨owner, howner, h⟩ := Outcome.result_bind_eq_ok.1 h
        obtain ⟨rest, hrest, h⟩ := Outcome.result_bind_eq_ok.1 h
        cases h
        obtain ⟨-, -, howner⟩ := Except.bind_eq_ok.1 howner
        cases howner
        rcases d.memberSchema_ofColumns hf with ⟨parts, key', name', hstruct, hs⟩ | hs
        · cases htype.symm.trans hstruct
          rw [hs] at hrest
          obtain ⟨t, hchain, g, hlast, hg⟩ := ih (List.cons_ne_nil m names) hrest
          refine ⟨t, .step hmem haccess hchain, g, ?_, hg⟩
          rw [List.getLast?_cons, hlast]
          rfl
        · -- what is no struct has no members, so a further name is not found
          rw [Directory.follow] at hrest
          split at hrest
          · cases hrest
          · rename_i g gs hg
            have hg := Schema.mem_of_candidates hg
            rw [hs] at hg
            cases hg

theorem ColumnChain.of_resolveNames {d : Directory} {key : SchemaKey} {name : String}
    {names : List String} {a : Accessor}
    (h : (d.resolveNames (Schema.ofColumns key name columns) names).result = .ok a) :
    ∃ t, ColumnChain columns a.fields t ∧ a.resultType = .column t := by
  cases names with
  | nil => cases h
  | cons n names =>
    obtain ⟨found, hfound, h⟩ := Outcome.result_bind_eq_ok.1 h
    cases h
    obtain ⟨t, hchain, f, hlast, htype⟩ := of_follow (List.cons_ne_nil n names) hfound
    exact ⟨t, hchain, by simp only [Accessor.resultType, hlast, htype]⟩

/-! ### Reading along a chain -/

namespace ColumnType

/-- The value under a text is that of the first entry with this key. -/
theorem findEntry_eq_cell (catalog : Catalog) {entries : List (Value × Value)}
    (h : HoldsFields columns entries) (name : String) :
    (Value.findEntry (Value.equal catalog) (.str name) entries).getD .null =
      Row.cell name (.dict entries) := by
  induction columns generalizing entries with
  | nil => cases h; rfl
  | cons c columns ih =>
    cases h with
    | @cons n t v _ entries hv h =>
      have hequal : Value.equal catalog (.str n) (.str name) = .ok (n == name) := rfl
      rw [cell_cons, ← ih h, Value.findEntry, hequal]
      by_cases hn : n = name <;> simp [hn, Value.identical, Except.toOption]

/-- A member of a record that is read as an item is its cell. -/
theorem read_eq_cell (catalog : Catalog) {entries : List (Value × Value)}
    (h : HoldsFields columns entries) {f : Field} (haccess : f.access = .item) :
    f.read catalog (.dict entries) = .ok (Row.cell f.name (.dict entries)) := by
  have hkey : Value.checkKey catalog (.str f.name) = .ok () := rfl
  rw [Field.read, haccess]
  simp only [Value.entry?, hkey, Except.ok_bind, Except.pure_eq_ok, findEntry_eq_cell catalog h]

end ColumnType

namespace ColumnChain

open ColumnType

variable {fields : List Field} {t : ColumnType}

theorem isPlain (h : ColumnChain columns fields t) (hplain : (ColumnType.struct columns).IsPlain) :
    t.IsPlain := by
  induction h with
  | last hmem => exact hplain.parts _ hmem
  | step hmem _ _ ih => exact ih (hplain.parts _ hmem)

/-- The first member is read from the record, the others from its cell. -/
theorem readFields_cons (catalog : Catalog) {entries : List (Value × Value)}
    (hentries : HoldsFields columns entries) {f : Field} (haccess : f.access = .item)
    (fields : List Field) : Accessor.readFields catalog (f :: fields) (.dict entries) =
      Accessor.readFields catalog fields (Row.cell f.name (.dict entries)) := by
  have hnull : ¬ (Value.dict entries).isNull = true := Bool.false_ne_true
  rw [Accessor.readFields, if_neg hnull, read_eq_cell catalog hentries haccess]
  rfl

/-- Reading along a chain gives a value of the column at its end; null on the way makes it null. -/
theorem readFields_eq_ok (h : ColumnChain columns fields t)
    (hplain : (ColumnType.struct columns).IsPlain) (catalog : Catalog)
    {entries : List (Value × Value)} (hentries : HoldsFields columns entries) :
    ∃ v, Accessor.readFields catalog fields (.dict entries) = .ok v ∧ Holds t v := by
  induction h generalizing entries with
  | @last columns f t hmem haccess =>
    rw [readFields_cons catalog hentries haccess]
    exact ⟨_, rfl, hentries.holds_cell hplain.names hmem⟩
  | @step columns parts f fields t hmem haccess h ih =>
    have hcell := hentries.holds_cell hplain.names hmem
    rw [readFields_cons catalog hentries haccess]
    generalize Row.cell f.name (.dict entries) = v at hcell
    cases hcell with
    | null =>
      cases h <;> exact ⟨.null, rfl, .null _⟩
    | int ht => cases ht
    | struct hparts => exact ih (hplain.parts _ hmem) hparts

end ColumnChain
end RecordQuery
