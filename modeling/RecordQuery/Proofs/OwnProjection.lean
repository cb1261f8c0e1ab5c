import RecordQuery.Proofs.ColumnProjection
import RecordQuery.Proofs.CopiedMembers
import RecordQuery.Proofs.TypeEquality

/-!
# Projecting rows onto their own schema

A schema whose members can be read and assigned and have distinct names binds each of them to
itself and converts nothing (`ProjectionPlan.bindings_self`). A row of a table that is projected
onto its own schema comes back with its values in the order of the columns, and unchanged if it has
this order itself (`ProjectionPlan.apply_self`). There is one name that no record can be given a
value for, and with a column of this name no row can be projected.
-/

namespace RecordQuery

/-! ### Entries in order -/

section

variable {α β : Type} {entries : List (String × β)}

theorem put_append_of_not_mem {key : String} (h : key ∉ entries.map (·.1))
    (more : List (String × β)) (value : β) :
    put (entries ++ more) key value = entries ++ put more key value := by
  induction entries with
  | nil => rfl
  | cons e entries ih =>
    obtain ⟨k, v⟩ := e
    rw [List.map_cons, List.mem_cons, not_or] at h
    rw [List.cons_append, put, if_neg (Ne.symm h.1), ih h.2]
    rfl

/-- Setting all names that are there, each once, gives all of them new values in their places. -/
theorem foldl_put_replace {name : α → String} (old new : α → β) {xs : List α}
    (h : (entries.map (·.1) ++ xs.map name).Nodup) :
    (xs.map fun x => (name x, new x)).foldl (fun all e => put all e.1 e.2)
      (entries ++ xs.map fun x => (name x, old x)) =
        entries ++ xs.map fun x => (name x, new x) := by
  induction xs generalizing entries with
  | nil => rfl
  | cons x xs ih =>
    have hnew : name x ∉ entries.map (·.1) := fun hmem =>
      (List.nodup_append.1 h).2.2 _ hmem _ (by simp) rfl
    have hput : put ((name x, old x) :: xs.map fun x => (name x, old x)) (name x) (new x) =
        (name x, new x) :: xs.map fun x => (name x, old x) := if_pos rfl
    have hnext : ((entries ++ [(name x, new x)]).map (·.1) ++ xs.map name).Nodup := by
      simpa using h
    rw [List.map_cons, List.map_cons, List.foldl_cons, put_append_of_not_mem hnew, hput,
      List.append_cons entries _ (xs.map fun x => (name x, old x)),
      List.append_cons entries _ (xs.map fun x => (name x, new x))]
    exact ih hnext

theorem lookup_of_mem_of_nodup {e : String × β} (h : (entries.map (·.1)).Nodup)
    (he : e ∈ entries) : entries.lookup e.1 = some e.2 := by
  induction entries with
  | nil => cases he
  | cons e' entries ih =>
    rw [List.map_cons, List.nodup_cons] at h
    rw [List.lookup_cons]
    rcases List.mem_cons.1 he with rfl | he
    · rw [beq_self_eq_true]
    · have hne : e.1 ≠ e'.1 := fun heq => h.1 (heq ▸ List.mem_map_of_mem he)
      rw [beq_false_of_ne hne, ih h.2 he]

/-- Entries are what is found under their names. -/
theorem map_lookup_eq (h : (entries.map (·.1)).Nodup) (default : β) :
    (entries.map (·.1)).map (fun name => (name, (entries.lookup name).getD default)) = entries := by
  rw [List.map_map]
  refine (List.map_congr_left fun e he => ?_).trans (List.map_id _)
  simp [lookup_of_mem_of_nodup h he]

end

/-! ### New records -/

namespace Schema

variable {catalog : Catalog} {s : Schema} {values : List (String × Value)}

theorem any_reserved_iff :
    values.any (·.1 == reservedName) = true ↔ reservedName ∈ values.map (·.1) := by
  simp [List.any_eq_true]

/-- No record can be given a value under the reserved name. -/
theorem new_of_mem (h : reservedName ∈ values.map (·.1)) :
    s.new catalog values = fail .wrongType := by
  rw [new, if_pos (any_reserved_iff.2 h)]

theorem new_of_not_mem (hmaker : s.maker = .mapping)
    (h : reservedName ∉ values.map (·.1)) :
    s.new catalog values = .ok (s.newMapping values) := by
  rw [new, if_neg (mt any_reserved_iff.1 h), hmaker]

end Schema

namespace ProjectionPlan

variable {catalog : Catalog} {s : Schema} {x : Value}

/-! ### Plans from a schema into itself -/

/-- A member that can be read and assigned is bound to itself. -/
theorem ofTarget?_self (hnames : s.names.Nodup) {f : Field} (hf : f ∈ s.fields)
    (hreadable : f.readable = true) (hwritable : f.writable = true) :
    Binding.ofTarget? s f = some ⟨f, f, none⟩ := by
  have hget : s.get? f.name = some f := find?_of_nodup hnames hf
  simp [Binding.ofTarget?, hwritable, hget, hreadable, TypeExpr.same_refl]

/-- **A schema binds its members to themselves.** -/
theorem bindings_self (hnames : s.names.Nodup) (hreadable : ∀ f ∈ s.fields, f.readable = true)
    (hwritable : ∀ f ∈ s.fields, f.writable = true) :
    (between s s).bindings = s.fields.map fun f => ⟨f, f, none⟩ := by
  rw [between, ← List.filterMap_eq_map]
  exact List.filterMap_congr fun f hf =>
    ofTarget?_self hnames hf (hreadable f hf) (hwritable f hf)

/-- The values of bindings are set under their names, one after the other. -/
theorem foldlM_valueFrom {bs : List Binding} {value : Binding → Value}
    (h : ∀ b ∈ bs, b.valueFrom catalog x = .ok (value b)) (entries : List (String × Value)) :
    bs.foldlM (fun all b => do return put all b.name (← b.valueFrom catalog x)) entries =
      .ok ((bs.map fun b => (b.name, value b)).foldl (fun all e => put all e.1 e.2) entries) := by
  induction bs generalizing entries with
  | nil => rfl
  | cons b bs ih =>
    rw [List.forall_mem_cons] at h
    rw [List.foldlM_cons, h.1]
    exact ih h.2 _

/-- The values of bindings of distinct names are listed under their names. -/
theorem values_of_ok {p : ProjectionPlan} {value : Binding → Value} (hnames : p.names.Nodup)
    (h : ∀ b ∈ p.bindings, b.valueFrom catalog x = .ok (value b)) :
    p.values catalog x = .ok (p.bindings.map fun b => (b.name, value b)) := by
  rw [values, foldlM_valueFrom h,
    foldl_put_eq (by simpa [names, Function.comp_def] using hnames)]
  rfl

/-! ### Rows of columns -/

variable {columns : List (String × ColumnType)} {row : List (String × Value)}

/-- The row with its values in the order of the columns. -/
def inColumnOrder (columns : List (String × ColumnType)) (row : List (String × Value)) :
    List (String × Value) :=
  (columns.map (·.1)).map fun name => (name, (row.lookup name).getD .null)

theorem inColumnOrder_eq (hrow : (row.map (·.1)).Nodup)
    (h : row.map (·.1) = columns.map (·.1)) : inColumnOrder columns row = row := by
  rw [inColumnOrder, ← h, map_lookup_eq hrow]

theorem inColumnOrder_perm (hrow : (row.map (·.1)).Nodup)
    (h : (row.map (·.1)).Perm (columns.map (·.1))) : (inColumnOrder columns row).Perm row := by
  have hperm := h.symm.map fun name => (name, (row.lookup name).getD Value.null)
  rwa [map_lookup_eq hrow] at hperm

/-- The plan reads each column and converts nothing. -/
theorem values_self (catalog : Catalog) (key : SchemaKey) (name : String)
    (hnames : (columns.map (·.1)).Nodup) (row : List (String × Value)) :
    (between (.ofColumns key name columns) (.ofColumns key name columns)).values catalog
      (.dict (row.map fun e => (.str e.1, e.2))) = .ok (inColumnOrder columns row) := by
  have hbindings : (between (.ofColumns key name columns) (.ofColumns key name columns)).bindings =
      (Schema.ofColumns key name columns).fields.map fun f => ⟨f, f, none⟩ :=
    bindings_self ((Schema.names_ofColumns key name columns).symm ▸ hnames)
      (Schema.readable_of_mem_ofColumns key name columns)
      (Schema.writable_of_mem_ofColumns key name columns)
  have hvalues := @values_of_ok catalog (.dict (row.map fun e => (.str e.1, e.2)))
    (between (.ofColumns key name columns) (.ofColumns key name columns))
    (fun b => (row.lookup b.name).getD .null) ?_ ?_
  · rw [hvalues, hbindings]
    simp [inColumnOrder, Schema.ofColumns, Binding.name, Function.comp_def]
  · rw [names, hbindings]
    simpa [Schema.ofColumns, Binding.name, Function.comp_def] using hnames
  · intro b hb
    rw [hbindings] at hb
    obtain ⟨f, hf, rfl⟩ := List.mem_map.1 hb
    obtain ⟨c, -, rfl⟩ := List.mem_map.1 hf
    rw [Binding.valueFrom, Field.read_item catalog rfl]
    rfl

/-- Giving all columns their values makes a record of just these. -/
theorem newMapping_inColumnOrder (key : SchemaKey) (name : String)
    (hnames : (columns.map (·.1)).Nodup) (row : List (String × Value)) :
    (Schema.ofColumns key name columns).newMapping (inColumnOrder columns row) =
      .dict ((inColumnOrder columns row).map fun e => (.str e.1, e.2)) := by
  have hblank := Schema.blank_eq (Schema.writable_of_mem_ofColumns key name columns)
    ((Schema.names_ofColumns key name columns).symm ▸ hnames)
  have hreplace := @foldl_put_replace (String × ColumnType) Value [] (·.1) (fun _ => .null)
    (fun c => (row.lookup c.1).getD .null) columns (by simpa using hnames)
  rw [List.nil_append, List.nil_append] at hreplace
  have horder : inColumnOrder columns row =
      columns.map fun c => (c.1, (row.lookup c.1).getD .null) := by
    simp [inColumnOrder, Function.comp_def]
  rw [Schema.newMapping, hblank, Schema.ofColumns, List.map_map, horder]
  exact congrArg (fun es => Value.dict (es.map fun e => (.str e.1, e.2))) hreplace

/-- **Rows are projected onto their own schema unchanged.** If no column has the name that no record
can be given a value for, a row of the columns comes back with its values in the order of the
columns, and so as it is if this is its own order. Otherwise no row of the columns can be
projected. -/
theorem apply_self (catalog : Catalog) (key : SchemaKey) (name : String)
    (hnames : (columns.map (·.1)).Nodup) (hrow : (row.map (·.1)).Perm (columns.map (·.1))) :
    (Schema.reservedName ∉ columns.map (·.1) →
      ∃ made : List (String × Value),
        (between (.ofColumns key name columns) (.ofColumns key name columns)).apply catalog
          (.dict (row.map fun e => (.str e.1, e.2))) =
            .ok (.dict (made.map fun e => (.str e.1, e.2))) ∧
        made.map (·.1) = columns.map (·.1) ∧ made.Perm row ∧
        (row.map (·.1) = columns.map (·.1) → made = row)) ∧
    (Schema.reservedName ∈ columns.map (·.1) →
      (between (.ofColumns key name columns) (.ofColumns key name columns)).apply catalog
        (.dict (row.map fun e => (.str e.1, e.2))) = fail .wrongType) := by
  have hnodup : (row.map (·.1)).Nodup := hrow.nodup_iff.2 hnames
  have hkeys : (inColumnOrder columns row).map (·.1) = columns.map (·.1) := by
    simp [inColumnOrder, Function.comp_def]
  have hvalues := values_self catalog key name hnames row
  constructor
  · intro hreserved
    refine ⟨inColumnOrder columns row, ?_, hkeys, inColumnOrder_perm hnodup hrow,
      inColumnOrder_eq hnodup⟩
    rw [apply, hvalues, Except.ok_bind, between, Schema.new_of_not_mem rfl (hkeys ▸ hreserved),
      newMapping_inColumnOrder key name hnames]
  · intro hreserved
    rw [apply, hvalues, Except.ok_bind, Schema.new_of_mem (hkeys ▸ hreserved)]

private def personColumns : List (String × ColumnType) :=
  [("id", .int64), ("home", .struct [("city", .string)])]

private def personRow : List (String × Value) :=
  [("id", .int 5), ("home", .dict [(.str "city", .str "Ulm")])]

theorem apply_self_person :
    (personColumns.map (·.1)).Nodup ∧
      (between (.ofColumns (.anonymous "Row") "Row" personColumns)
        (.ofColumns (.anonymous "Row") "Row" personColumns)).apply {}
          (.dict (personRow.map fun e => (.str e.1, e.2))) =
            .ok (.dict (personRow.map fun e => (.str e.1, e.2))) := by
  have hnames : (personColumns.map (·.1)).Nodup := by decide
  obtain ⟨made, happly, -, -, hsame⟩ :=
    (@apply_self personColumns personRow {} (.anonymous "Row") "Row" hnames (.refl _)).1 (by decide)
  rw [hsame rfl] at happly
  exact ⟨hnames, happly⟩

/-- A row with one column, which has the reserved name, is not projected. -/
theorem apply_self_reserved :
    ([("self", ColumnType.int64)].map (·.1)).Nodup ∧
      (between (.ofColumns (.anonymous "Row") "Row" [("self", .int64)])
        (.ofColumns (.anonymous "Row") "Row" [("self", .int64)])).apply {}
          (.dict [(.str "self", .int 5)]) = fail .wrongType :=
  ⟨by decide, rfl⟩

end ProjectionPlan
end RecordQuery
