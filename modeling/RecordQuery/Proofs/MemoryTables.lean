import RecordQuery.Column.Memory
import RecordQuery.Proofs.MemoryColumns

/-!
# Tables in memory

Tables that are held in memory select rows (`Engine.selectsRows_inMemory`) and keep records
(`Engine.keepsRecords_inMemory`), as it is asked of a library of tables.
-/

namespace RecordQuery

/-! ### Selecting rows -/

section

variable {α β : Type} {mask : List Bool} {items : List α}

theorem keepMasked_map (f : α → β) :
    keepMasked mask (items.map f) = (keepMasked mask items).map f := by
  simp only [keepMasked, List.zip_map_left, List.filter_map, List.map_map]
  rfl

theorem keepMasked_subset : keepMasked mask items ⊆ items := by
  intro x hx
  obtain ⟨y, hy, rfl⟩ := List.mem_map.1 hx
  exact (List.of_mem_zip (List.mem_of_mem_filter hy)).1

end

namespace Table

variable {t : Table} {columns : List (String × ColumnType)} {records : List Value}

theorem records_eq_ok : t.records = .ok records ↔
    t.rows.all (isReadable t.columns) = true ∧ records = t.rows.map (record t.columns) := by
  rw [Table.records]
  split
  · rename_i h
    simp [h, eq_comm]
  · rename_i h
    simp [h, fail]

theorem length_of_records (h : t.records = .ok records) : records.length = t.rows.length := by
  rw [(records_eq_ok.1 h).2, List.length_map]

/-- A table with some of the rows, in any order, can be read too. -/
theorem records_of_subset (h : t.records = .ok records) {rows : List (List Value)}
    (hrows : rows ⊆ t.rows) :
    Table.records { t with rows } = .ok (rows.map (record t.columns)) := by
  have hreadable := List.all_eq_true.1 (records_eq_ok.1 h).1
  exact records_eq_ok.2 ⟨List.all_eq_true.2 fun row hrow => hreadable row (hrows hrow), rfl⟩

theorem take_eq_ok {positions : List Nat} (h : ∀ i ∈ positions, i < t.rows.length) :
    t.take positions = .ok { t with rows := positions.map fun i => t.rows.getD i [] } := by
  refine Except.bind_eq_ok.2 ⟨_, Except.mapM_of_ok fun i hi => ?_, rfl⟩
  rw [List.getElem?_eq_getElem (h i hi), List.getD_eq_getElem _ _ (h i hi)]

end Table

theorem Engine.selectsRows_inMemory : Engine.inMemory.SelectsRows where
  size := Table.length_of_records
  columns_filter {mask t t'} h := by
    change Table.filter mask t = .ok t' at h
    unfold Table.filter at h
    split at h <;> cases h
    rfl
  columns_take {positions t t'} h := by
    obtain ⟨rows, -, h⟩ := Except.bind_eq_ok.1 h
    cases h
    rfl
  filter {mask t rows} hrows hmask := by
    obtain ⟨-, rfl⟩ := Table.records_eq_ok.1 hrows
    rw [List.length_map] at hmask
    refine ⟨_, if_pos hmask, ?_⟩
    rw [keepMasked_map]
    exact Table.records_of_subset hrows keepMasked_subset
  take {positions t rows} hrows hpositions := by
    have hlength := Table.length_of_records hrows
    rw [hlength] at hpositions
    refine ⟨_, Table.take_eq_ok hpositions, ?_⟩
    have hsubset : (positions.map fun i => t.rows.getD i []) ⊆ t.rows := by
      intro row hrow
      obtain ⟨i, hi, rfl⟩ := List.mem_map.1 hrow
      rw [List.getD_eq_getElem _ _ (hpositions i hi)]
      exact List.getElem_mem _
    have hread := Table.records_of_subset hrows hsubset
    rw [List.map_map] at hread
    refine hread.trans (congrArg _ (List.map_congr_left fun i hi => ?_))
    obtain ⟨-, rfl⟩ := Table.records_eq_ok.1 hrows
    have hi := hpositions i hi
    rw [List.getD_eq_getElem _ _ (by rwa [hlength]), Function.comp_apply,
      List.getD_eq_getElem _ _ hi, List.getElem_map]

/-! ### Rows and cells -/

namespace Row

/-- The value under a name is that of the first entry of this name. -/
theorem cell_entries (name : String) (entries : List (String × Value)) :
    cell name (.dict (entries.map fun e => (.str e.1, e.2))) =
      (entries.lookup name).getD .null := by
  induction entries with
  | nil => rfl
  | cons e entries ih =>
    rw [List.map_cons, ColumnType.cell_cons, List.lookup_cons, ih]
    by_cases h : e.1 = name
    · simp [h]
    · rw [if_neg h, beq_false_of_ne (Ne.symm h)]

end Row

/-- What is beside a name of its own is found by it. -/
theorem lookup_zip {α : Type} {names : List String} {items : List α} (hnames : names.Nodup)
    (hlength : items.length = names.length) {i : Nat} {name : String}
    (h : names[i]? = some name) : (names.zip items).lookup name = items[i]? := by
  induction names generalizing items i with
  | nil => cases h
  | cons n names ih =>
    rw [List.nodup_cons] at hnames
    cases items with
    | nil => cases hlength
    | cons x items =>
      rw [List.zip_cons_cons, List.lookup_cons]
      cases i with
      | zero =>
        cases h
        simp
      | succ i =>
        have hne : name ≠ n := by
          rintro rfl
          exact hnames.1 (List.mem_of_getElem? h)
        rw [beq_false_of_ne hne]
        exact ih hnames.2 (by simpa using hlength) h

namespace Table

variable {columns : List (String × ColumnType)} {row : List Value}

theorem record_eq (hnames : (columns.map (·.1)).Nodup) (hrow : row.length = columns.length) :
    record columns row = .dict (((columns.map (·.1)).zip row).map fun e => (.str e.1, e.2)) := by
  have hkeys : ((columns.map (·.1)).zip row).map (·.1) = columns.map (·.1) :=
    List.map_fst_zip (by simp [hrow])
  have hput := @foldl_put_eq Value [] ((columns.map (·.1)).zip row) (by simpa [hkeys])
  rw [record]
  exact congrArg (fun es => Value.dict (es.map fun e => (.str e.1, e.2))) hput

theorem cell_record (hnames : (columns.map (·.1)).Nodup) (hrow : row.length = columns.length)
    {i : Nat} {c : String × ColumnType} (hc : columns[i]? = some c) :
    Row.cell c.1 (record columns row) = row[i]?.getD .null := by
  rw [record_eq hnames hrow, Row.cell_entries,
    lookup_zip hnames (by rw [hrow, List.length_map]) (by rw [List.getElem?_map, hc]; rfl)]

end Table

/-! ### Reading values -/

namespace ColumnType

mutual

/-- What can be read as a plain type are its values. -/
theorem isReadable_iff {t : ColumnType} (ht : t.IsPlain) (v : Value) :
    t.isReadable v = true ↔ Holds t v := by
  cases ht with
  | bool =>
    constructor
    · intro h
      cases v
      case null => exact .null _
      case bool b => exact .bool b
      all_goals cases h
    · intro h
      rcases h.of_bool with rfl | ⟨b, rfl⟩ <;> rfl
  | string =>
    constructor
    · intro h
      cases v
      case null => exact .null _
      case str s => exact .str s
      all_goals cases h
    · intro h
      rcases h.of_string with rfl | ⟨s, rfl⟩ <;> rfl
  | @integer t range hrange hword =>
    constructor
    · intro h
      cases v
      case null => exact .null _
      case int i =>
        refine .int hrange ?_
        cases t <;> cases hrange <;> exact h
      all_goals cases t <;> cases hrange <;> cases h
    · intro h
      rcases h.of_range? hrange with rfl | ⟨i, rfl, hi⟩
      · cases t <;> rfl
      · cases t <;> cases hrange <;> exact hi
  | @struct fields hnames hfields =>
    constructor
    · intro h
      cases v
      case null => exact .null _
      case dict entries =>
        rw [isReadable, Bool.and_eq_true] at h
        exact .struct ((areReadable_iff hfields entries).1 h.2)
      all_goals cases h
    · intro h
      cases h with
      | null => rfl
      | int h => cases h
      | struct h =>
        rw [isReadable, Bool.and_eq_true, decide_eq_true_eq]
        exact ⟨hnames, (areReadable_iff hfields _).2 h⟩

theorem areReadable_iff {fields : List (String × ColumnType)} (h : ∀ f ∈ fields, f.2.IsPlain)
    (entries : List (Value × Value)) : areReadable fields entries = true ↔
      HoldsFields fields entries := by
  match fields, entries with
  | [], [] => exact ⟨fun _ => .nil, fun _ => rfl⟩
  | [], _ :: _ => exact ⟨nofun, nofun⟩
  | _ :: _, [] => exact ⟨nofun, nofun⟩
  | (n, t) :: fields, (k, v) :: entries =>
    rw [List.forall_mem_cons] at h
    constructor
    · intro hread
      cases k
      case str m =>
        rw [areReadable, Bool.and_eq_true, Bool.and_eq_true, beq_iff_eq] at hread
        obtain ⟨⟨rfl, hv⟩, hentries⟩ := hread
        exact .cons ((isReadable_iff h.1 v).1 hv) ((areReadable_iff h.2 entries).1 hentries)
      all_goals cases hread
    · intro hholds
      cases hholds with
      | cons hv hentries =>
        rw [areReadable, (isReadable_iff h.1 v).2 hv, (areReadable_iff h.2 entries).2 hentries,
          beq_self_eq_true]
        rfl

end

/-- The entries are the names of the fields beside the values. -/
theorem HoldsFields.entries_eq {fields : List (String × ColumnType)}
    {entries : List (Value × Value)} (h : HoldsFields fields entries) :
    entries = ((fields.map (·.1)).zip (entries.map (·.2))).map fun e => (.str e.1, e.2) := by
  induction fields generalizing entries with
  | nil => cases h; rfl
  | cons f fields ih =>
    cases h with
    | cons hv h =>
      rw [List.map_cons, List.map_cons, List.zip_cons_cons, List.map_cons, ← ih h]

end ColumnType

/-! ### Keeping records -/

namespace Table

open ColumnType

variable {α : Type} {columns : List (String × ColumnType)} {records : List Value}

theorem isReadable_eq_true (hplain : ∀ c ∈ columns, c.2.IsPlain) {row : List Value} :
    isReadable columns row = true ↔ row.length = columns.length ∧
      HoldsFields columns (((columns.map (·.1)).zip row).map fun e => (.str e.1, e.2)) := by
  rw [isReadable, Bool.and_eq_true, beq_iff_eq]
  refine and_congr_right fun hlength => ?_
  induction columns generalizing row with
  | nil => exact ⟨fun _ => .nil, fun _ => rfl⟩
  | cons c columns ih =>
    cases row with
    | nil => cases hlength
    | cons v row =>
      rw [List.forall_mem_cons] at hplain
      simp only [List.map_cons, List.zip_cons_cons, List.all_cons, Bool.and_eq_true]
      rw [isReadable_iff hplain.1, ih hplain.2 (by simpa using hlength)]
      constructor
      · rintro ⟨hv, hrow⟩
        exact .cons hv hrow
      · rintro (_ | ⟨hv, hrow⟩)
        exact ⟨hv, hrow⟩

/-- What is read of columns of plain types are values of them. -/
theorem hasColumns_of_records {t : Table} (h : t.records = .ok records)
    (hplain : (ColumnType.struct t.columns).IsPlain) :
    ∀ r ∈ records, Row.HasColumns t.columns r := by
  obtain ⟨hreadable, rfl⟩ := records_eq_ok.1 h
  intro r hr
  obtain ⟨row, hrow, rfl⟩ := List.mem_map.1 hr
  obtain ⟨hlength, hholds⟩ :=
    (isReadable_eq_true hplain.parts).1 (List.all_eq_true.1 hreadable row hrow)
  exact ⟨_, record_eq hplain.names hlength, hholds⟩

/-- Columns of one length, row by row. -/
theorem transpose_map {f : α → List Value} {items : List α} (hitems : items ≠ []) {n : Nat}
    (hlength : ∀ x ∈ items, (f x).length = n) :
    transpose (items.map f) =
      (List.range n).map fun i => items.map fun x => ((f x)[i]?).getD .null := by
  cases items with
  | nil => exact absurd rfl hitems
  | cons x items =>
    rw [List.map_cons, transpose, hlength x List.mem_cons_self]
    simp [Function.comp_def]

theorem areAligned_map {f : α → List Value} {items : List α} {n : Nat}
    (hlength : ∀ x ∈ items, (f x).length = n) : areAligned (items.map f) = true := by
  cases items with
  | nil => rfl
  | cons x items =>
    rw [List.forall_mem_cons] at hlength
    rw [List.map_cons, areAligned, List.all_eq_true]
    intro column hcolumn
    obtain ⟨y, hy, rfl⟩ := List.mem_map.1 hcolumn
    rw [hlength.1, hlength.2 y hy, beq_self_eq_true]

/-- The cells of a record. -/
def cells (columns : List (String × ColumnType)) (record : Value) : List Value :=
  columns.map fun c => Row.cell c.1 record

theorem transpose_cells (hcolumns : columns ≠ []) (records : List Value) :
    transpose (columns.map fun c => records.map (Row.cell c.1)) = records.map (cells columns) := by
  rw [transpose_map hcolumns fun c _ => List.length_map (Row.cell c.1)]
  refine List.ext_getElem (by simp) fun i hi hi' => ?_
  rw [List.length_map] at hi'
  simp [cells, hi']

/-- The cells of a record of the columns are its values. -/
theorem cells_eq {entries : List (Value × Value)} (hnames : (columns.map (·.1)).Nodup)
    (h : HoldsFields columns entries) : cells columns (.dict entries) = entries.map (·.2) :=
  h.cells_eq hnames

/-- The rows of records of the columns are read as these records. -/
theorem records_map_cells (hplain : (ColumnType.struct columns).IsPlain)
    (h : ∀ r ∈ records, Row.HasColumns columns r) :
    Table.records ⟨columns, records.map (cells columns)⟩ = .ok records := by
  have hrow : ∀ r ∈ records,
      isReadable columns (cells columns r) = true ∧ record columns (cells columns r) = r := by
    intro r hr
    obtain ⟨entries, rfl, hentries⟩ := h r hr
    have hlength : (cells columns (.dict entries)).length = columns.length := List.length_map _
    rw [isReadable_eq_true hplain.parts, record_eq hplain.names hlength,
      cells_eq hplain.names hentries, ← hentries.entries_eq]
    rw [cells_eq hplain.names hentries] at hlength
    exact ⟨⟨hlength, hentries⟩, rfl⟩
  refine records_eq_ok.2 ⟨?_, ?_⟩
  · rw [List.all_map, List.all_eq_true]
    exact fun r hr => (hrow r hr).1
  · rw [List.map_map]
    exact ((List.map_congr_left fun r hr => (hrow r hr).2).trans (List.map_id' records)).symm

theorem mapM_storeAll_eq (hplain : ∀ c ∈ columns, c.2.IsPlain)
    (hrecords : ∀ c ∈ columns, ∀ r ∈ records, Holds c.2 (Row.cell c.1 r)) {held : List (List Value)}
    (h : (columns.zip (columns.map fun c => records.map (Row.cell c.1))).mapM
      (fun x => storeAll .given x.1.2 x.2) = .ok held) :
    held = columns.map fun c => records.map (Row.cell c.1) := by
  rw [Except.mapM_eq_ok, ← List.map_prod_left_eq_zip, List.forall₂_map_left_iff] at h
  induction h with
  | nil => rfl
  | @cons c vs columns held hc _ ih =>
    rw [List.forall_mem_cons] at hplain hrecords
    have hvs := storeAll_eq hplain.1 (List.forall_mem_map.2 hrecords.1) hc
    rw [List.map_cons, hvs, ih hplain.2 hrecords.2]

theorem columns_ofRecords {t : Table} (h : ofRecords columns records = .ok t) :
    t.columns = columns := by
  obtain ⟨held, -, h⟩ := Except.bind_eq_ok.1 h
  split at h <;> cases h
  rfl

/-- A table of records of its columns is read as those records. -/
theorem records_ofRecords (hcolumns : columns ≠ []) (hplain : (ColumnType.struct columns).IsPlain)
    (hrecords : ∀ r ∈ records, Row.HasColumns columns r) {t : Table}
    (h : ofRecords columns records = .ok t) : t.records = .ok records := by
  have hcells : ∀ c ∈ columns, ∀ r ∈ records, Holds c.2 (Row.cell c.1 r) := by
    intro c hc r hr
    obtain ⟨entries, rfl, h⟩ := hrecords r hr
    exact h.holds_cell hplain.names hc
  obtain ⟨held, hheld, h⟩ := Except.bind_eq_ok.1 h
  rw [mapM_storeAll_eq hplain.parts hcells hheld, transpose_cells hcolumns] at h
  split at h <;> cases h
  exact records_map_cells hplain hrecords

theorem names_inferRecords {t : Table} (h : inferRecords records = .ok t) :
    t.columns.map (·.1) = (records.head?.map Row.names).getD [] := by
  obtain ⟨columns, hcolumns, ht⟩ := Except.bind_eq_ok.1 h
  clear h
  cases ht
  generalize (records.head?.map Row.names).getD [] = names at hcolumns
  rw [Except.mapM_eq_ok] at hcolumns
  induction hcolumns with
  | nil => rfl
  | @cons n c names columns hc _ ih =>
    obtain ⟨⟨t, held⟩, -, hc⟩ := Except.bind_eq_ok.1 hc
    cases hc
    exact congrArg (n :: ·) ih

end Table

theorem Engine.keepsRecords_inMemory : Engine.inMemory.KeepsRecords where
  columns_ofRecords := Table.columns_ofRecords
  records_ofRecords hcolumns hplain hrecords h :=
    Table.records_ofRecords hcolumns hplain hrecords h
  names_inferRecords := Table.names_inferRecords
  size_inferRecords h := by
    cases h
    rfl
  hasColumns := Table.hasColumns_of_records

end RecordQuery
