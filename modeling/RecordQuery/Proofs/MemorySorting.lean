import RecordQuery.Proofs.MemoryTables
import RecordQuery.Proofs.StableOrder

/-!
# Sorting tables in memory

The comparison of two keys of one kind puts nulls at one end and orders all others by their ranks
(`ColumnSort.compareKeys_decides`), that of several keys is lexicographic
(`ColumnSort.compareAll_decides`), and merge sort is stable. So tables that are held in memory are
sorted as it is asked of a library of tables (`Engine.sortsStably_inMemory`).
-/

namespace RecordQuery

/-! ### Comparing rows -/

/-- The outcome of a comparison says which of two items comes before the other one, if any. -/
def Decides {α : Type} (o : Ordering) (lt : α → α → Prop) (a b : α) : Prop :=
  (o = .lt ↔ lt a b) ∧ (o = .gt ↔ lt b a)

namespace Decides

variable {α : Type} {o o' : Ordering} {first second : α → α → Prop} {a b : α}

theorem tie (hab : ¬ first a b) (hba : ¬ first b a) : Decides .eq first a b := by
  simp [Decides, hab, hba]

/-- A second comparison decides what the first one leaves open. -/
theorem «then» (h : Decides o first a b) (h' : Decides o' second a b) :
    Decides (o.then o') (ThenBy first second) a b := by
  have heq : o = .eq ↔ ¬ first a b ∧ ¬ first b a := by
    rw [← h.1, ← h.2]
    cases o <;> simp
  unfold Decides ThenBy
  rw [Ordering.then_eq_lt, Ordering.then_eq_gt, heq, h.1, h.2, h'.1, h'.2]
  tauto

end Decides

namespace ColumnSort

variable {placement : NullPlacement}

theorem compareValues_of_number {v w : Value} {i j : Int} (hv : v.number? = some (.int i))
    (hw : w.number? = some (.int j)) : compareValues v w = compare i j := by
  cases v <;> cases hv <;> cases w <;> cases hw <;> rfl

section

variable {kind : KeyKind} {v w : Value}

/-- Values of one kind are compared by their ranks. -/
theorem compareValues_decides (hv : v.IsKey kind) (hw : w.IsKey kind) (hv' : v ≠ .null)
    (hw' : w ≠ .null) : Decides (compareValues v w) (· < ·) v.rank w.rank := by
  cases hv <;> cases hw <;> try contradiction
  case str.str s t =>
    simp [Decides, compareValues, Value.rank, compare_lt_iff_lt, compare_gt_iff_gt]
  all_goals
    rw [compareValues_of_number rfl rfl]
    simp [Decides, Value.rank, compare_lt_iff_lt, compare_gt_iff_gt]

theorem keyClass_of_isKey (hv : v.IsKey kind) (hv' : v ≠ .null) :
    keyClass v = 2 ∧ ⊥ < v.rank := by
  cases hv with
  | null => contradiction
  | bool | int | str => exact ⟨rfl, WithBot.bot_lt_coe _⟩

/-- The comparison of two keys of one kind puts nulls in their place. -/
theorem compareKeys_decides (hv : v.IsKey kind) (hw : w.IsKey kind) (direction : Direction) :
    Decides (compareKeys placement direction v w) (placement.Before direction) v.rank w.rank := by
  have hzero : keyClass .null = 0 := rfl
  have hbot : Value.null.rank = ⊥ := rfl
  by_cases hv' : v = .null
  · by_cases hw' : w = .null
    · have htie : compareKeys placement direction .null .null = .eq := by
        cases placement <;> cases direction <;> rfl
      rw [hv', hw', htie]
      exact .tie NullPlacement.not_before_self NullPlacement.not_before_self
    · obtain ⟨hclass, hrank⟩ := keyClass_of_isKey hw hw'
      cases placement <;>
        simp [Decides, NullPlacement.Before, compareKeys, hv', hzero, hclass, hbot, hrank.ne',
          compare, compareOfLessAndEq]
  · obtain ⟨hclass, hrank⟩ := keyClass_of_isKey hv hv'
    by_cases hw' : w = .null
    · cases placement <;>
        simp [Decides, NullPlacement.Before, compareKeys, hw', hzero, hclass, hbot, hrank.ne',
          compare, compareOfLessAndEq]
    · obtain ⟨hclass', hrank'⟩ := keyClass_of_isKey hw hw'
      have hvalues := compareValues_decides hv hw hv' hw'
      have hvalues' := compareValues_decides hw hv hw' hv'
      unfold Decides at hvalues hvalues'
      cases placement <;> cases direction <;>
        simp [Decides, NullPlacement.Before, Direction.Before, compareKeys, hclass, hclass',
          hrank.ne', hrank'.ne', hvalues, hvalues', compare, compareOfLessAndEq]

end

/-- Rows are compared by the first of their keys that differ. -/
theorem compareAll_decides {keys : List (String × Direction)} {a b : Value}
    (h : ∀ key ∈ keys, ∃ kind, (Row.cell key.1 a).IsKey kind ∧ (Row.cell key.1 b).IsKey kind) :
    Decides (compareAll placement (keys.map fun key => (Row.cell key.1 a, key.2))
      (keys.map fun key => (Row.cell key.1 b, key.2))) (Row.KeysBefore placement keys) a b := by
  induction keys with
  | nil => exact .tie Lexicographic.not_nil Lexicographic.not_nil
  | cons key keys ih =>
    rw [List.forall_mem_cons] at h
    obtain ⟨⟨kind, ha, hb⟩, hkeys⟩ := h
    have hcons : Row.KeysBefore placement (key :: keys) = ThenBy
        (fun a b => placement.Before key.2 (Row.cell key.1 a).rank (Row.cell key.1 b).rank)
        (Row.KeysBefore placement keys) := by
      ext x y
      exact Lexicographic.cons_iff
    have hkey : Decides (compareKeys placement key.2 (Row.cell key.1 a) (Row.cell key.1 b))
        (fun a b => placement.Before key.2 (Row.cell key.1 a).rank (Row.cell key.1 b).rank) a b :=
      compareKeys_decides ha hb key.2
    rw [hcons]
    exact hkey.then (ih hkeys)

/-- The keys of the row at a position. -/
def keysAt (leaves : List Leaf) (i : Nat) : List (Value × Direction) :=
  leaves.map fun l => ((l.values[i]?).getD .null, l.direction)

theorem keyed_eq {α : Type} (leaves : List Leaf) (rows : List α) :
    keyed leaves rows = rows.zipIdx.map fun r => { keys := keysAt leaves r.2, row := r.1 } :=
  rfl

theorem map_row_keyed {α : Type} (leaves : List Leaf) (rows : List α) :
    (keyed leaves rows).map (·.row) = rows := by
  simp [keyed_eq, Function.comp_def]

/-- Rows are sorted stably in an order that the comparisons of their keys decide. -/
theorem sort_stablyOrdered {α : Type} {lt : α → α → Prop} (hlt : ∀ a b, lt a b → ¬ lt b a)
    (hor : ∀ a b c, lt a c → lt a b ∨ lt b c) {leaves : List Leaf} {rows : List α}
    (hdecides : ∀ (i j : Nat) (a b : α), rows[i]? = some a → rows[j]? = some b →
      Decides (compareAll placement (keysAt leaves i) (keysAt leaves j)) lt a b) :
    StablyOrdered lt rows (sort placement leaves rows) := by
  classical
  have hsort : sort placement leaves rows = rows.mergeSort fun a b => decide (¬ lt b a) := by
    rw [sort]
    conv_rhs => rw [← map_row_keyed leaves rows]
    refine List.map_mergeSort fun x hx y hy => ?_
    obtain ⟨⟨a, i⟩, ha, rfl⟩ := List.mem_map.1 hx
    obtain ⟨⟨b, j⟩, hb, rfl⟩ := List.mem_map.1 hy
    rw [List.mem_zipIdx_iff_getElem?] at ha hb
    rw [Bool.eq_iff_iff, bne_iff_ne, decide_eq_true_iff, not_iff_not]
    exact (hdecides i j a b ha hb).2
  rw [hsort]
  exact .of_mergeSort _ hlt hor fun a b => decide_eq_true_iff

end ColumnSort

/-- The positions of a list, put stably in an order, are in this order or in that of the list. -/
theorem StablyOrdered.pairwise_range {n : Nat} {lt : Nat → Nat → Prop} {out : List Nat}
    (h : StablyOrdered lt (List.range n) out) :
    out.Pairwise fun i j => lt i j ∨ ¬ lt j i ∧ i < j := by
  obtain ⟨placed, hperm, rfl, hordered⟩ := h
  rw [List.pairwise_map]
  have hself : ∀ x ∈ placed, x.2 = x.1 := by
    intro x hx
    obtain ⟨-, hlt, heq⟩ := List.mem_zipIdx (hperm.subset hx)
    rw [heq, List.getElem_range, Nat.sub_zero]
  refine hordered.imp_of_mem fun {a b} ha hb hab => ?_
  rwa [ComesFirst, hself a ha, hself b hb] at hab

/-! ### The table of the keys -/

namespace CellKind

theorem isPlain_type (kind : CellKind) : kind.type.IsPlain := by
  cases kind with
  | bool => exact .bool
  | integer => exact .integer (show ColumnType.range? .int64 = _ from rfl) (by decide)
  | text => exact .string

end CellKind

theorem Value.IsCell.holds {kind : CellKind} {v : Value} (h : v.IsCell kind) :
    kind.type.Holds v := by
  cases h with
  | null => exact .null _
  | bool b => exact .bool b
  | int hi =>
    exact .int (show ColumnType.range? .int64 = _ from rfl) (ColumnType.inRange_int64.2 hi)
  | str s => exact .str s

namespace Table

variable {t : Table} {records : List Value}

theorem length_of_mem_rows (h : t.records = .ok records) {row : List Value} (hrow : row ∈ t.rows) :
    row.length = t.columns.length := by
  have hreadable := List.all_eq_true.1 (records_eq_ok.1 h).1 row hrow
  rw [isReadable, Bool.and_eq_true, beq_iff_eq] at hreadable
  exact hreadable.1

/-- The column of a name has the cells of the rows under it. -/
theorem named_eq_ok (h : t.records = .ok records) (hnames : (t.columns.map (·.1)).Nodup)
    {name : String} {type : ColumnType} (hc : (name, type) ∈ t.columns) :
    t.named name = .ok (type, records.map (Row.cell name)) := by
  obtain ⟨j, hj⟩ := List.getElem?_of_mem hc
  have hsome : (t.columns.zipIdx.find? (·.1.1 == name)).isSome = true := by
    rw [List.find?_isSome]
    exact ⟨((name, type), j), List.mem_zipIdx_iff_getElem?.2 hj, beq_self_eq_true _⟩
  obtain ⟨⟨⟨n, type'⟩, i⟩, hfind⟩ := Option.isSome_iff_exists.1 hsome
  have hname : n = name := by simpa using List.find?_some hfind
  have hi := List.mem_zipIdx_iff_getElem?.1 (List.mem_of_find?_eq_some hfind)
  cases List.inj_on_of_nodup_map hnames (List.mem_of_getElem? hi) hc hname
  have hcells : (t.rows.map fun row => row[i]?.getD .null) = records.map (Row.cell name) := by
    rw [(records_eq_ok.1 h).2, List.map_map]
    exact List.map_congr_left fun row hrow =>
      (cell_record hnames (length_of_mem_rows h hrow) hi).symm
  rw [named, hfind]
  exact congrArg (fun cells => Except.ok (type, cells)) hcells

/-- The table of columns with `n` cells each. -/
def ofCells (n : Nat) (columns : List (String × ColumnType × List Value)) : Table where
  columns := columns.map fun c => (c.1, c.2.1)
  rows := (List.range n).map fun i => columns.map fun c => (c.2.2[i]?).getD .null

section

variable {columns : List (String × ColumnType × List Value)} {n : Nat}

theorem ofNamed_eq (hcolumns : columns ≠ []) (hlength : ∀ c ∈ columns, c.2.2.length = n) :
    ofNamed columns = .ok (ofCells n columns) := by
  rw [ofNamed, if_pos (areAligned_map hlength), transpose_map hcolumns hlength]
  rfl

/-- Cells of plain types can be read. -/
theorem records_ofCells
    (h : ∀ c ∈ columns, c.2.1.IsPlain ∧ ∀ v ∈ c.2.2, ColumnType.Holds c.2.1 v) :
    (ofCells n columns).records =
      .ok ((ofCells n columns).rows.map (record (ofCells n columns).columns)) := by
  refine records_eq_ok.2 ⟨?_, rfl⟩
  simp only [ofCells, List.all_map, List.all_eq_true]
  intro i hi
  rw [Function.comp_apply, isReadable, Bool.and_eq_true, beq_iff_eq]
  refine ⟨by simp, ?_⟩
  rw [List.map_map, List.zip_map', List.all_map, List.all_eq_true]
  intro c hc
  refine (ColumnType.isReadable_iff (h c hc).1 _).2 ?_
  cases hv : c.2.2[i]? with
  | none => exact .null _
  | some v => exact (h c hc).2 v (List.mem_of_getElem? hv)

/-- What the rows have under the name of a column are its cells. -/
theorem map_cell_ofCells (hnames : (columns.map (·.1)).Nodup)
    {c : String × ColumnType × List Value} (hc : c ∈ columns) (hlength : c.2.2.length = n) :
    ((ofCells n columns).rows.map (record (ofCells n columns).columns)).map (Row.cell c.1) =
      c.2.2 := by
  obtain ⟨j, hj⟩ := List.getElem?_of_mem hc
  have hdistinct : ((ofCells n columns).columns.map (·.1)).Nodup := by
    rwa [ofCells, List.map_map]
  refine List.ext_getElem (by simp [ofCells, hlength]) fun i hi hi' => ?_
  have hrow : (columns.map fun c => (c.2.2[i]?).getD Value.null).length =
      (ofCells n columns).columns.length := by simp [ofCells]
  have hcell := cell_record hdistinct hrow (c := (c.1, c.2.1))
    (by rw [ofCells, List.getElem?_map, hj]; rfl)
  simp only [ofCells, List.getElem_map, List.getElem_range] at hcell ⊢
  rw [hcell, List.getElem?_map, hj]
  simp [hi']

end

/-- Columns of one length make a table under distinct names, whose rows have their cells. -/
theorem ofNamed_eq_ok {columns : List (String × (ColumnType × List Value) × List Value)} {n : Nat}
    (hcolumns : columns ≠ []) (hnames : (columns.map (·.1)).Nodup)
    (h : ∀ c ∈ columns, ColumnType.column c.2.2 = .ok c.2.1 ∧ c.2.2.length = n ∧
      ∃ kind, c.2.1.1 = CellKind.type kind ∧ ∀ v ∈ c.2.2, v.IsCell kind) :
    ∃ t rows, Table.ofNamed (columns.map fun c => (c.1, c.2.1)) = .ok t ∧
      t.columns = columns.map (fun c => (c.1, c.2.1.1)) ∧
      t.records = .ok rows ∧ rows.length = n ∧ ∀ c ∈ columns, rows.map (Row.cell c.1) = c.2.2 := by
  -- cells of such kinds are held as they are given
  have hheld : ∀ c ∈ columns, c.2.1.2 = c.2.2 := by
    intro c hc
    obtain ⟨hcolumn, -, kind, -, hcells⟩ := h c hc
    obtain ⟨t, hcolumn', -⟩ := ColumnType.exists_column_of_isCell hcells
    exact congrArg Prod.snd (Except.ok.inj (hcolumn.symm.trans hcolumn'))
  have hlength : ∀ c ∈ columns, c.2.1.2.length = n := fun c hc => by
    rw [hheld c hc]
    exact (h c hc).2.1
  have hplain : ∀ c ∈ columns, c.2.1.1.IsPlain ∧ ∀ v ∈ c.2.1.2, ColumnType.Holds c.2.1.1 v := by
    intro c hc
    obtain ⟨-, -, kind, htype, hcells⟩ := h c hc
    rw [hheld c hc, htype]
    exact ⟨kind.isPlain_type, fun v hv => (hcells v hv).holds⟩
  have hdistinct : ((columns.map fun c => (c.1, c.2.1)).map (·.1)).Nodup := by
    rwa [List.map_map]
  refine ⟨_, _, ofNamed_eq (by simpa using hcolumns) (List.forall_mem_map.2 hlength), ?_,
    records_ofCells (List.forall_mem_map.2 hplain), by simp [ofCells], fun c hc => ?_⟩
  · rw [ofCells, List.map_map]
    rfl
  · rw [← hheld c hc]
    exact map_cell_ofCells hdistinct (List.mem_map_of_mem hc) (hlength c hc)

end Table

/-! ### The positions of sorted rows -/

namespace Table

variable {t : Table} {records : List Value} {placement : NullPlacement}
  {keys : List (String × Direction)}

theorem leaves_of_cellKind (kind : CellKind) (direction : Direction) (values : List Value) :
    ColumnSort.leaves direction kind.type values = .ok [⟨values, direction⟩] := by
  cases kind <;> rfl

/-- A table is sorted by the cells under the names of its keys. -/
theorem sortIndices_eq_ok (h : t.records = .ok records) (hnames : (t.columns.map (·.1)).Nodup)
    (hkeys : ∀ key ∈ keys, ∃ kind : CellKind, (key.1, kind.type) ∈ t.columns) :
    t.sortIndices placement keys = .ok (ColumnSort.sort placement
      (keys.map fun key => ⟨records.map (Row.cell key.1), key.2⟩) (List.range records.length)) := by
  refine Except.bind_eq_ok.2 ⟨keys.map fun key => [⟨records.map (Row.cell key.1), key.2⟩], ?_, ?_⟩
  · refine Except.mapM_of_ok fun key hkey => ?_
    obtain ⟨kind, hmem⟩ := hkeys key hkey
    refine Except.bind_eq_ok.2 ⟨_, named_eq_ok h hnames hmem, ?_⟩
    exact leaves_of_cellKind kind _ _
  · rw [length_of_records h, ← List.flatMap_def, ← List.map_eq_flatMap]
    rfl

end Table

theorem Engine.sortsStably_inMemory : Engine.inMemory.SortsStably where
  column h := by
    obtain ⟨t, hcolumn, ht⟩ := ColumnType.exists_column_of_isCell h
    exact ⟨_, hcolumn, ht⟩
  column_mixed := ColumnType.isCell_of_column
  ofColumns := Table.ofNamed_eq_ok
  sortIndices {placement keys t rows} hrows hkeys hnames hcells := by
    have hlt : ∀ i j : Nat, Row.KeysBefore placement keys (rows.getD i .null) (rows.getD j .null) →
        ¬ Row.KeysBefore placement keys (rows.getD j .null) (rows.getD i .null) :=
      fun _ _ h => h.asymm fun _ _ _ => NullPlacement.Before.asymm
    have hor : ∀ i j k : Nat,
        Row.KeysBefore placement keys (rows.getD i .null) (rows.getD k .null) →
        Row.KeysBefore placement keys (rows.getD i .null) (rows.getD j .null) ∨
          Row.KeysBefore placement keys (rows.getD j .null) (rows.getD k .null) :=
      fun _ _ _ h => h.or (fun _ _ _ _ h => h.or _) _
    have hmem : ∀ i < rows.length, rows.getD i .null ∈ rows := by
      intro i hi
      rw [List.getD_eq_getElem _ _ hi]
      exact List.getElem_mem hi
    have hat : ∀ i < rows.length, ColumnSort.keysAt
        (keys.map fun key => ⟨rows.map (Row.cell key.1), key.2⟩) i =
          keys.map fun key => (Row.cell key.1 (rows.getD i .null), key.2) := by
      intro i hi
      simp [ColumnSort.keysAt, hi]
    have hordered := ColumnSort.sort_stablyOrdered hlt hor
      fun i j a b ha hb => by
        obtain ⟨hi, rfl⟩ := List.getElem?_eq_some_iff.1 ha
        obtain ⟨hj, rfl⟩ := List.getElem?_eq_some_iff.1 hb
        rw [List.length_range] at hi hj
        rw [List.getElem_range, List.getElem_range, hat i hi, hat j hj]
        refine ColumnSort.compareAll_decides fun key hkey => ?_
        obtain ⟨kind, -, hrows⟩ := hcells key hkey
        exact ⟨kind.keyKind, (hrows _ (hmem i hi)).isKey, (hrows _ (hmem j hj)).isKey⟩
    refine ⟨_, Table.sortIndices_eq_ok hrows hnames fun key hkey => ?_, hordered.perm,
      hordered.pairwise_range⟩
    obtain ⟨kind, hkind, -⟩ := hcells key hkey
    exact ⟨kind, hkind⟩

end RecordQuery
