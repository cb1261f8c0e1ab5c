import RecordQuery.Proofs.TableLaws
import RecordQuery.Query.Basic

/-!
# The order of sorted tables

A table is sorted as the table of its keys is, in which a key that is null everywhere has no column
and the others are named by their numbers. Where the values of each key are null or of one kind that
a column holds (`SortKey.HasCells`), the order of that table is the lexicographic order of the keys
that puts nulls at one end whatever the direction (`KeyTable.keysBefore_iff`), and the rows come
stably in it (`Query.sortTable_eq_ok`). Where only keys of the direction in which null comes at that
end have nulls (`SortKey.NullsFit`), it is the order `Precedes` that a sorted list has.
-/

namespace RecordQuery

/-- The direction in which null comes at the end of a placement if it sorts before everything
else. -/
def NullPlacement.direction : NullPlacement → Direction
  | .atStart => .ascending
  | .atEnd => .descending

/-- Nulls are in their place without further ado if they come there in the direction. -/
theorem NullPlacement.before_iff {placement : NullPlacement} {direction : Direction} {x y : Rank}
    (h : x = ⊥ ∨ y = ⊥ → direction = placement.direction) :
    placement.Before direction x y ↔ direction.Before x y := by
  by_cases hnull : x = ⊥ ∨ y = ⊥
  · obtain rfl := h hnull
    have hlt {x y : Rank} : y ≠ ⊥ ∧ (x = ⊥ ∨ x < y) ↔ x < y := by
      constructor
      · rintro ⟨hy, rfl | hxy⟩
        · exact bot_lt_iff_ne_bot.2 hy
        · exact hxy
      · exact fun hxy => ⟨ne_bot_of_gt hxy, .inr hxy⟩
    cases placement <;> exact hlt
  · obtain ⟨hx, hy⟩ := not_or.1 hnull
    cases placement <;> simp [Before, hx, hy]

namespace SortKey

variable {d : Directory} {placement : NullPlacement} {key : SortKey} {a b c : Value}
  {rows more : List Value}

/-- A key that is null for one of the rows has the direction in which null comes at the end of the
placement. -/
def NullsFit (d : Directory) (placement : NullPlacement) (key : SortKey) (rows : List Value) :
    Prop :=
  (∃ row ∈ rows, key.source.read d row = .ok .null) → key.direction = placement.direction

/-- Does the key put the first row before the second one if nulls have their place, whatever the
direction? -/
def PlacedBefore (d : Directory) (placement : NullPlacement) (key : SortKey) (a b : Value) : Prop :=
  placement.Before key.direction (key.rank d a) (key.rank d b)

theorem PlacedBefore.asymm (h : key.PlacedBefore d placement a b) :
    ¬ key.PlacedBefore d placement b a :=
  NullPlacement.Before.asymm h

/-- Only null ranks below everything else. -/
theorem Ordered.read_of_rank_eq_bot (h : key.Ordered d rows) (ha : a ∈ rows)
    (hrank : key.rank d a = ⊥) : key.source.read d a = .ok .null := by
  obtain ⟨kind, h⟩ := h
  obtain ⟨v, hread, hv⟩ := h a ha
  rw [rank, hread] at hrank
  cases hv with
  | null => exact hread
  | bool | int | str => exact absurd hrank (WithBot.coe_ne_bot)

/-- Two rows of which the key puts neither before the other one agree on it, wherever nulls are. -/
theorem rank_eq_iff_placed : key.rank d a = key.rank d b ↔
    ¬ key.PlacedBefore d placement a b ∧ ¬ key.PlacedBefore d placement b a := by
  constructor
  · intro h
    simp only [PlacedBefore, h]
    exact ⟨NullPlacement.not_before_self, NullPlacement.not_before_self⟩
  · rintro ⟨hab, hba⟩
    by_cases ha : key.rank d a = ⊥
    · by_cases hb : key.rank d b = ⊥
      · rw [ha, hb]
      · cases placement with
        | atStart => exact absurd ⟨hb, .inl ha⟩ hab
        | atEnd => exact absurd ⟨hb, .inl ha⟩ hba
    · by_cases hb : key.rank d b = ⊥
      · cases placement with
        | atStart => exact absurd ⟨ha, .inl hb⟩ hba
        | atEnd => exact absurd ⟨ha, .inl hb⟩ hab
      · rw [PlacedBefore, NullPlacement.before_iff fun hnull => absurd hnull (by simp [ha, hb])]
          at hab hba
        exact rank_eq_iff.2 ⟨hab, hba⟩

/-! ### Keys that columns hold -/

/-- The key of a row, or null if it cannot be read. -/
def value (d : Directory) (key : SortKey) (row : Value) : Value :=
  (key.source.read d row).toOption.getD .null

theorem rank_eq_rank_value (d : Directory) (key : SortKey) (row : Value) :
    key.rank d row = (key.value d row).rank := by
  rw [rank, value]
  cases key.source.read d row <;> rfl

/-- The key can be read from each row, and its values are null or of one kind that a column
holds. -/
def HasCells (d : Directory) (key : SortKey) (rows : List Value) : Prop :=
  ∃ kind, ∀ row ∈ rows, ∃ v, key.source.read d row = .ok v ∧ v.IsCell kind

namespace HasCells

theorem mono (h : key.HasCells d more) (hsub : rows ⊆ more) : key.HasCells d rows := by
  obtain ⟨kind, h⟩ := h
  exact ⟨kind, fun row hrow => h row (hsub hrow)⟩

theorem ordered (h : key.HasCells d rows) : key.Ordered d rows := by
  obtain ⟨kind, h⟩ := h
  refine ⟨kind.keyKind, fun row hrow => ?_⟩
  obtain ⟨v, hread, hv⟩ := h row hrow
  exact ⟨v, hread, hv.isKey⟩

theorem exists_kind (h : key.HasCells d rows) : ∃ kind, ∀ row ∈ rows,
    key.source.read d row = .ok (key.value d row) ∧ (key.value d row).IsCell kind := by
  obtain ⟨kind, h⟩ := h
  refine ⟨kind, fun row hrow => ?_⟩
  obtain ⟨v, hread, hv⟩ := h row hrow
  have hvalue : key.value d row = v := by rw [value, hread]; rfl
  rw [hvalue]
  exact ⟨hread, hv⟩

end HasCells
end SortKey

/-! ### The table of the keys -/

/-- The columns that keys make of the records, each beside its values, with the keys numbered from
`i`: a key that is null everywhere has none. -/
inductive KeyTable (E : Engine) (d : Directory) (records : List Value) :
    Nat → List SortKey → List (Query.KeyColumn E × List Value) → Prop
  | nil (i : Nat) : KeyTable E d records i [] []
  | skip {i : Nat} {key : SortKey} {keys : List SortKey}
    {columns : List (Query.KeyColumn E × List Value)}
    (hnull : ∀ row ∈ records, key.value d row = .null)
    (h : KeyTable E d records (i + 1) keys columns) : KeyTable E d records i (key :: keys) columns
  | make {i : Nat} {key : SortKey} {keys : List SortKey}
    {columns : List (Query.KeyColumn E × List Value)} {column : E.Column} {kind : CellKind}
    (hcolumn : E.column (records.map (key.value d)) = .ok column)
    (htype : E.columnType column = kind.type)
    (hcells : ∀ row ∈ records, (key.value d row).IsCell kind)
    (h : KeyTable E d records (i + 1) keys columns) :
    KeyTable E d records i (key :: keys)
      ((⟨"key_" ++ toString i, column, key.direction⟩, records.map (key.value d)) :: columns)

namespace KeyTable

variable {E : Engine} {d : Directory} {records : List Value} {i : Nat}
  {keys : List SortKey} {columns : List (Query.KeyColumn E × List Value)}

/-- The columns are named by the numbers of their keys. -/
theorem exists_name (h : KeyTable E d records i keys columns) :
    ∀ c ∈ columns, ∃ j ≥ i, c.1.name = "key_" ++ toString j := by
  induction h with
  | nil => exact List.forall_mem_nil _
  | skip hnull h ih =>
    intro c hc
    obtain ⟨j, hj, hname⟩ := ih c hc
    exact ⟨j, by omega, hname⟩
  | @make i key keys columns column kind hcolumn htype hcells h ih =>
    rw [List.forall_mem_cons]
    refine ⟨⟨i, Nat.le_refl i, rfl⟩, fun c hc => ?_⟩
    obtain ⟨j, hj, hname⟩ := ih c hc
    exact ⟨j, by omega, hname⟩

theorem nodup_names (h : KeyTable E d records i keys columns) :
    (columns.map (·.1.name)).Nodup := by
  induction h with
  | nil => exact List.nodup_nil
  | skip hnull h ih => exact ih
  | @make i key keys columns column kind hcolumn htype hcells h ih =>
    rw [List.map_cons, List.nodup_cons]
    refine ⟨fun hmem => ?_, ih⟩
    obtain ⟨c, hc, hname⟩ := List.mem_map.1 hmem
    obtain ⟨j, hj, hname'⟩ := h.exists_name c hc
    have hsame : toString j = toString i :=
      (String.append_right_inj "key_").1 (hname'.symm.trans hname)
    have : j = i := Nat.repr_inj.1 hsame
    omega

/-- Each column is made of its values, one for each record. -/
theorem made (h : KeyTable E d records i keys columns) : ∀ c ∈ columns,
    E.column c.2 = .ok c.1.column ∧ c.2.length = records.length ∧
      ∃ kind, E.columnType c.1.column = CellKind.type kind ∧ ∀ v ∈ c.2, v.IsCell kind := by
  induction h with
  | nil => exact List.forall_mem_nil _
  | skip hnull h ih => exact ih
  | @make i key keys columns column kind hcolumn htype hcells h ih =>
    rw [List.forall_mem_cons]
    exact ⟨⟨hcolumn, List.length_map _, kind, htype, List.forall_mem_map.2 hcells⟩, ih⟩

/-- Rows of the table of the keys are in the order of the records that they were made of. -/
theorem keysBefore_iff (h : KeyTable E d records i keys columns) (placement : NullPlacement)
    (rows : List Value) (hrows : ∀ c ∈ columns, rows.map (Row.cell c.1.name) = c.2) {m n : Nat}
    (hm : m < records.length) (hn : n < records.length) :
    Row.KeysBefore placement (columns.map fun c => (c.1.name, c.1.direction)) (rows.getD m .null)
        (rows.getD n .null) ↔
      Lexicographic (SortKey.PlacedBefore d placement) keys (records.getD m .null)
        (records.getD n .null) := by
  induction h with
  | nil => exact iff_of_false Lexicographic.not_nil Lexicographic.not_nil
  | @skip i key keys columns hnull h ih =>
    have htie {j k : Nat} (hj : j < records.length) (hk : k < records.length) :
        ¬ key.PlacedBefore d placement (records.getD j .null) (records.getD k .null) := by
      rw [List.getD_eq_getElem _ _ hj, List.getD_eq_getElem _ _ hk, SortKey.PlacedBefore,
        SortKey.rank_eq_rank_value, SortKey.rank_eq_rank_value, hnull _ (List.getElem_mem hj),
        hnull _ (List.getElem_mem hk)]
      exact NullPlacement.not_before_self
    rw [ih hrows, Lexicographic.cons_iff, ThenBy]
    simp only [htie hm hn, htie hn hm, not_false_eq_true, true_and, false_or]
  | @make i key keys columns column kind hcolumn htype hcells h ih =>
    rw [List.forall_mem_cons] at hrows
    have hcell {j : Nat} (hj : j < records.length) :
        (Row.cell ("key_" ++ toString i) (rows.getD j .null)).rank =
          key.rank d (records.getD j .null) := by
      have hlength : rows.length = records.length := by
        simpa using congrArg List.length hrows.1
      have hat := congrArg (·[j]?) hrows.1
      simp only [List.getElem?_map, List.getElem?_eq_getElem hj,
        List.getElem?_eq_getElem (hlength ▸ hj), Option.map_some, Option.some.injEq] at hat
      rw [List.getD_eq_getElem _ _ hj, List.getD_eq_getElem _ _ (hlength ▸ hj), hat,
        SortKey.rank_eq_rank_value]
    rw [List.map_cons, Row.KeysBefore, Lexicographic.cons_iff, Lexicographic.cons_iff, ThenBy,
      ThenBy]
    have hrest := ih hrows.2
    rw [Row.KeysBefore] at hrest
    simp only [hcell hm, hcell hn, hrest, SortKey.PlacedBefore]

/-- Keys that are null everywhere put no record before another one. -/
theorem tied_of_nil (h : KeyTable E d records i keys []) (placement : NullPlacement) :
    ∀ a ∈ records, ∀ b ∈ records,
      ¬ Lexicographic (SortKey.PlacedBefore d placement) keys a b := by
  intro a ha b hb
  obtain ⟨m, hm, rfl⟩ := List.getElem_of_mem ha
  obtain ⟨n, hn, rfl⟩ := List.getElem_of_mem hb
  have hiff := h.keysBefore_iff placement [] (List.forall_mem_nil _) hm hn
  rw [List.getD_eq_getElem _ _ hm, List.getD_eq_getElem _ _ hn] at hiff
  exact hiff.not.1 Lexicographic.not_nil

end KeyTable

namespace Query

variable {E : Engine} {d : Directory} {keys : List SortKey} {placement : NullPlacement}
  {t t' : E.Table} {records : List Value}

theorem keyColumn_of_null {key : SortKey} {i : Nat} {values : List Value} {column : E.Column}
    (h : E.column values = .ok column) (htype : E.columnType column = .null) :
    keyColumn key i values = .ok (none : Option E.Column) := by
  simp only [keyColumn, h, htype, if_true]

theorem keyColumn_of_kind {key : SortKey} {i : Nat} {values : List Value} {column : E.Column}
    (h : E.column values = .ok column) {kind : CellKind} (htype : E.columnType column = kind.type) :
    keyColumn key i values = .ok (some column) := by
  simp only [keyColumn, h, htype]
  cases kind <;> rfl

/-- Keys whose values columns hold make the table of the keys. -/
theorem keyColumns_eq_ok (hS : E.SortsStably) (hcells : ∀ key ∈ keys, key.HasCells d records)
    (i : Nat) : ∃ columns, keyColumns d records i keys = .ok (columns.map (·.1)) ∧
      KeyTable E d records i keys columns := by
  induction keys generalizing i with
  | nil => exact ⟨[], rfl, .nil i⟩
  | cons key keys ih =>
    rw [List.forall_mem_cons] at hcells
    obtain ⟨kind, hkind⟩ := hcells.1.exists_kind
    have hvalues := Except.mapM_of_ok fun row hrow => (hkind row hrow).1
    have hcell := fun row hrow => (hkind row hrow).2
    obtain ⟨column, hcolumn, htype⟩ := hS.column (List.forall_mem_map.2 hcell)
    obtain ⟨columns, hcolumns, htable⟩ := ih hcells.2 (i + 1)
    rw [keyColumns, hvalues, Except.ok_bind]
    rcases htype with ⟨hnull, hall⟩ | htype
    · rw [keyColumn_of_null hcolumn hnull, Except.ok_bind, hcolumns]
      exact ⟨columns, rfl, .skip (List.forall_mem_map.1 hall) htable⟩
    · rw [keyColumn_of_kind hcolumn htype, Except.ok_bind, hcolumns]
      exact ⟨_, rfl, .make hcolumn htype hcell htable⟩

/-- The positions of the records in the order of the table of their keys. -/
theorem exists_sortIndices (hS : E.SortsStably) (placement : NullPlacement)
    {columns : List (KeyColumn E × List Value)} (h : KeyTable E d records 0 keys columns)
    (hne : columns ≠ []) : ∃ (keyTable : E.Table) (placed : List (Value × Nat)),
      E.ofColumns (columns.map fun c => (c.1.name, c.1.column)) = .ok keyTable ∧
      E.sortIndices placement (columns.map fun c => (c.1.name, c.1.direction)) keyTable =
        .ok (placed.map Prod.snd) ∧
      placed.Perm records.zipIdx ∧
      placed.Pairwise (ComesFirst (Lexicographic (SortKey.PlacedBefore d placement) keys)) := by
  have hnames := h.nodup_names
  have hmade := h.made
  obtain ⟨keyTable, rows, htable, hcolumns, hrows, hlength, hcells⟩ :=
    @Engine.SortsStably.ofColumns E hS (columns.map fun c => (c.1.name, c.1.column, c.2))
      records.length (by simpa using hne) (by simpa [Function.comp_def] using hnames)
      (List.forall_mem_map.2 hmade)
  rw [List.map_map] at htable hcolumns
  rw [List.forall_mem_map] at hcells
  have hkinds : ∀ c ∈ columns, ∃ kind : CellKind,
      (c.1.name, kind.type) ∈ E.columns keyTable ∧
        ∀ row ∈ rows, (Row.cell c.1.name row).IsCell kind := by
    intro c hc
    obtain ⟨-, -, kind, htype, hvalues⟩ := hmade c hc
    refine ⟨kind, ?_, fun row hrow => ?_⟩
    · rw [hcolumns, ← htype]
      exact List.mem_map_of_mem hc
    · exact hvalues _ (hcells c hc ▸ List.mem_map_of_mem hrow)
  obtain ⟨positions, hpositions, hperm, hbefore⟩ :=
    @Engine.SortsStably.sortIndices E hS placement
      (columns.map fun c => (c.1.name, c.1.direction)) keyTable rows hrows (by simpa using hne)
      (by rw [hcolumns, List.map_map]; exact hnames) (List.forall_mem_map.2 hkinds)
  rw [hlength] at hperm
  have hplaced : positions.Pairwise fun i j =>
      ComesFirst (Lexicographic (SortKey.PlacedBefore d placement) keys)
        (records.getD i .null, i) (records.getD j .null, j) := by
    refine hbefore.imp_of_mem fun {i j} hi hj hij => ?_
    have hi := List.mem_range.1 (hperm.subset hi)
    have hj := List.mem_range.1 (hperm.subset hj)
    rwa [h.keysBefore_iff placement rows hcells hi hj,
      h.keysBefore_iff placement rows hcells hj hi] at hij
  obtain ⟨placed, hitems, hordered, rfl, -⟩ := exists_placed .null hperm hplaced
  exact ⟨keyTable, placed, htable, hpositions, hitems, hordered⟩

/-- A table whose rows the keys do not tell apart is sorted as it is. -/
theorem exists_placed_of_tied (hrecords : E.records t = .ok records)
    (htied : ∀ a ∈ records, ∀ b ∈ records,
      ¬ Lexicographic (SortKey.PlacedBefore d placement) keys a b) :
    ∃ placed : List (Value × Nat), placed.Perm records.zipIdx ∧
      placed.Pairwise (ComesFirst (Lexicographic (SortKey.PlacedBefore d placement) keys)) ∧
      (t = t ∧ placed = records.zipIdx ∨ E.take (placed.map Prod.snd) t = .ok t) ∧
      E.columns t = E.columns t ∧ E.records t = .ok (placed.map Prod.fst) := by
  refine ⟨records.zipIdx, .rfl, pairwise_comesFirst_zipIdx ?_, .inl ⟨rfl, rfl⟩, rfl, ?_⟩
  · exact List.pairwise_of_forall_mem_list fun a ha b hb => htied b hb a ha
  · rw [hrecords, List.zipIdx_map_fst]

/-- **Sorting a table** whose keys have values that columns hold: its rows are taken in the order of
their keys, and as they stand where the keys agree. The table is left as it is if there is nothing
to sort. -/
theorem sortTable_eq_ok (placement : NullPlacement) (hE : E.SelectsRows) (hS : E.SortsStably)
    (hrecords : E.records t = .ok records) (hcells : ∀ key ∈ keys, key.HasCells d records) :
    ∃ (t' : E.Table) (placed : List (Value × Nat)),
      sortTable d keys placement t = .ok t' ∧ placed.Perm records.zipIdx ∧
      placed.Pairwise (ComesFirst (Lexicographic (SortKey.PlacedBefore d placement) keys)) ∧
      (t' = t ∧ placed = records.zipIdx ∨ E.take (placed.map Prod.snd) t = .ok t') ∧
      E.columns t' = E.columns t ∧ E.records t' = .ok (placed.map Prod.fst) := by
  unfold sortTable
  split
  · rename_i hempty
    have htied : ∀ a ∈ records, ∀ b ∈ records,
        ¬ Lexicographic (SortKey.PlacedBefore d placement) keys a b := by
      intro a ha b hb
      rcases Bool.or_eq_true_iff.1 hempty with hsize | hkeys
      · rw [List.eq_nil_of_length_eq_zero ((hE.size hrecords).trans (beq_iff_eq.1 hsize))] at ha
        cases ha
      · rw [List.isEmpty_iff.1 hkeys]
        exact Lexicographic.not_nil
    obtain ⟨placed, hplaced⟩ := exists_placed_of_tied hrecords htied
    exact ⟨t, placed, rfl, hplaced⟩
  · obtain ⟨columns, hcolumns, htable⟩ := keyColumns_eq_ok hS hcells 0
    rw [hrecords, Except.ok_bind, hcolumns, Except.ok_bind]
    by_cases hne : columns = []
    · subst hne
      obtain ⟨placed, hplaced⟩ := exists_placed_of_tied hrecords (htable.tied_of_nil placement)
      exact ⟨t, placed, rfl, hplaced⟩
    · obtain ⟨keyTable, placed, hmade, hpositions, hperm, hordered⟩ :=
        exists_sortIndices hS placement htable hne
      have hmem := fun a (ha : a ∈ placed) => getD_of_mem_zipIdx Value.null (hperm.subset ha)
      obtain ⟨t', ht', hread⟩ := hE.take hrecords (List.forall_mem_map.2 fun a ha => (hmem a ha).1)
      rw [List.map_map] at hread
      refine ⟨t', placed, ?_, hperm, hordered, .inr ht', hE.columns_take ht', ?_⟩
      · rw [if_neg (by simpa using hne)]
        simp only [List.map_map, Function.comp_def, hmade, Except.ok_bind, hpositions, namingKeys,
          ht']
      · rw [hread]
        exact congrArg _ (List.map_congr_left fun a ha => (hmem a ha).2)

/-- Where nulls are in their place without further ado, rows are placed like the rows of lists. -/
theorem placed_iff_precedes {a b : Value} (ha : a ∈ records) (hb : b ∈ records)
    (hordered : ∀ key ∈ keys, key.Ordered d records)
    (hnulls : ∀ key ∈ keys, key.NullsFit d placement records) :
    Lexicographic (SortKey.PlacedBefore d placement) keys a b ↔ Precedes d keys a b := by
  have hfits : ∀ x ∈ records, ∀ key ∈ keys, key.rank d x = ⊥ →
      key.direction = placement.direction := fun x hx key hkey hrank =>
    hnulls key hkey ⟨x, hx, (hordered key hkey).read_of_rank_eq_bot hx hrank⟩
  rw [precedes_iff]
  refine Lexicographic.congr (fun key hkey => ?_) fun key hkey => ?_
  · exact NullPlacement.before_iff fun hnull =>
      hnull.elim (hfits a ha key hkey) (hfits b hb key hkey)
  · exact NullPlacement.before_iff fun hnull =>
      hnull.elim (hfits b hb key hkey) (hfits a ha key hkey)

end Query
end RecordQuery
