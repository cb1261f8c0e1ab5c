import RecordQuery.Proofs.MemorySorting
import RecordQuery.Proofs.OrderedQueries
import RecordQuery.Proofs.TableOrder

/-!
# Sorting again

Sorting by some keys and then by others is sorting by the others and, among their ties, by the keys
before (`Query.rows_sorted_append`): both ways put the rows stably in the lexicographic order of all
keys, and there is only one list of them in that order. A query that is sorted by ordering text and
then by another text therefore has the rows of the one that is sorted by both, the later text first
(`Query.orderBy_orderBy`).
-/

namespace RecordQuery

variable {d d' : Directory}

theorem Directory.exists_accessor_of_keysOf {s : Schema} {text : String} {keys : List SortKey}
    (h : d.keysOf s text = .ok keys) : ∀ key ∈ keys, ∃ a, key.source = .accessor a := by
  intro key hkey
  obtain ⟨specs, -, hkeys⟩ := Except.bind_eq_ok.1 h
  obtain ⟨spec, -, hspec⟩ := Except.exists_of_mem_mapM hkeys hkey
  obtain ⟨a, -, hspec⟩ := Except.bind_eq_ok.1 hspec
  cases hspec
  exact ⟨a, rfl⟩

namespace Value

variable {v : Value}

theorem IsKey.isCell_text (h : v.IsKey .text) : v.IsCell .text := by
  cases h with
  | null => exact .null _
  | str s => exact .str s

theorem IsKey.isCell_number (h : v.IsKey .number)
    (hword : ∀ i : Int, v = .int i → -2 ^ 63 ≤ i ∧ i < 2 ^ 63) :
    v.IsCell .bool ∨ v.IsCell .integer := by
  cases h with
  | null => exact .inl (.null _)
  | bool b => exact .inl (.bool b)
  | int i => exact .inr (.int (hword i rfl))

end Value

namespace SortKey

variable {key : SortKey} {rows more : List Value}

/-- The integers among the values of the key have 64 bits. -/
def FitsWords (d : Directory) (key : SortKey) (rows : List Value) : Prop :=
  ∀ row ∈ rows, ∀ i : Int, key.source.read d row = .ok (.int i) → -2 ^ 63 ≤ i ∧ i < 2 ^ 63

theorem Ordered.congr (h : key.Ordered d rows)
    (hread : key.source.read d = key.source.read d') : key.Ordered d' rows := by
  obtain ⟨kind, h⟩ := h
  exact ⟨kind, by rwa [← hread]⟩

theorem HasCells.congr (h : key.HasCells d rows)
    (hread : key.source.read d = key.source.read d') : key.HasCells d' rows := by
  obtain ⟨kind, h⟩ := h
  exact ⟨kind, by rwa [← hread]⟩

theorem FitsWords.congr (h : key.FitsWords d rows)
    (hread : key.source.read d = key.source.read d') : key.FitsWords d' rows := by
  rwa [FitsWords, ← hread]

theorem HasCells.fitsWords (h : key.HasCells d rows) : key.FitsWords d rows := by
  obtain ⟨kind, h⟩ := h
  intro row hrow i hi
  obtain ⟨v, hread, hv⟩ := h row hrow
  cases hi.symm.trans hread
  cases hv with
  | int hi => exact hi

/-- Values that make a column are of one kind of cells if they are of one kind of keys. -/
theorem Ordered.hasCells {E : Engine} (hS : E.SortsStably) (h : key.Ordered d rows)
    (hwords : key.FitsWords d rows) {values : List Value} {column : E.Column}
    (hvalues : rows.mapM (key.source.read d) = .ok values)
    (hcolumn : E.column values = .ok column) :
    key.HasCells d rows := by
  obtain ⟨kind, h⟩ := h
  have hread : ∀ row ∈ rows, key.source.read d row = .ok (key.value d row) := by
    intro row hrow
    obtain ⟨v, hread, -⟩ := h row hrow
    rw [value, hread]
    rfl
  have hkind : ∀ row ∈ rows, (key.value d row).IsKey kind := by
    intro row hrow
    obtain ⟨v, hv, hkey⟩ := h row hrow
    cases hv.symm.trans (hread row hrow)
    exact hkey
  cases hvalues.symm.trans (Except.mapM_of_ok hread)
  cases kind with
  | text =>
    exact ⟨.text, fun row hrow => ⟨_, hread row hrow, (hkind row hrow).isCell_text⟩⟩
  | number =>
    have hcells : ∀ v ∈ rows.map (key.value d), v.IsCell .bool ∨ v.IsCell .integer :=
      List.forall_mem_map.2 fun row hrow => (hkind row hrow).isCell_number fun i hi =>
        hwords row hrow i ((hread row hrow).trans (congrArg _ hi))
    rcases hS.column_mixed hcolumn hcells with hall | hall
    · exact ⟨.bool, fun row hrow =>
        ⟨_, hread row hrow, hall _ (List.mem_map_of_mem hrow)⟩⟩
    · exact ⟨.integer, fun row hrow =>
        ⟨_, hread row hrow, hall _ (List.mem_map_of_mem hrow)⟩⟩

end SortKey

/-! ### Rows of either kind -/

variable {E : Engine}

/-- The end that nulls go to, which only tables have. -/
def RowSource.placement? : RowSource E → Option NullPlacement
  | .list _ => none
  | .table _ placement => some placement

namespace Query

variable {keys more : List SortKey} {placement : NullPlacement} {placement? : Option NullPlacement}
  {t t' : E.Table} {source source' : RowSource E} {records rows rows' out : List Value}

/-- Do the keys put the first row before the second one? Only tables give nulls a place of their
own. -/
def Before (d : Directory) (keys : List SortKey) : Option NullPlacement → Value → Value → Prop
  | none => Precedes d keys
  | some placement => Lexicographic (SortKey.PlacedBefore d placement) keys

/-- The values of each key are null or of one kind, which a column holds if the rows are those of a
table. -/
def Sortable (d : Directory) (keys : List SortKey) (rows : List Value) :
    Option NullPlacement → Prop
  | none => ∀ key ∈ keys, key.Ordered d rows
  | some _ => ∀ key ∈ keys, key.HasCells d rows

/-- The values of each key are null or of one kind, and integers have 64 bits if the rows are those
of a table. -/
def Comparable (d : Directory) (keys : List SortKey) (rows : List Value) :
    Option NullPlacement → Prop
  | none => ∀ key ∈ keys, key.Ordered d rows
  | some _ => ∀ key ∈ keys, key.Ordered d rows ∧ key.FitsWords d rows

theorem Before.asymm {a b : Value} (h : Before d keys placement? a b) :
    ¬ Before d keys placement? b a := by
  cases placement? with
  | none => exact Precedes.asymm h
  | some placement => exact Lexicographic.asymm (fun _ _ _ => SortKey.PlacedBefore.asymm) h

theorem before_append_iff {a b : Value} : Before d (keys ++ more) placement? a b ↔
    ThenBy (Before d keys placement?) (Before d more placement?) a b := by
  cases placement? with
  | none =>
    simp only [Before, ThenBy, precedes_iff]
    exact Lexicographic.append_iff
  | some placement => exact Lexicographic.append_iff

theorem before_append_self_iff {a b : Value} :
    Before d (keys ++ keys) placement? a b ↔ Before d keys placement? a b := by
  rw [before_append_iff, ThenBy]
  tauto

theorem sortable_append : Sortable d (keys ++ more) rows placement? ↔
    Sortable d keys rows placement? ∧ Sortable d more rows placement? := by
  cases placement? <;> exact List.forall_mem_append

theorem Sortable.mono (h : Sortable d keys rows placement?) (hsub : rows' ⊆ rows) :
    Sortable d keys rows' placement? := by
  cases placement? with
  | none => exact fun key hkey => (h key hkey).mono hsub
  | some placement => exact fun key hkey => (h key hkey).mono hsub

theorem Comparable.mono (h : Comparable d keys rows placement?) (hsub : rows' ⊆ rows) :
    Comparable d keys rows' placement? := by
  cases placement? with
  | none => exact fun key hkey => (h key hkey).mono hsub
  | some placement =>
    exact fun key hkey =>
      ⟨(h key hkey).1.mono hsub, fun row hrow => (h key hkey).2 row (hsub hrow)⟩

theorem Comparable.subset (h : Comparable d keys rows placement?) (hsub : more ⊆ keys) :
    Comparable d more rows placement? := by
  cases placement? <;> exact fun key hkey => h key (hsub hkey)

/-- Chains are read alike whatever was described before. -/
theorem Sortable.of_catalog (hcatalog : d.catalog = d'.catalog)
    (haccessors : ∀ key ∈ keys, ∃ a, key.source = .accessor a)
    (h : Sortable d keys rows placement?) : Sortable d' keys rows placement? := by
  have hread : ∀ key ∈ keys, key.source.read d = key.source.read d' := by
    intro key hkey
    obtain ⟨a, ha⟩ := haccessors key hkey
    funext row
    rw [ha, KeySource.read, KeySource.read, hcatalog]
  cases placement? with
  | none => exact fun key hkey => (h key hkey).congr (hread key hkey)
  | some placement => exact fun key hkey => (h key hkey).congr (hread key hkey)

theorem Comparable.of_catalog (hcatalog : d.catalog = d'.catalog)
    (haccessors : ∀ key ∈ keys, ∃ a, key.source = .accessor a)
    (h : Comparable d keys rows placement?) : Comparable d' keys rows placement? := by
  have hread : ∀ key ∈ keys, key.source.read d = key.source.read d' := by
    intro key hkey
    obtain ⟨a, ha⟩ := haccessors key hkey
    funext row
    rw [ha, KeySource.read, KeySource.read, hcatalog]
  cases placement? with
  | none => exact fun key hkey => (h key hkey).congr (hread key hkey)
  | some placement =>
    exact fun key hkey =>
      ⟨(h key hkey).1.congr (hread key hkey), (h key hkey).2.congr (hread key hkey)⟩

/-! ### Sorting tables -/

theorem column_of_keyColumn {key : SortKey} {i : Nat} {values : List Value}
    {made : Option E.Column} (h : keyColumn key i values = .ok made) :
    ∃ column, E.column values = .ok column := by
  unfold keyColumn at h
  split at h
  · exact ⟨_, ‹_›⟩
  all_goals cases h

/-- The values of keys that have columns are read and make columns. -/
theorem column_of_keyColumns {i : Nat} {columns : List (KeyColumn E)}
    (h : keyColumns d records i keys = .ok columns) : ∀ key ∈ keys, ∃ values column,
      records.mapM (key.source.read d) = .ok values ∧ E.column values = .ok column := by
  induction keys generalizing i columns with
  | nil => exact List.forall_mem_nil _
  | cons key keys ih =>
    obtain ⟨values, hvalues, h⟩ := Except.bind_eq_ok.1 h
    obtain ⟨made, hmade, h⟩ := Except.bind_eq_ok.1 h
    obtain ⟨rest, hrest, -⟩ := Except.bind_eq_ok.1 h
    obtain ⟨column, hcolumn⟩ := column_of_keyColumn hmade
    exact List.forall_mem_cons.2 ⟨⟨values, column, hvalues, hcolumn⟩, ih hrest⟩

/-- A table that is sorted by keys of one kind has values that columns hold. -/
theorem hasCells_of_sortTable (hE : E.SelectsRows) (hS : E.SortsStably)
    (hrecords : E.records t = .ok records)
    (hkeys : ∀ key ∈ keys, key.Ordered d records ∧ key.FitsWords d records)
    (h : sortTable d keys placement t = .ok t') : ∀ key ∈ keys, key.HasCells d records := by
  unfold sortTable at h
  split at h
  · rename_i hempty
    intro key hkey
    rcases Bool.or_eq_true_iff.1 hempty with hsize | hnil
    · rw [List.eq_nil_of_length_eq_zero ((hE.size hrecords).trans (beq_iff_eq.1 hsize))]
      exact ⟨.bool, List.forall_mem_nil _⟩
    · rw [List.isEmpty_iff.1 hnil] at hkey
      cases hkey
  · rw [hrecords, Except.ok_bind] at h
    obtain ⟨columns, hcolumns, -⟩ := Except.bind_eq_ok.1 h
    intro key hkey
    obtain ⟨values, column, hvalues, hcolumn⟩ := column_of_keyColumns hcolumns key hkey
    exact (hkeys key hkey).1.hasCells hS (hkeys key hkey).2 hvalues hcolumn

/-- A table whose rows cannot be read is left as it is, if it can be sorted at all. -/
theorem sortTable_of_records_error {e : Error} (hrecords : E.records t = .error e)
    (h : sortTable d keys placement t = .ok t') : t' = t := by
  unfold sortTable at h
  split at h
  · cases h
    rfl
  · rw [hrecords] at h
    cases h

/-! ### Sorting rows -/

theorem placement?_of_sorted {q : Query E} (h : q.sorted d = .ok source) :
    source.placement? = q.source.placement? := by
  unfold sorted at h
  split at h
  · rename_i rows hsource
    obtain ⟨out, -, h⟩ := Except.bind_eq_ok.1 h
    cases h
    rw [hsource]
    rfl
  · rename_i t placement hsource
    obtain ⟨t', -, h⟩ := Except.bind_eq_ok.1 h
    cases h
    rw [hsource]
    rfl

/-- Rows that cannot be read cannot be read when they are sorted either. -/
theorem rows_of_sorted_error {schema : Schema} {e : Error} (hrows : source.rows = .error e)
    (h : sorted d { source, schema, keys := some keys } = .ok source') :
    source'.rows = .error e := by
  cases source with
  | list rows => cases hrows
  | table t placement =>
    obtain ⟨t', ht', h⟩ := Except.bind_eq_ok.1 h
    cases h
    rw [sortTable_of_records_error hrows ht']
    exact hrows

/-- Rows that can be read can be sorted, and come stably in the order of the keys then. -/
theorem exists_rows_sorted (hE : E.SelectsRows) (hS : E.SortsStably) (schema : Schema)
    (hrows : source.rows = .ok rows) (h : Sortable d keys rows source.placement?) :
    ∃ (source' : RowSource E) (out : List Value),
      sorted d { source, schema, keys := some keys } = .ok source' ∧
      source'.rows = .ok out ∧ StablyOrdered (Before d keys source.placement?) rows out := by
  cases source with
  | list rows' =>
    cases hrows
    obtain ⟨out, hout, hordered⟩ := sortList_eq_ok h
    refine ⟨.list out, out, ?_, rfl, hordered⟩
    simp only [sorted, Option.getD_some, hout, Except.ok_bind, Except.pure_eq_ok]
  | table t placement =>
    obtain ⟨t', placed, hsorted, hperm, hplaced, -, -, hread⟩ :=
      sortTable_eq_ok placement hE hS hrows h
    refine ⟨.table t' placement, placed.map Prod.fst, ?_, hread, placed, hperm, rfl, hplaced⟩
    simp only [sorted, Option.getD_some, hsorted, Except.ok_bind, Except.pure_eq_ok]

/-- Keys of one kind that rows are sorted by have values that can be sorted by. -/
theorem sortable_of_sorted (hE : E.SelectsRows) (hS : E.SortsStably) {schema : Schema}
    (hrows : source.rows = .ok rows) (hkeys : Comparable d keys rows source.placement?)
    (h : sorted d { source, schema, keys := some keys } = .ok source') :
    Sortable d keys rows source.placement? := by
  cases source with
  | list rows => exact hkeys
  | table t placement =>
    obtain ⟨t', ht', -⟩ := Except.bind_eq_ok.1 h
    exact hasCells_of_sortTable hE hS hrows hkeys ht'

/-- Rows that are sorted by more keys and then by the others can be sorted by all of them. -/
theorem sortable_of_sorted_again (hE : E.SelectsRows) (hS : E.SortsStably) {schema : Schema}
    {mid last : RowSource E} (hrows : source.rows = .ok rows)
    (hkeys : Comparable d (keys ++ more) rows source.placement?)
    (hmid : sorted d { source, schema, keys := some more } = .ok mid)
    (hlast : sorted d { source := mid, schema, keys := some keys } = .ok last) :
    Sortable d (keys ++ more) rows source.placement? := by
  have hmore := sortable_of_sorted hE hS hrows
    (hkeys.subset (List.subset_append_right keys more)) hmid
  obtain ⟨mid', rows', hmid', hread, hordered⟩ := exists_rows_sorted hE hS schema hrows hmore
  cases hmid.symm.trans hmid'
  have hplacement := placement?_of_sorted hmid
  have hrest := (hkeys.subset (List.subset_append_left keys more)).mono hordered.perm.subset
  rw [← hplacement] at hrest
  have hfront := sortable_of_sorted hE hS hread hrest hlast
  rw [hplacement] at hfront
  exact sortable_append.2 ⟨hfront.mono hordered.perm.symm.subset, hmore⟩

/-- The rows that are sorted by more keys and then by the others, where they can be sorted. -/
theorem rows_sorted_again (hE : E.SelectsRows) (hS : E.SortsStably) (schema : Schema)
    (hrows : source.rows = .ok rows) (h : Sortable d (keys ++ more) rows source.placement?) :
    ∃ mid out, sorted d { source, schema, keys := some more } = .ok mid ∧
      Query.rows d { source := mid, schema, keys := some keys } = .ok out ∧
      Query.rows d { source, schema, keys := some (keys ++ more) } = .ok out ∧ out.Perm rows := by
  obtain ⟨hkeys, hmore⟩ := sortable_append.1 h
  obtain ⟨mid, rows', hmid, hread, hordered⟩ := exists_rows_sorted hE hS schema hrows hmore
  have hplacement := placement?_of_sorted hmid
  have hkeys' : Sortable d keys rows' mid.placement? := by
    rw [hplacement]
    exact hkeys.mono hordered.perm.subset
  obtain ⟨last, out, hlast, hout, hordered'⟩ := exists_rows_sorted hE hS schema hread hkeys'
  obtain ⟨whole, out', hwhole, hout', hboth⟩ := exists_rows_sorted hE hS schema hrows h
  -- both outcomes have the rows stably in the order of all keys, and there is only one such list
  have hsame : out' = out := by
    rw [hplacement] at hordered'
    exact hboth.unique (fun _ _ => Before.asymm)
      ((hordered.then hordered').congr fun _ _ _ _ => before_append_iff.symm)
  refine ⟨mid, out, hmid, ?_, ?_, hsame ▸ hboth.perm⟩
  · rw [Query.rows, hlast, Except.ok_bind, hout]
  · rw [Query.rows, hwhole, Except.ok_bind, hout', hsame]

/-- Sorting by keys and then by others gives rows exactly if sorting by the others and, where they
agree, by the keys before does, and these are the same rows. -/
theorem rows_sorted_append (hE : E.SelectsRows) (hS : E.SortsStably) (schema : Schema)
    (hkeys : ∀ rows, source.rows = .ok rows →
      Comparable d (keys ++ more) rows source.placement?) (out : List Value) :
    (sorted d { source, schema, keys := some more } >>= fun mid =>
      Query.rows d { source := mid, schema, keys := some keys }) = .ok out ↔
    Query.rows d { source, schema, keys := some (keys ++ more) } = .ok out := by
  simp only [Except.bind_eq_ok]
  cases hrows : source.rows with
  | error e =>
    -- neither gives rows
    refine iff_of_false ?_ fun h => ?_
    · rintro ⟨mid, hmid, h⟩
      obtain ⟨last, hlast, h⟩ := Except.bind_eq_ok.1 h
      cases (rows_of_sorted_error (rows_of_sorted_error hrows hmid) hlast).symm.trans h
    · obtain ⟨whole, hwhole, h⟩ := Except.bind_eq_ok.1 h
      cases (rows_of_sorted_error hrows hwhole).symm.trans h
  | ok rows =>
    have hkeys := hkeys rows hrows
    by_cases hsortable : Sortable d (keys ++ more) rows source.placement?
    · obtain ⟨mid, out', hmid, hagain, hwhole, -⟩ :=
        rows_sorted_again hE hS schema hrows hsortable
      rw [hwhole]
      constructor
      · rintro ⟨mid', hmid', h⟩
        cases hmid.symm.trans hmid'
        exact hagain.symm.trans h
      · exact fun h => ⟨mid, hmid, hagain.trans h⟩
    · -- the values of some key make no column
      refine iff_of_false ?_ fun h => ?_
      · rintro ⟨mid, hmid, h⟩
        obtain ⟨last, hlast, -⟩ := Except.bind_eq_ok.1 h
        exact hsortable (sortable_of_sorted_again hE hS hrows hkeys hmid hlast)
      · obtain ⟨whole, hwhole, -⟩ := Except.bind_eq_ok.1 h
        exact hsortable (sortable_of_sorted hE hS hrows hkeys hwhole)

/-- Keys that are repeated decide nothing. -/
theorem rows_sorted_append_self (hE : E.SelectsRows) (hS : E.SortsStably) (schema : Schema)
    (hkeys : ∀ rows, source.rows = .ok rows → Comparable d keys rows source.placement?)
    (out : List Value) :
    Query.rows d { source, schema, keys := some (keys ++ keys) } = .ok out ↔
      Query.rows d { source, schema, keys := some keys } = .ok out := by
  cases hrows : source.rows with
  | error e =>
    refine iff_of_false (fun h => ?_) fun h => ?_
    all_goals
      obtain ⟨whole, hwhole, h⟩ := Except.bind_eq_ok.1 h
      cases (rows_of_sorted_error hrows hwhole).symm.trans h
  | ok rows =>
    have hkeys := hkeys rows hrows
    by_cases hsortable : Sortable d keys rows source.placement?
    · obtain ⟨once, out₁, honce, hout₁, hordered₁⟩ :=
        exists_rows_sorted hE hS schema hrows hsortable
      obtain ⟨twice, out₂, htwice, hout₂, hordered₂⟩ := exists_rows_sorted hE hS schema hrows
        (sortable_append.2 ⟨hsortable, hsortable⟩)
      have hsame : out₂ = out₁ := hordered₂.unique (fun _ _ => Before.asymm)
        (hordered₁.congr fun _ _ _ _ => before_append_self_iff.symm)
      rw [Query.rows, htwice, Except.ok_bind, hout₂, Query.rows, honce, Except.ok_bind, hout₁,
        hsame]
    · refine iff_of_false (fun h => ?_) fun h => ?_
      · obtain ⟨whole, hwhole, -⟩ := Except.bind_eq_ok.1 h
        have htwice : Comparable d (keys ++ keys) rows source.placement? :=
          hkeys.subset (List.append_subset.2 ⟨List.Subset.refl keys, List.Subset.refl keys⟩)
        exact hsortable (sortable_append.1 (sortable_of_sorted hE hS hrows htwice hwhole)).1
      · obtain ⟨whole, hwhole, -⟩ := Except.bind_eq_ok.1 h
        exact hsortable (sortable_of_sorted hE hS hrows hkeys hwhole)

/-! ### Sorting by text again -/

theorem orderBy_text {q : Query E} {text : String} :
    (q.orderBy d (.text text) false).result = (q.orderByText d (some text)).result :=
  rfl

theorem orderBy_text_bind {α : Type} {q : Query E} {text : String}
    (h : d.keysOf q.schema text = .ok keys) (hne : keys ≠ []) (f : Query E → Except Error α) :
    ((q.orderBy d (.text text) false).result >>= f) =
      q.sorted d >>= fun source => f { source, schema := q.schema, keys := some keys } := by
  rw [orderBy_text, orderByText_result h hne]
  cases q.sorted d with
  | error e => rfl
  | ok source => rfl

section

variable {q : Query E} {t u text : String} {front back : List SortKey}

/-- What is known of the keys of a text on the rows of a query holds of the rows that were sorted by
the pending keys. -/
theorem comparable_of_sorted (hcatalog : d.catalog = d'.catalog)
    (h : d.keysOf q.schema text = .ok keys)
    (hkeys : ∀ rows, q.rows d = .ok rows → Comparable d keys rows q.source.placement?)
    (hsource : q.sorted d = .ok source) :
    ∀ rows, source.rows = .ok rows → Comparable d' keys rows source.placement? := by
  intro rows hrows
  have hread : q.rows d = .ok rows := by rw [Query.rows, hsource, Except.ok_bind, hrows]
  rw [placement?_of_sorted hsource]
  exact (hkeys rows hread).of_catalog hcatalog (Directory.exists_accessor_of_keysOf h)

theorem rows_orderBy_orderBy (hE : E.SelectsRows) (hS : E.SortsStably)
    (hcatalog : d.catalog = d'.catalog)
    (ht : d.keysOf q.schema t = .ok front) (hfront : front ≠ [])
    (hu : d.keysOf q.schema u = .ok back) (hback : back ≠ [])
    (hkeys : ∀ rows, q.rows d = .ok rows → Comparable d (back ++ front) rows q.source.placement?)
    (out : List Value) :
    ((q.orderBy d (.text t) false).result >>= fun q₁ =>
      (q₁.orderBy d' (.text u) false).result >>= Query.rows d') = .ok out ↔
      ((q.orderBy d (.text (u ++ "," ++ t)) false).result >>= Query.rows d') = .ok out := by
  have hboth : d.keysOf q.schema (u ++ "," ++ t) = .ok (back ++ front) :=
    Directory.keysOf_append_comma.2 ⟨back, front, hu, ht, rfl⟩
  have hne : back ++ front ≠ [] := List.append_ne_nil_of_left_ne_nil hback front
  rw [orderBy_text_bind ht hfront, orderBy_text_bind hboth hne]
  cases hsource : q.sorted d with
  | error e => rfl
  | ok source =>
    simp only [Except.ok_bind,
      orderBy_text_bind (q := { source, schema := q.schema, keys := some front })
        (Directory.keysOf_of_catalog hcatalog hu) hback]
    exact rows_sorted_append hE hS q.schema (comparable_of_sorted hcatalog hboth hkeys hsource) out

/-- **Sorting again** by a further text gives rows exactly if sorting by this text and, behind a
comma, the one before does, and these are the same rows in the same order, although only the keys of
the further text are reported. Sorting by the same text again changes nothing. Where the rows can be
read, and the values of each key of a table make a column, they can be sorted. -/
theorem orderBy_orderBy (hE : E.SelectsRows) (hS : E.SortsStably)
    (hcatalog : d.catalog = d'.catalog)
    (ht : d.keysOf q.schema t = .ok front) (hfront : front ≠ [])
    (hu : d.keysOf q.schema u = .ok back) (hback : back ≠ [])
    (hkeys : ∀ rows, q.rows d = .ok rows →
      Comparable d (back ++ front) rows q.source.placement?) :
    (∀ out,
      (do
        let q₁ ← (q.orderBy d (.text t) false).result
        let q₂ ← (q₁.orderBy d' (.text u) false).result
        q₂.rows d') = .ok out ↔
      (do
        let q₃ ← (q.orderBy d (.text (u ++ "," ++ t)) false).result
        q₃.rows d') = .ok out) ∧
    (∀ out,
      (do
        let q₁ ← (q.orderBy d (.text t) false).result
        let q₂ ← (q₁.orderBy d' (.text t) false).result
        q₂.rows d') = .ok out ↔
      (do
        let q₁ ← (q.orderBy d (.text t) false).result
        q₁.rows d') = .ok out) ∧
    ∀ rows, q.rows d = .ok rows → Sortable d (back ++ front) rows q.source.placement? →
      ∃ q₁ q₂ q₃ out shown more,
        (q.orderBy d (.text t) false).result = .ok q₁ ∧
        (q₁.orderBy d' (.text u) false).result = .ok q₂ ∧
        (q.orderBy d (.text (u ++ "," ++ t)) false).result = .ok q₃ ∧
        q₂.rows d' = .ok out ∧ q₃.rows d' = .ok out ∧ out.Perm rows ∧
        d.reportOf q.schema u = .ok shown ∧ d.reportOf q.schema t = .ok more ∧
        q₂.sortKeys? = some shown ∧ q₃.sortKeys? = some (shown ++ more) := by
  have hkeys' : ∀ rows, q.rows d = .ok rows → Comparable d front rows q.source.placement? :=
    fun rows hrows => (hkeys rows hrows).subset (List.subset_append_right back front)
  have htwice : ∀ rows, q.rows d = .ok rows →
      Comparable d (front ++ front) rows q.source.placement? := fun rows hrows =>
    (hkeys' rows hrows).subset
      (List.append_subset.2 ⟨List.Subset.refl front, List.Subset.refl front⟩)
  have hboth : d.keysOf q.schema (u ++ "," ++ t) = .ok (back ++ front) :=
    Directory.keysOf_append_comma.2 ⟨back, front, hu, ht, rfl⟩
  have hsame : d.keysOf q.schema (t ++ "," ++ t) = .ok (front ++ front) :=
    Directory.keysOf_append_comma.2 ⟨front, front, ht, ht, rfl⟩
  have hne : front ++ front ≠ [] := List.append_ne_nil_of_left_ne_nil hfront front
  refine ⟨rows_orderBy_orderBy hE hS hcatalog ht hfront hu hback hkeys, fun out => ?_,
    fun rows hrows hsortable => ?_⟩
  · refine (rows_orderBy_orderBy hE hS hcatalog ht hfront ht hfront htwice out).trans ?_
    rw [orderBy_text_bind hsame hne, orderBy_text_bind ht hfront]
    cases hsource : q.sorted d with
    | error e => rfl
    | ok source =>
      exact rows_sorted_append_self hE hS q.schema (comparable_of_sorted hcatalog ht hkeys' hsource)
        out
  · obtain ⟨source, hsource, hread⟩ := Except.bind_eq_ok.1 hrows
    have h₁ := orderByText_result ht hfront
    have h₃ := orderByText_result hboth (List.append_ne_nil_of_left_ne_nil hback front)
    rw [hsource, Except.ok_bind] at h₁ h₃
    have hsortable' : Sortable d' (back ++ front) rows source.placement? := by
      rw [placement?_of_sorted hsource]
      exact hsortable.of_catalog hcatalog (Directory.exists_accessor_of_keysOf hboth)
    obtain ⟨mid, out, hmid, hout₂, hout₃, hperm⟩ :=
      rows_sorted_again hE hS q.schema hread hsortable'
    have h₂ := orderByText_result (q := { source, schema := q.schema, keys := some front })
      (Directory.keysOf_of_catalog hcatalog hu) hback
    rw [hmid, Except.ok_bind] at h₂
    refine ⟨_, _, _, out, _, _, h₁, h₂, h₃, hout₂, hout₃, hperm, Directory.reportOf_of_keysOf hu,
      Directory.reportOf_of_keysOf ht, rfl, ?_⟩
    simp [sortKeys?]

end

private def crates : Table where
  columns := [("sent", .bool), ("weight", .int64)]
  rows := [[.bool true, .null], [.null, .int 3], [.bool true, .int 2], [.bool false, .int 2]]

private def crateQuery : Query .inMemory :=
  .ofTable (E := .inMemory) crates .atEnd "Crate" none

private def crateKey (column : String) (type : ColumnType) (direction : Direction) : SortKey where
  source := .accessor ⟨crateQuery.schema,
    [{ name := column, type := .column type, access := .item }]⟩
  direction := direction

/-- Crates that were sorted by `sent` do not report it when they are sorted by their weights. -/
theorem crates_sorted_again : Engine.inMemory.SelectsRows ∧ Engine.inMemory.SortsStably ∧
    ∃ q₁ q₂ q₃ out,
    (crateQuery.orderBy {} (.text "sent") false).result = .ok q₁ ∧
    (q₁.orderBy {} (.text "Weight desc") false).result = .ok q₂ ∧
    (crateQuery.orderBy {} (.text ("Weight desc" ++ "," ++ "sent")) false).result = .ok q₃ ∧
    q₂.rows {} = .ok out ∧ q₃.rows {} = .ok out ∧
    q₂.sortKeys? = some [("weight", true)] ∧
    q₃.sortKeys? = some [("weight", true), ("sent", false)] := by
  have ht : Directory.keysOf {} crateQuery.schema "sent" =
      .ok [crateKey "sent" .bool .ascending] := rfl
  have hu : Directory.keysOf {} crateQuery.schema "Weight desc" =
      .ok [crateKey "weight" .int64 .descending] := rfl
  have hread : crateQuery.rows {} = .ok (crates.rows.map (Table.record crates.columns)) := rfl
  have hcells : ∀ key ∈
      [crateKey "weight" .int64 .descending] ++ [crateKey "sent" .bool .ascending],
      key.HasCells {} (crates.rows.map (Table.record crates.columns)) := by
    simp only [List.cons_append, List.nil_append, List.forall_mem_cons]
    refine ⟨⟨.integer, ?_⟩, ⟨.bool, ?_⟩, by simp⟩
    · simp only [crates, List.map_cons, List.forall_mem_cons]
      exact ⟨⟨_, rfl, .null _⟩, ⟨_, rfl, .int (by omega)⟩, ⟨_, rfl, .int (by omega)⟩,
        ⟨_, rfl, .int (by omega)⟩, by simp⟩
    · simp only [crates, List.map_cons, List.forall_mem_cons]
      exact ⟨⟨_, rfl, .bool true⟩, ⟨_, rfl, .null _⟩, ⟨_, rfl, .bool true⟩, ⟨_, rfl, .bool false⟩,
        by simp⟩
  have hkeys : ∀ rows, crateQuery.rows {} = .ok rows → Comparable {}
      ([crateKey "weight" .int64 .descending] ++ [crateKey "sent" .bool .ascending]) rows
      crateQuery.source.placement? := by
    intro rows hrows
    cases hread.symm.trans hrows
    exact fun key hkey => ⟨(hcells key hkey).ordered, (hcells key hkey).fitsWords⟩
  have hselects := Engine.selectsRows_inMemory
  have hsorts := Engine.sortsStably_inMemory
  have hcatalog : ({} : Directory).catalog = ({} : Directory).catalog := rfl
  obtain ⟨-, -, hsorted⟩ := orderBy_orderBy hselects hsorts hcatalog ht (List.cons_ne_nil _ _) hu
    (List.cons_ne_nil _ _) hkeys
  obtain ⟨q₁, q₂, q₃, out, shown, more, h₁, h₂, h₃, hout₂, hout₃, -, hshown, hmore, hkeys₂,
    hkeys₃⟩ := hsorted _ hread hcells
  cases hshown
  cases hmore
  exact ⟨hselects, hsorts, q₁, q₂, q₃, out, h₁, h₂, h₃, hout₂, hout₃, hkeys₂, hkeys₃⟩

end Query
end RecordQuery
