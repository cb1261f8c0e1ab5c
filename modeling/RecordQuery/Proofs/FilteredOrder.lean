import RecordQuery.Proofs.Filtering
import RecordQuery.Proofs.Resorting

/-!
# Filtering sorted rows

Rows that come stably in the order of some keys still do so when a filter has dropped some of them,
and there is only one such list. A query that is sorted by ordering text and then filtered therefore
has the rows of the one that is filtered first, in the same order (`Query.filter_orderBy`), also
where a key is null for all rows that are kept. The values of the keys of a table have to make
columns: otherwise the table cannot be sorted before it is filtered, but it may be possible
afterwards (`Query.filter_orderBy_ne`).
-/

namespace RecordQuery.Query

variable {E : Engine} {d d' : Directory} {keys : List SortKey} {rows : List Value} {q q₁ : Query E}
  {p : Predicate} {text : String}

/-- What is filtered is held like before. -/
theorem placement?_of_filter (h : q.filter d p = .ok q₁) :
    q₁.source.placement? = q.source.placement? := by
  obtain ⟨source, hsource, -⟩ := Except.bind_eq_ok.1 h
  rw [← placement?_of_sorted hsource]
  cases source with
  | list rows =>
    obtain ⟨kept, hkept⟩ := source_of_filter_list hsource h
    rw [hkept]
    rfl
  | table t placement =>
    obtain ⟨mask, kept, -, hkept⟩ := source_of_filter_table hsource h
    rw [hkept]
    rfl

theorem passes_eq_of_pure {row : Value}
    (h : ∃ b, p.test d row = .ok b ∧ p.test d' row = .ok b) :
    passes (p.test d') row = passes (p.test d) row := by
  obtain ⟨b, hb, hb'⟩ := h
  rw [passes, passes, hb, hb']

/-- Both the query that is sorted first and the one that is filtered first have the rows that pass,
stably in the order of the keys. -/
theorem exists_rows_filter_orderBy (hE : E.SelectsRows) (hS : E.SortsStably)
    (hcatalog : d.catalog = d'.catalog) (hkeys : d.keysOf q.schema text = .ok keys)
    (hne : keys ≠ []) (hrows : q.rows d = .ok rows)
    (hsortable : Sortable d keys rows q.source.placement?)
    (hpure : ∀ row ∈ rows, ∃ b, p.test d row = .ok b ∧ p.test d' row = .ok b) :
    ∃ q₁ q₂ q₃ q₄ out, (q.orderBy d (.text text) false).result = .ok q₁ ∧
      q₁.filter d' p = .ok q₂ ∧ q.filter d p = .ok q₃ ∧
      (q₃.orderBy d' (.text text) false).result = .ok q₄ ∧
      q₂.rows d' = .ok out ∧ q₄.rows d' = .ok out ∧
      out.Perm (rows.filter (passes (p.test d))) := by
  obtain ⟨source, hsource, hread⟩ := Except.bind_eq_ok.1 hrows
  have hsortable := hsortable.of_catalog hcatalog (Directory.exists_accessor_of_keysOf hkeys)
  rw [← placement?_of_sorted hsource] at hsortable
  -- the query that is sorted first
  have h₁ := orderByText_result hkeys hne
  rw [hsource, Except.ok_bind, Except.pure_eq_ok] at h₁
  obtain ⟨source', sorted, hsorted, hout, hstable⟩ :=
    exists_rows_sorted hE hS q.schema hread hsortable
  have hrows₁ : Query.rows d' { source, schema := q.schema, keys := some keys } = .ok sorted := by
    rw [Query.rows, hsorted, Except.ok_bind, hout]
  have htests : ∀ row ∈ sorted, ∃ b, p.test d' row = .ok b := by
    intro row hrow
    obtain ⟨b, -, hb⟩ := hpure row (hstable.perm.subset hrow)
    exact ⟨b, hb⟩
  obtain ⟨q₂, h₂, -, -, hout₂⟩ := filter_ok hE hrows₁ (keepIf_eq_ok.2 ⟨htests, rfl⟩)
  have hpasses : sorted.filter (passes (p.test d')) = sorted.filter (passes (p.test d)) :=
    List.filter_congr fun row hrow => passes_eq_of_pure (hpure row (hstable.perm.subset hrow))
  have hstable := hstable.filter (passes (p.test d))
  rw [hpasses] at hout₂
  -- the query that is filtered first
  have htests : ∀ row ∈ rows, ∃ b, p.test d row = .ok b := by
    intro row hrow
    obtain ⟨b, hb, -⟩ := hpure row hrow
    exact ⟨b, hb⟩
  obtain ⟨q₃, h₃, hschema, hnone, hkept⟩ := filter_ok hE hrows (keepIf_eq_ok.2 ⟨htests, rfl⟩)
  have hplacement : q₃.source.placement? = source.placement? :=
    (placement?_of_filter h₃).trans (placement?_of_sorted hsource).symm
  rw [rows_of_keys_none hnone] at hkept
  rw [← hschema] at hkeys
  have hsortable₃ : Sortable d' keys (rows.filter (passes (p.test d))) q₃.source.placement? := by
    rw [hplacement]
    exact hsortable.mono (List.filter_subset_self _)
  have h₄ := orderByText_result (Directory.keysOf_of_catalog hcatalog hkeys) hne
  rw [sorted_of_keys_none hnone, Except.ok_bind, Except.pure_eq_ok] at h₄
  obtain ⟨source₄, out, hsorted₄, hout₄, hstable₃⟩ :=
    exists_rows_sorted hE hS q₃.schema hkept hsortable₃
  rw [hplacement] at hstable₃
  -- there is only one way to put the rows that pass stably in order
  have hsame : sorted.filter (passes (p.test d)) = out :=
    hstable.unique (fun _ _ => Before.asymm) hstable₃
  rw [hsame] at hout₂
  refine ⟨_, q₂, q₃, _, out, h₁, h₂, h₃, h₄, hout₂, ?_, hstable₃.perm⟩
  rw [Query.rows, hsorted₄, Except.ok_bind, hout₄]

/-- **Filtering commutes with sorting.** The query that is sorted by ordering text and then filtered
gives rows exactly if the one that is filtered and then sorted does, and these are the same rows in
the same order, if the values of each key are null or of one kind, which makes a column where the
rows are those of a table, and the predicate fails on no row. Where the rows can be read, both have
the rows that pass. -/
theorem filter_orderBy (hE : E.SelectsRows) (hS : E.SortsStably)
    (hcatalog : d.catalog = d'.catalog) (hkeys : d.keysOf q.schema text = .ok keys)
    (hne : keys ≠ [])
    (hsortable : ∀ rows, q.rows d = .ok rows → Sortable d keys rows q.source.placement?)
    (hpure : ∀ rows, q.rows d = .ok rows →
      ∀ row ∈ rows, ∃ b, p.test d row = .ok b ∧ p.test d' row = .ok b) :
    (∀ out,
      (do
        let q₁ ← (q.orderBy d (.text text) false).result
        let q₂ ← q₁.filter d' p
        q₂.rows d') = .ok out ↔
      (do
        let q₁ ← q.filter d p
        let q₂ ← (q₁.orderBy d' (.text text) false).result
        q₂.rows d') = .ok out) ∧
    ∀ rows, q.rows d = .ok rows → ∃ q₁ q₂ q₃ q₄ out,
      (q.orderBy d (.text text) false).result = .ok q₁ ∧ q₁.filter d' p = .ok q₂ ∧
      q.filter d p = .ok q₃ ∧ (q₃.orderBy d' (.text text) false).result = .ok q₄ ∧
      q₂.rows d' = .ok out ∧ q₄.rows d' = .ok out ∧
      out.Perm (rows.filter (passes (p.test d))) := by
  have hread := fun rows (hrows : q.rows d = .ok rows) =>
    exists_rows_filter_orderBy hE hS hcatalog hkeys hne hrows (hsortable rows hrows)
      (hpure rows hrows)
  refine ⟨fun out => ?_, hread⟩
  cases hrows : q.rows d with
  | ok rows =>
    obtain ⟨q₁, q₂, q₃, q₄, out, h₁, h₂, h₃, h₄, hout₂, hout₄, -⟩ := hread rows hrows
    simp only [h₁, h₂, h₃, h₄, Except.ok_bind, hout₂, hout₄]
  | error e =>
    -- neither gives rows
    have hfilter : q.filter d p = .error e :=
      filter_of_rows_error hE (by rw [hrows, Except.error_bind])
    rw [hfilter, Except.error_bind, orderBy_text_bind hkeys hne]
    refine iff_of_false (fun h => ?_) nofun
    obtain ⟨source, hsource, h⟩ := Except.bind_eq_ok.1 h
    obtain ⟨q₂, h₂, -⟩ := Except.bind_eq_ok.1 h
    obtain ⟨source', hsource', -⟩ := Except.bind_eq_ok.1 h₂
    have hread : source.rows = .error e := by rwa [Query.rows, hsource] at hrows
    have hread' : Query.rows d' { source, schema := q.schema, keys := some keys } = .error e := by
      rw [Query.rows, hsource', Except.ok_bind, rows_of_sorted_error hread hsource']
    cases h₂.symm.trans (filter_of_rows_error hE (by rw [hread', Except.error_bind]))

private def shipments : Table where
  columns := [("sent", .bool), ("weight", .int64)]
  rows := [[.bool true, .null], [.null, .int 3], [.bool true, .null], [.bool false, .int 2]]

private def shipmentQuery : Query .inMemory :=
  .ofTable (E := .inMemory) shipments .atStart "Shipment" none

private def shipmentKey (column : String) (type : ColumnType) (direction : Direction) :
    SortKey where
  source := .accessor ⟨shipmentQuery.schema,
    [{ name := column, type := .column type, access := .item }]⟩
  direction := direction

/-- `lambda r: r["sent"]`. -/
private def isSent : Predicate :=
  .lambda { params := [{ name := "r" }], body := .item (.var "r") (.str "sent") }

/-- No shipment that was sent has a weight. -/
theorem filter_orderBy_shipments : Engine.inMemory.SelectsRows ∧ Engine.inMemory.SortsStably ∧
    ∃ q₁ q₂ q₃ q₄ out,
    (shipmentQuery.orderBy {} (.text "weight desc, sent") false).result = .ok q₁ ∧
    q₁.filter {} isSent = .ok q₂ ∧ shipmentQuery.filter {} isSent = .ok q₃ ∧
    (q₃.orderBy {} (.text "weight desc, sent") false).result = .ok q₄ ∧
    q₂.rows {} = .ok out ∧ q₄.rows {} = .ok out ∧ out.length = 2 := by
  have hkeys : Directory.keysOf {} shipmentQuery.schema "weight desc, sent" =
      .ok [shipmentKey "weight" .int64 .descending, shipmentKey "sent" .bool .ascending] := rfl
  have hread : shipmentQuery.rows {} = .ok (shipments.rows.map (Table.record shipments.columns)) :=
    rfl
  have hsortable : ∀ rows, shipmentQuery.rows {} = .ok rows → Sortable {}
      [shipmentKey "weight" .int64 .descending, shipmentKey "sent" .bool .ascending] rows
      shipmentQuery.source.placement? := by
    intro rows hrows
    cases hread.symm.trans hrows
    change ∀ key ∈ _, SortKey.HasCells {} key _
    simp only [List.forall_mem_cons]
    refine ⟨⟨.integer, ?_⟩, ⟨.bool, ?_⟩, by simp⟩
    · simp only [shipments, List.map_cons, List.forall_mem_cons]
      exact ⟨⟨_, rfl, .null _⟩, ⟨_, rfl, .int (by omega)⟩, ⟨_, rfl, .null _⟩,
        ⟨_, rfl, .int (by omega)⟩, by simp⟩
    · simp only [shipments, List.map_cons, List.forall_mem_cons]
      exact ⟨⟨_, rfl, .bool true⟩, ⟨_, rfl, .null _⟩, ⟨_, rfl, .bool true⟩, ⟨_, rfl, .bool false⟩,
        by simp⟩
  have hpure : ∀ rows, shipmentQuery.rows {} = .ok rows →
      ∀ row ∈ rows, ∃ b, isSent.test {} row = .ok b ∧ isSent.test {} row = .ok b := by
    intro rows hrows
    cases hread.symm.trans hrows
    simp only [shipments, List.map_cons, List.forall_mem_cons]
    exact ⟨⟨_, rfl, rfl⟩, ⟨_, rfl, rfl⟩, ⟨_, rfl, rfl⟩, ⟨_, rfl, rfl⟩, by simp⟩
  have hselects := Engine.selectsRows_inMemory
  have hsorts := Engine.sortsStably_inMemory
  obtain ⟨-, hrows⟩ := filter_orderBy (q := shipmentQuery) hselects hsorts rfl hkeys
    (List.cons_ne_nil _ _) hsortable hpure
  obtain ⟨q₁, q₂, q₃, q₄, out, h₁, h₂, h₃, h₄, hout₂, hout₄, hperm⟩ := hrows _ hread
  exact ⟨hselects, hsorts, q₁, q₂, q₃, q₄, out, h₁, h₂, h₃, h₄, hout₂, hout₄, hperm.length_eq⟩

private def tickets : Table where
  columns := [("open", .bool), ("number", .uint64)]
  rows := [[.bool false, .int (2 ^ 63)], [.bool true, .int 2], [.bool true, .int 1]]

private def ticketQuery : Query .inMemory :=
  .ofTable (E := .inMemory) tickets .atStart "Ticket" none

/-- `lambda r: r["open"]`. -/
private def isOpen : Predicate :=
  .lambda { params := [{ name := "r" }], body := .item (.var "r") (.str "open") }

private def ticketKey : SortKey where
  source := .accessor ⟨ticketQuery.schema,
    [{ name := "number", type := .column .uint64, access := .item }]⟩
  direction := .ascending

/-- Numbers beyond 64 bits with a sign make no column, although they can be ordered. Once they are
filtered out, the tickets can be sorted by the others. -/
theorem filter_orderBy_ne :
    Directory.keysOf {} ticketQuery.schema "number" = .ok [ticketKey] ∧
    (∃ rows, ticketQuery.rows {} = .ok rows ∧ ticketKey.Ordered {} rows ∧
      ∀ row ∈ rows, ∃ b, isOpen.test {} row = .ok b) ∧
    (do
      let q₁ ← (ticketQuery.orderBy {} (.text "number") false).result
      let q₂ ← q₁.filter {} isOpen
      q₂.rows {}) = fail .overflow ∧
    (do
      let q₁ ← ticketQuery.filter {} isOpen
      let q₂ ← (q₁.orderBy {} (.text "number") false).result
      return (← q₂.rows {}).map (Row.cell "number")) = .ok [.int 1, .int 2] := by
  refine ⟨rfl, ⟨_, rfl, ⟨.number, ?_⟩, ?_⟩, by cbv, by cbv⟩
  · simp only [tickets, List.map_cons, List.forall_mem_cons]
    exact ⟨⟨_, rfl, .int _⟩, ⟨_, rfl, .int 2⟩, ⟨_, rfl, .int 1⟩, by simp⟩
  · simp only [tickets, List.map_cons, List.forall_mem_cons]
    exact ⟨⟨_, rfl⟩, ⟨_, rfl⟩, ⟨_, rfl⟩, by simp⟩

end RecordQuery.Query
