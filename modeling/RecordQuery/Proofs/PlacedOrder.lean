import RecordQuery.Proofs.MemorySorting
import RecordQuery.Proofs.TableOrder

/-!
# Tables sorted with nulls at one end

The table of a sorted query has the rows of the table that the query holds, in the lexicographic
order of the keys that puts nulls at the end of the placement (`Query.toTable_placed`). What this
takes of the library of tables is that it selects rows and that its sort is stable.
-/

namespace RecordQuery.Query

variable {E : Engine} {d : Directory} {keys : List SortKey} {placement : NullPlacement}
  {t : E.Table} {records : List Value}

/-- **The table of a sorted query** has the rows of the table that the query holds, each in its
place: of two rows, the first one is put first by the most significant key that tells them apart,
or they agree on all keys and it came first in the table. Rows where a key is null come before or
behind all others on it, as the placement says, whether the key is ascending or descending. -/
theorem toTable_placed (hE : E.SelectsRows) (hS : E.SortsStably) {q : Query E}
    (hsource : q.source = .table t placement) (hkeys : q.keys = some keys)
    (hrecords : E.records t = .ok records) (hcells : ∀ key ∈ keys, key.HasCells d records) :
    ∃ (t' : E.Table) (placed : List (Value × Nat)), q.toTable d = .ok t' ∧
      placed.Perm records.zipIdx ∧
      (t' = t ∧ placed = records.zipIdx ∨ E.take (placed.map Prod.snd) t = .ok t') ∧
      E.columns t' = E.columns t ∧ E.records t' = .ok (placed.map Prod.fst) ∧
      placed.Pairwise fun a b =>
        Lexicographic (SortKey.PlacedBefore d placement) keys a.1 b.1 ∨
        (∀ key ∈ keys, key.rank d a.1 = key.rank d b.1) ∧ a.2 < b.2 := by
  obtain ⟨t', placed, hsorted, hperm, hordered, htaken, hcolumns, hread⟩ :=
    sortTable_eq_ok placement hE hS hrecords hcells
  refine ⟨t', placed, ?_, hperm, htaken, hcolumns, hread, hordered.imp fun {a b} hab => ?_⟩
  · rw [toTable, hsource, hkeys]
    exact hsorted
  · rcases hab with hab | ⟨htie, hpos⟩
    · exact .inl hab
    · by_cases hab : Lexicographic (SortKey.PlacedBefore d placement) keys a.1 b.1
      · exact .inl hab
      · refine .inr ⟨fun key hkey => ?_, hpos⟩
        exact SortKey.rank_eq_iff_placed.2 (Lexicographic.ties_iff.2 ⟨hab, htie⟩ key hkey)

private def parcels : Table where
  columns := [("sent", .bool), ("weight", .int64), ("to", .string)]
  rows := [[.bool true, .null, .str "x"], [.null, .int 3, .str "y"],
    [.bool true, .int 2, .null], [.null, .int 5, .str "x"], [.bool false, .int 2, .str "z"]]

private def parcelQuery : Query .inMemory where
  source := .table parcels .atStart
  schema := .ofColumns (.anonymous "Parcel") "Parcel" parcels.columns
  keys := some [⟨.accessor ⟨default, [{ name := "sent", access := .item }]⟩, .descending⟩,
    ⟨.accessor ⟨default, [{ name := "weight", access := .item }]⟩, .ascending⟩]

/-- Nulls come first under a descending key as under an ascending one. -/
example : parcelQuery.toTable {} = .ok { parcels with
    rows := [[.null, .int 3, .str "y"], [.null, .int 5, .str "x"], [.bool true, .null, .str "x"],
      [.bool true, .int 2, .null], [.bool false, .int 2, .str "z"]] } := by
  cbv

theorem parcels_placed : Engine.inMemory.SelectsRows ∧ Engine.inMemory.SortsStably ∧
    ∃ records keys, parcels.records = .ok records ∧ parcelQuery.keys = some keys ∧
    (∀ key ∈ keys, key.HasCells {} records) ∧
    ∃ (t' : Table) (placed : List (Value × Nat)), parcelQuery.toTable {} = .ok t' ∧
      placed.Perm records.zipIdx ∧ t'.records = .ok (placed.map Prod.fst) ∧
      placed.Pairwise fun a b =>
        Lexicographic (SortKey.PlacedBefore {} .atStart) keys a.1 b.1 ∨
        (∀ key ∈ keys, key.rank {} a.1 = key.rank {} b.1) ∧ a.2 < b.2 := by
  have hcells : ∀ key ∈ parcelQuery.keys.getD [],
      key.HasCells {} (parcels.rows.map (Table.record parcels.columns)) := by
    simp only [parcelQuery, Option.getD_some, List.forall_mem_cons]
    refine ⟨⟨.bool, ?_⟩, ⟨.integer, ?_⟩, by simp⟩
    · simp only [parcels, List.map_cons, List.forall_mem_cons]
      exact ⟨⟨_, rfl, .bool true⟩, ⟨_, rfl, .null _⟩, ⟨_, rfl, .bool true⟩, ⟨_, rfl, .null _⟩,
        ⟨_, rfl, .bool false⟩, by simp⟩
    · simp only [parcels, List.map_cons, List.forall_mem_cons]
      exact ⟨⟨_, rfl, .null _⟩, ⟨_, rfl, .int (by omega)⟩, ⟨_, rfl, .int (by omega)⟩,
        ⟨_, rfl, .int (by omega)⟩, ⟨_, rfl, .int (by omega)⟩, by simp⟩
  have hselects := Engine.selectsRows_inMemory
  have hsorts := Engine.sortsStably_inMemory
  obtain ⟨t', placed, htable, hperm, -, -, hread, hordered⟩ :=
    toTable_placed (q := parcelQuery) hselects hsorts rfl rfl rfl hcells
  exact ⟨hselects, hsorts, _, _, rfl, rfl, hcells, t', placed, htable, hperm, hread, hordered⟩

end RecordQuery.Query
