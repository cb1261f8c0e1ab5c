import RecordQuery.Column.Memory
import RecordQuery.Proofs.ColumnChain
import RecordQuery.Proofs.OrderingParts
import RecordQuery.Query.Sorting

/-!
# Queries sorted by ordering text

Ordering text names sort keys on the schema of a query (`Directory.keysOf`). Sorting by it applies
the keys that are pending and leaves those that the text names pending instead
(`Query.orderByText_result`), and adding its keys leaves them pending behind those that are there
(`Query.exists_of_thenByText`, `Query.thenByText_of_keysOf`). A text can therefore be cut at any
comma that leaves keys on both sides, and its front sorted by and its back added
(`Query.orderQuery_append_comma`).
-/

namespace RecordQuery

/-! ### The paths of resolved names -/

theorem Text.fold_ne_nil {cs : List Char} (h : cs ≠ []) : Text.fold cs ≠ [] := by
  have hlong : ∀ e ∈ foldLong, e.2 ≠ [] := by decide
  cases cs with
  | nil => exact absurd rfl h
  | cons c cs =>
    rw [Text.fold, List.flatMap_cons]
    refine List.append_ne_nil_of_left_ne_nil ?_ _
    split
    · exact List.cons_ne_nil _ _
    · unfold caseImage
      split
      · exact List.cons_ne_nil _ _
      · split
        · rename_i ds hds
          obtain ⟨front, back, hmem, -⟩ := List.lookup_eq_some_iff.1 hds
          simpa using hlong (c.toNat, ds) (by simp [hmem])
        · exact List.cons_ne_nil _ _

/-- A member that is found under a name has one. -/
theorem Schema.name_ne_empty_of_mem_candidates {s : Schema} {name : String} {f : Field}
    (hname : name ≠ "") (h : f ∈ s.candidates name) : f.name ≠ "" := by
  intro hempty
  have hfold := eq_of_beq (mem_of_mem_candidates h).2.2
  rw [hempty] at hfold
  exact Text.fold_ne_nil (fun hnil => hname (String.toList_eq_nil_iff.1 hnil)) hfold.symm

/-- The path that a chain of names is resolved to is not empty. -/
theorem Directory.path_ne_empty {d : Directory} {s : Schema} {names : List String} {a : Accessor}
    (hnames : ∀ name ∈ names, name ≠ "") (h : (d.resolveNames s names).result = .ok a) :
    a.path ≠ "" := by
  cases names with
  | nil => cases h
  | cons name names =>
    obtain ⟨found, hfound, h⟩ := Outcome.result_bind_eq_ok.1 h
    cases h
    obtain ⟨f, rest, hfields, hf⟩ : ∃ f rest, found.fields = f :: rest ∧ f ∈ s.candidates name := by
      cases hcandidates : s.candidates name with
      | nil =>
        rw [follow_of_candidates_nil hcandidates] at hfound
        cases hfound
      | cons f fs =>
        cases names with
        | nil =>
          rw [follow_last hcandidates] at hfound
          cases hfound
          exact ⟨f, [], rfl, List.mem_cons_self⟩
        | cons name' names =>
          rw [result_follow_step hcandidates (List.cons_ne_nil name' names)] at hfound
          obtain ⟨owner, -, hfound⟩ := Except.bind_eq_ok.1 hfound
          obtain ⟨rest, -, hfound⟩ := Except.bind_eq_ok.1 hfound
          cases hfound
          exact ⟨f, rest.fields, rfl, List.mem_cons_self⟩
    -- the path starts with the name of the first member
    have hname := Schema.name_ne_empty_of_mem_candidates (hnames name List.mem_cons_self) hf
    rw [Accessor.path, Accessor.chain, hfields, List.map_cons]
    cases rest with
    | nil => simpa using hname
    | cons g rest =>
      rw [List.map_cons, String.intercalate_cons_cons]
      intro hempty
      have hlist := congrArg String.toList hempty
      simp at hlist

/-! ### The keys that a text names -/

/-- The sort key of a spec on a schema. -/
def OrderingSpec.key (d : Directory) (s : Schema) (spec : OrderingSpec) : Except Error SortKey := do
  let a ← (d.resolveNames s spec.chain).result
  return { source := .accessor a, direction := spec.direction }

/-- What is reported of a spec on a schema: the declared path of its chain, and whether it is
descending. -/
def OrderingSpec.reported (d : Directory) (s : Schema) (spec : OrderingSpec) :
    Except Error (String × Bool) := do
  let a ← (d.resolveNames s spec.chain).result
  return (a.path, spec.direction.isDescending)

namespace Directory

variable {d d' : Directory} {s : Schema} {t u text : String} {keys : List SortKey}

/-- The sort keys that ordering text names on a schema, the most significant first. -/
def keysOf (d : Directory) (s : Schema) (text : String) : Except Error (List SortKey) := do
  (← OrderingSpec.parsePart text).mapM (·.key d s)

/-- What is reported of the sort keys that ordering text names on a schema. -/
def reportOf (d : Directory) (s : Schema) (text : String) :
    Except Error (List (String × Bool)) := do
  (← OrderingSpec.parsePart text).mapM (·.reported d s)

/-- Joining texts by a comma joins their keys. -/
theorem keysOf_append_comma : d.keysOf s (t ++ "," ++ u) = .ok keys ↔
    ∃ front back, d.keysOf s t = .ok front ∧ d.keysOf s u = .ok back ∧ keys = front ++ back := by
  simp only [keysOf, OrderingSpec.parsePart_append_comma, Except.bind_eq_ok, Except.pure_eq_ok]
  constructor
  · rintro ⟨_, ⟨specs, hspecs, more, hmore, ⟨⟩⟩, hkeys⟩
    rw [List.mapM_append] at hkeys
    obtain ⟨front, hfront, hkeys⟩ := Except.bind_eq_ok.1 hkeys
    obtain ⟨back, hback, hkeys⟩ := Except.bind_eq_ok.1 hkeys
    cases hkeys
    exact ⟨front, back, ⟨specs, hspecs, hfront⟩, ⟨more, hmore, hback⟩, rfl⟩
  · rintro ⟨front, back, ⟨specs, hspecs, hfront⟩, ⟨more, hmore, hback⟩, rfl⟩
    refine ⟨specs ++ more, ⟨specs, hspecs, more, hmore, rfl⟩, ?_⟩
    rw [List.mapM_append, hfront, hback]
    rfl

/-- A part without segments names no keys. -/
theorem keysOf_ne_nil (h : d.keysOf s text = .ok keys) :
    keys ≠ [] ↔ OrderingSpec.segments text ≠ [] := by
  obtain ⟨specs, hspecs, hkeys⟩ := Except.bind_eq_ok.1 h
  rw [OrderingSpec.parsePart_eq, Except.mapM_eq_ok] at hspecs
  have hlength := hspecs.length_eq.trans (Except.mapM_eq_ok.1 hkeys).length_eq
  rw [ne_eq, ne_eq, ← List.length_eq_zero_iff, ← List.length_eq_zero_iff, hlength]

/-- Names are resolved to the same members whatever was described before. -/
theorem resolveNames_of_catalog (hcatalog : d.catalog = d'.catalog) {names : List String}
    {a : Accessor} (h : (d.resolveNames s names).result = .ok a) :
    (d'.resolveNames s names).result = .ok a := by
  have halike : Outcome.Alike (fun _ _ => True) (· = ·) (d.resolveNames s names)
      (d'.resolveNames s names) :=
    resolveNames_alike hcatalog (.inl rfl) (.inl rfl) fun _ _ => trivial
  have hresult := halike.result
  rw [h] at hresult
  cases hd : (d'.resolveNames s names).result with
  | error e =>
    rw [hd] at hresult
    cases hresult
  | ok b =>
    rw [hd] at hresult
    cases hresult with
    | ok hab => rw [hab]

theorem keysOf_of_catalog (hcatalog : d.catalog = d'.catalog) (h : d.keysOf s text = .ok keys) :
    d'.keysOf s text = .ok keys := by
  obtain ⟨specs, hspecs, hkeys⟩ := Except.bind_eq_ok.1 h
  refine Except.bind_eq_ok.2 ⟨specs, hspecs, Except.mapM_eq_ok.2 ?_⟩
  refine (Except.mapM_eq_ok.1 hkeys).imp fun spec key hkey => ?_
  obtain ⟨a, ha, hkey⟩ := Except.bind_eq_ok.1 hkey
  cases hkey
  rw [OrderingSpec.key, resolveNames_of_catalog hcatalog ha]
  rfl

/-- Resolved keys are reported by their paths. -/
theorem reportOf_of_keysOf (h : d.keysOf s text = .ok keys) : d.reportOf s text =
    .ok (keys.map fun k => (k.source.label, k.direction.isDescending)) := by
  obtain ⟨specs, hspecs, hkeys⟩ := Except.bind_eq_ok.1 h
  have hplain : ∀ spec ∈ specs, spec.IsPlain := by
    rw [OrderingSpec.parsePart_eq, ← OrderingSpec.ofChars_eq] at hspecs
    exact OrderingSpec.isPlain_of_ofChars hspecs
  refine Except.bind_eq_ok.2 ⟨specs, hspecs, Except.mapM_eq_ok.2 ?_⟩
  rw [List.forall₂_map_right_iff]
  refine ((List.forall₂_and_left _ _).2 ⟨hplain, Except.mapM_eq_ok.1 hkeys⟩).imp ?_
  rintro spec key ⟨hspec, hkey⟩
  obtain ⟨a, ha, hkey⟩ := Except.bind_eq_ok.1 hkey
  cases hkey
  have hpath : a.path ≠ "" := path_ne_empty (fun name hname => (hspec.names name hname).1) ha
  rw [OrderingSpec.reported, ha]
  simp [KeySource.label, hpath]

end Directory

/-! ### Sorting by text -/

namespace Query

variable {E : Engine} {d d' : Directory} {q q' : Query E} {specs : List OrderingSpec}
  {keys more : List SortKey} {t u text : String}

theorem resolveSpec_result (spec : OrderingSpec) :
    (q.resolveSpec d spec).result = spec.key d q.schema := by
  rw [resolveSpec, Outcome.result_bind]
  rfl

/-- Adding specs to a sorted query leaves their keys pending behind those that are there. -/
theorem addSpecs_result (hkeys : q.keys = some keys) : (q.addSpecs d specs).result = do
    let more ← specs.mapM (·.key d q.schema)
    return { q with keys := some (keys ++ more) } := by
  induction specs generalizing q keys with
  | nil => simp [addSpecs, ← hkeys]
  | cons spec specs ih =>
    rw [addSpecs, Outcome.result_bind, resolveSpec_result, List.mapM_cons]
    cases spec.key d q.schema with
    | error e => rfl
    | ok k =>
      have hadded : (q.addKey k).keys = some (keys ++ [k]) := by rw [addKey, hkeys]; rfl
      rw [Except.ok_bind, ih hadded]
      change (specs.mapM (·.key d q.schema) >>= _) = _
      cases specs.mapM (·.key d q.schema) with
      | error e => rfl
      | ok more => simp [addKey]

theorem orderByText_of_parse (h : OrderingSpec.parse (some text) = .ok specs) :
    (q.orderByText d (some text)).result = (q.orderBySpecs d specs).result := by
  rw [orderByText, Outcome.result_bind, Outcome.result_lift, h, Except.ok_bind]

/-- **Sorting by ordering text** applies the pending keys and leaves those of the text pending. -/
theorem orderByText_result (h : d.keysOf q.schema text = .ok keys) (hne : keys ≠ []) :
    (q.orderByText d (some text)).result = do
      return { source := ← q.sorted d, schema := q.schema, keys := some keys } := by
  have hsegments := (Directory.keysOf_ne_nil h).1 hne
  obtain ⟨specs, hspecs, hkeys⟩ := Except.bind_eq_ok.1 h
  rw [orderByText_of_parse ((OrderingSpec.parse_of_segments hsegments).trans hspecs)]
  cases specs with
  | nil =>
    cases hkeys
    exact absurd rfl hne
  | cons spec specs =>
    rw [List.mapM_cons] at hkeys
    obtain ⟨k, hk, hkeys⟩ := Except.bind_eq_ok.1 hkeys
    obtain ⟨more, hmore, hkeys⟩ := Except.bind_eq_ok.1 hkeys
    cases hkeys
    rw [orderBySpecs, Outcome.result_bind, resolveSpec_result, hk, Except.ok_bind,
      Outcome.result_bind, sortBy]
    cases q.sorted d with
    | error e => rfl
    | ok source =>
      change (addSpecs d ⟨source, q.schema, some [k]⟩ specs).result = _
      rw [addSpecs_result rfl, hmore]
      rfl

/-- A text that a query was sorted by names keys. -/
theorem exists_of_orderByText (h : (q.orderByText d (some text)).result = .ok q') :
    ∃ keys source, d.keysOf q.schema text = .ok keys ∧ keys ≠ [] ∧ q.sorted d = .ok source ∧
      q' = { source, schema := q.schema, keys := some keys } := by
  obtain ⟨specs, hspecs, h⟩ := Outcome.result_bind_eq_ok.1 h
  rw [Outcome.result_lift] at hspecs
  cases specs with
  | nil => cases h
  | cons spec specs =>
    obtain ⟨k, hk, h⟩ := Outcome.result_bind_eq_ok.1 h
    obtain ⟨q₁, hsort, h⟩ := Outcome.result_bind_eq_ok.1 h
    obtain ⟨source, hsource, hsort⟩ := Except.bind_eq_ok.1 hsort
    cases hsort
    rw [addSpecs_result rfl] at h
    obtain ⟨more, hmore, h⟩ := Except.bind_eq_ok.1 h
    cases h
    rw [resolveSpec_result] at hk
    refine ⟨k :: more, source, ?_, List.cons_ne_nil k more, hsource, rfl⟩
    rw [Directory.keysOf, OrderingSpec.parse_eq_ok hspecs, Except.ok_bind, List.mapM_cons, hk,
      hmore]
    rfl

/-! ### Adding the keys of a text -/

/-- The keys of a text are added behind those that are pending; a text of commas adds none. -/
theorem exists_of_thenByText (hkeys : q.keys = some keys) {r : Option (Query E)}
    (h : (q.thenByText d (some text)).result = .ok r) :
    ∃ more, d.keysOf q.schema text = .ok more ∧
      r.getD q = { q with keys := some (keys ++ more) } := by
  obtain ⟨specs, hspecs, h⟩ := Outcome.result_bind_eq_ok.1 h
  rw [Outcome.result_lift] at hspecs
  cases specs with
  | nil =>
    cases h
    refine ⟨[], ?_, by rw [List.append_nil, ← hkeys]; rfl⟩
    rw [Directory.keysOf, OrderingSpec.parse_eq_ok hspecs]
    rfl
  | cons spec specs =>
    obtain ⟨q₁, hadd, hr⟩ := Outcome.result_bind_eq_ok.1 h
    cases hr
    rw [addSpecs_result hkeys] at hadd
    obtain ⟨more, hmore, hadd⟩ := Except.bind_eq_ok.1 hadd
    cases hadd
    refine ⟨more, ?_, rfl⟩
    rw [Directory.keysOf, OrderingSpec.parse_eq_ok hspecs, Except.ok_bind, hmore]

theorem thenByText_of_keysOf (hkeys : q.keys = some keys)
    (h : d.keysOf q.schema text = .ok more) (hne : more ≠ []) :
    (q.thenByText d (some text)).result = .ok (some { q with keys := some (keys ++ more) }) := by
  have hsegments := (Directory.keysOf_ne_nil h).1 hne
  obtain ⟨specs, hspecs, hmore⟩ := Except.bind_eq_ok.1 h
  have hparse := (OrderingSpec.parse_of_segments hsegments).trans hspecs
  rw [thenByText, Outcome.result_bind, Outcome.result_lift, hparse, Except.ok_bind]
  cases specs with
  | nil =>
    cases hmore
    exact absurd rfl hne
  | cons spec specs =>
    rw [Outcome.result_bind, addSpecs_result hkeys, hmore]
    rfl

/-! ### Cutting a text -/

theorem extendQuery_text (hkeys : q.keys = some keys) :
    extendQuery d (some q) (.text text) = q.thenByText d (some text) := by
  have hordered : q.isOrdered = true := by rw [isOrdered, hkeys]; rfl
  rw [extendQuery, if_pos hordered]
  rfl

/-- **Ordering text can be cut at its commas.** Sorting by a text and adding the keys of another one
makes the query that sorting by both, joined by a comma, makes: over the same rows, with the keys of
the first text and then those of the second one, each reported by its declared path and its
direction. The query in between has the rows and its own keys. Conversely, where sorting by the
joined texts succeeds and each text has a segment, so do the two steps. It does not matter which
types were described in between. -/
theorem orderQuery_append_comma (hcatalog : d.catalog = d'.catalog) (q : Query E) (t u : String) :
    (∀ q₁ r, (orderQuery d (some q) (.text t)).result = .ok q₁ →
      (extendQuery d' (some q₁) (.text u)).result = .ok r →
        (orderQuery d (some q) (.text (t ++ "," ++ u))).result = .ok (r.getD q₁) ∧
        ∃ front back, d.reportOf q.schema t = .ok front ∧ d.reportOf q.schema u = .ok back ∧
          q₁.sortKeys? = some front ∧ (r.getD q₁).sortKeys? = some (front ++ back) ∧
          q.sorted d = .ok q₁.source) ∧
    ∀ q₂, (orderQuery d (some q) (.text (t ++ "," ++ u))).result = .ok q₂ →
      OrderingSpec.segments t ≠ [] → OrderingSpec.segments u ≠ [] →
        ∃ q₁, (orderQuery d (some q) (.text t)).result = .ok q₁ ∧
          (extendQuery d' (some q₁) (.text u)).result = .ok (some q₂) := by
  constructor
  · intro q₁ r h₁ h₂
    obtain ⟨front, source, hfront, hne, hsource, rfl⟩ := exists_of_orderByText h₁
    rw [extendQuery_text rfl] at h₂
    obtain ⟨back, hback, hr⟩ := exists_of_thenByText rfl h₂
    have hback := Directory.keysOf_of_catalog hcatalog.symm hback
    have hkeys : d.keysOf q.schema (t ++ "," ++ u) = .ok (front ++ back) :=
      Directory.keysOf_append_comma.2 ⟨front, back, hfront, hback, rfl⟩
    have hwhole := orderByText_result hkeys (List.append_ne_nil_of_left_ne_nil hne back)
    rw [hsource, Except.ok_bind] at hwhole
    rw [hr]
    refine ⟨hwhole, _, _, Directory.reportOf_of_keysOf hfront, Directory.reportOf_of_keysOf hback,
      rfl, ?_, hsource⟩
    simp [sortKeys?]
  · intro q₂ h ht hu
    obtain ⟨keys, source, hkeys, -, hsource, rfl⟩ := exists_of_orderByText h
    obtain ⟨front, back, hfront, hback, rfl⟩ := Directory.keysOf_append_comma.1 hkeys
    have hfirst := orderByText_result hfront ((Directory.keysOf_ne_nil hfront).2 ht)
    rw [hsource, Except.ok_bind] at hfirst
    refine ⟨_, hfirst, ?_⟩
    rw [extendQuery_text rfl]
    exact thenByText_of_keysOf rfl (Directory.keysOf_of_catalog hcatalog hback)
      ((Directory.keysOf_ne_nil hback).2 hu)

/-- Mappings with the keys `kind` and `size`. -/
private def boxSchema : Schema where
  key := .anonymous "Box"
  name := "Box"
  fields := [{ name := "kind", access := .item }, { name := "size", access := .item }]
  maker := .mapping

/-- Two boxes, to be sorted by their sizes. -/
private def boxes : Query .inMemory where
  source := .list [.dict [(.str "kind", .str "x"), (.str "size", .int 2)],
    .dict [(.str "kind", .null), (.str "size", .int 1)]]
  schema := boxSchema
  keys := some [⟨.accessor ⟨boxSchema, [boxSchema.fields[1]]⟩, .ascending⟩]

/-- Stray commas and a chain that is named again. -/
theorem orderQuery_boxes : ∃ q₁ q₂ : Query .inMemory,
    (orderQuery {} (some boxes) (.text ("KIND desc,," ++ "," ++ " size ,kind"))).result = .ok q₂ ∧
    (orderQuery {} (some boxes) (.text "KIND desc,,")).result = .ok q₁ ∧
    (extendQuery {} (some q₁) (.text " size ,kind")).result = .ok (some q₂) ∧
    q₁.sortKeys? = some [("kind", true)] ∧
    q₂.sortKeys? = some [("kind", true), ("size", false), ("kind", false)] := by
  obtain ⟨hwhole, hcut⟩ := orderQuery_append_comma rfl boxes "KIND desc,," " size ,kind"
  obtain ⟨q₂, h⟩ : ∃ q₂, (orderQuery {} (some boxes)
      (.text ("KIND desc,," ++ "," ++ " size ,kind"))).result = .ok q₂ := ⟨_, rfl⟩
  obtain ⟨q₁, h₁, h₂⟩ := hcut q₂ h (by decide) (by decide)
  obtain ⟨-, front, back, hfront, hback, hfirst, hboth, -⟩ := hwhole q₁ (some q₂) h₁ h₂
  cases hfront
  cases hback
  exact ⟨q₁, q₂, h, h₁, h₂, hfirst, hboth⟩

end Query
end RecordQuery
