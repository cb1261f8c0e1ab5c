import RecordQuery.Proofs.CopiedMembers
import RecordQuery.Proofs.OrderingText
import RecordQuery.Proofs.SessionAnswers
import RecordQuery.Proofs.TableSchema
import RecordQuery.Proofs.WritableMembers

/-!
# Chains of declared names

However a chain is written, the declared names of the members that it leads through are a chain
that leads through the same members, and nothing is ambiguous in it (`Directory.follow_own`). So a
resolved chain resolves to itself, as the list of its names, and as its dotted text if these are
names that such a text can hold (`Directory.resolveChain_own`).

A member that was found is the only candidate for its own name if no member that can be read stands
behind one of the same name that cannot (`Schema.NoneHidden`). The schemas of declared classes have
no two members of one name (`Catalog.nodup_classSchema`), and all columns can be read, so this only
has to be asked of the schemas that were made by hand.
-/

namespace RecordQuery

/-! ### Members found under their own names -/

/-- Two searches find the same if what each finds is what the other looks for. -/
theorem eq_of_find? {α : Type} {p q : α → Bool} {xs : List α} {x y : α} (hx : xs.find? p = some x)
    (hy : xs.find? q = some y) (hqx : q x = true) (hpy : p y = true) : x = y := by
  induction xs with
  | nil => cases hx
  | cons z xs ih =>
    rw [List.find?_cons] at hx hy
    cases hp : p z with
    | true =>
      rw [hp] at hx
      cases hx
      rw [hqx] at hy
      exact Option.some.inj hy
    | false =>
      cases hq : q z with
      | true =>
        rw [hq] at hy
        cases hy
        cases hp.symm.trans hpy
      | false =>
        rw [hp] at hx
        rw [hq] at hy
        exact ih hx hy

namespace Schema

variable {s : Schema} {name : String} {f g : Field} {fs : List Field}

/-- No member that can be read stands behind one of its name that cannot. -/
def NoneHidden (s : Schema) : Prop :=
  ∀ f ∈ s.fields, f.readable = true → ∃ g, s.get? f.name = some g ∧ g.readable = true

theorem noneHidden_of_nodup (h : s.names.Nodup) : s.NoneHidden :=
  fun f hf hreadable => ⟨f, find?_of_nodup h hf, hreadable⟩

theorem noneHidden_of_readable (h : ∀ f ∈ s.fields, f.readable = true) : s.NoneHidden := by
  intro f hf _
  cases hg : s.get? f.name with
  | none => exact absurd (beq_self_eq_true f.name) (List.find?_eq_none.1 hg f hf)
  | some g => exact ⟨g, rfl, h g (List.mem_of_find?_eq_some hg)⟩

theorem noneHidden_ofColumns (key : SchemaKey) (name : String)
    (columns : List (String × ColumnType)) : (Schema.ofColumns key name columns).NoneHidden :=
  noneHidden_of_readable (readable_of_mem_ofColumns key name columns)

/-- A readable member of exactly the name is the only candidate. -/
theorem candidates_of_readable (h : s.get? name = some f) (hreadable : f.readable = true) :
    s.candidates name = [f] := by
  simp only [candidates, h, hreadable, if_true]

/-- **A member that was found is found again under its own name**, and nothing else is. -/
theorem candidates_own (hs : s.NoneHidden) (h : s.candidates name = f :: fs) :
    s.candidates f.name = [f] := by
  have hfolded : ∀ {folded}, folded = s.fields.filter
      (fun f => f.readable && Text.sameFold f.name name) → folded = f :: fs →
      s.candidates f.name = [f] := by
    rintro _ rfl hfilter
    have hf := List.mem_filter.1 (hfilter ▸ List.mem_cons_self : f ∈ s.fields.filter _)
    simp only [Bool.and_eq_true] at hf
    obtain ⟨g, hg, hreadable⟩ := hs f hf.1 hf.2.1
    have hname : g.name = f.name := by simpa using List.find?_some hg
    have hfirst : s.fields.find? (fun f => f.readable && Text.sameFold f.name name) = some f := by
      rw [← List.head?_filter, hfilter]
      rfl
    have hpassed : (g.readable && Text.sameFold g.name name) = true := by
      rw [hreadable, hname, hf.2.2]
      rfl
    cases eq_of_find? hfirst hg (beq_self_eq_true f.name) hpassed
    exact candidates_of_readable hg hreadable
  cases hg : s.get? name with
  | none => exact hfolded rfl (by simpa only [candidates, hg] using h)
  | some g =>
    cases hreadable : g.readable with
    | true =>
      rw [candidates_of_readable hg hreadable] at h
      cases h
      have hname : f.name = name := by simpa using List.find?_some hg
      rw [hname]
      exact candidates_of_readable hg hreadable
    | false =>
      refine hfolded rfl ?_
      simpa only [candidates, hg, hreadable, Bool.false_eq_true, if_false] using h

end Schema

/-! ### Schemas of declared types -/

namespace Catalog

variable (catalog : Catalog) (cls : String)

theorem nodup_propertyFields (seen : List String) :
    ((catalog.propertyFields cls seen).map (·.name)).Nodup := by
  rw [propertyFields, List.map_map]
  refine (List.foldlRecOn
    (motive := fun fields : List (String × Field) =>
      (fields.map ((·.name) ∘ (·.2))).Nodup ∧ ∀ e ∈ fields, e.2.name = e.1) _ _ ?_ ?_).1
  · exact ⟨List.nodup_nil, fun e he => absurd he List.not_mem_nil⟩
  intro fields ih p _
  split
  · exact ih
  · rename_i hnew
    simp only [Bool.or_eq_true, not_or, List.any_eq_true, not_exists, not_and] at hnew
    have hnotin : ∀ e ∈ fields, e.1 ≠ p.name := fun e he heq => hnew.2 e he (beq_iff_eq.2 heq)
    rw [List.map_append, List.nodup_append]
    refine ⟨⟨ih.1, by simp, fun n hn n' hn' heq => ?_⟩, fun e he => ?_⟩
    · obtain ⟨e, he, rfl⟩ := List.mem_map.1 hn
      rw [List.mem_singleton.1 hn'] at heq
      exact hnotin e he ((ih.2 e he).symm.trans heq)
    · rcases List.mem_append.1 he with he | he
      · exact ih.2 e he
      · rw [List.mem_singleton.1 he]

/-- Members followed by the properties that are not among them. -/
theorem nodup_append_propertyFields {fields : List Field} {seen : List String}
    (hfields : (fields.map (·.name)).Nodup) (hseen : fields.map (·.name) = seen) :
    ((fields ++ catalog.propertyFields cls seen).map (·.name)).Nodup := by
  rw [List.map_append, List.nodup_append]
  refine ⟨hfields, nodup_propertyFields catalog cls seen, ?_⟩
  rintro n hn n' hn' rfl
  obtain ⟨f, hf, rfl⟩ := List.mem_map.1 hn'
  exact name_not_mem_of_mem_propertyFields hf (hseen ▸ hn)

/-- **A declared class exposes no two members of one name.** -/
theorem nodup_classSchema : (catalog.classSchema cls).names.Nodup := by
  have hannotations := catalog.nodup_annotations cls
  rw [classSchema]
  split
  · refine nodup_append_propertyFields catalog cls ?_ ?_
    · simpa [Function.comp_def] using catalog.nodup_dataFields cls
    · simp
  · split
    · simpa [Schema.names, mappingMembers, Function.comp_def] using hannotations
    · refine nodup_append_propertyFields catalog cls ?_ ?_
      · simpa [Function.comp_def] using (List.filter_sublist.map _).nodup hannotations
      · simp

variable {catalog} in
/-- In the schema of a type no readable member is hidden if none is in the schemas made by hand. -/
theorem noneHidden_schemaOf (hmade : ∀ e ∈ catalog.schemas, e.2.NoneHidden) (t : TypeExpr) :
    (catalog.schemaOf t).NoneHidden := by
  cases t with
  | record cls => exact Schema.noneHidden_of_nodup (catalog.nodup_classSchema cls)
  | schema name members =>
    rw [schemaOf, declaredSchema?]
    cases h : catalog.schemas.lookup name with
    | none => exact Schema.noneHidden_of_nodup List.nodup_nil
    | some s =>
      obtain ⟨front, back, hschemas, -⟩ := List.lookup_eq_some_iff.1 h
      exact hmade (name, s) (by simp [hschemas])
  | _ => exact Schema.noneHidden_of_nodup List.nodup_nil

end Catalog

/-! ### Resolved chains -/

namespace Directory

variable {d d' : Directory} {s : Schema} {position : Nat} {names : List String} {a : Accessor}
  {chain : ChainRequest}

theorem noneHidden_of_enter (hmade : ∀ e ∈ d.catalog.schemas, e.2.NoneHidden) {f : Field}
    {owner : Schema} (h : (d.enter f).result = .ok owner) : owner.NoneHidden := by
  obtain ⟨u, -, h⟩ := Except.bind_eq_ok.1 h
  cases h
  unfold memberSchema
  cases f.nesting with
  | declaredType => exact Catalog.noneHidden_schemaOf hmade _
  | struct name => exact Schema.noneHidden_ofColumns _ _ _
  | given name => exact Catalog.noneHidden_schemaOf hmade _

/-- **The declared names along a chain lead the same way**, and none of them is ambiguous. -/
theorem follow_own (hmade : ∀ e ∈ d.catalog.schemas, e.2.NoneHidden) (hs : s.NoneHidden)
    {found : Resolution} (h : (d.follow s position names).result = .ok found) :
    (d.follow s position (found.fields.map (·.name))).result = .ok ⟨found.fields, []⟩ := by
  induction names generalizing s position found with
  | nil =>
    cases h
    rfl
  | cons name names ih =>
    cases hfound : s.candidates name with
    | nil =>
      rw [follow_of_candidates_nil hfound] at h
      cases h
    | cons f fs =>
      have hown := Schema.candidates_own hs hfound
      cases names with
      | nil =>
        rw [follow_last hfound] at h
        cases h
        rw [List.map_singleton, follow_last hown]
        rfl
      | cons name' names =>
        rw [result_follow_step hfound (List.cons_ne_nil name' names)] at h
        obtain ⟨owner, howner, h⟩ := Except.bind_eq_ok.1 h
        obtain ⟨rest, hrest, h⟩ := Except.bind_eq_ok.1 h
        cases h
        have hne : rest.fields.map (·.name) ≠ [] := by
          refine List.ne_nil_of_length_pos ?_
          rw [List.length_map, length_of_follow hrest]
          exact Nat.succ_pos _
        rw [List.map_cons, result_follow_step hown hne, howner, Except.ok_bind,
          ih (noneHidden_of_enter hmade howner) hrest]
        rfl

/-- A resolved chain names a member, and the declared names along it resolve to the same, without
warnings. -/
theorem resolveNames_own (hmade : ∀ e ∈ d.catalog.schemas, e.2.NoneHidden) (hs : s.NoneHidden)
    (hne : names ≠ []) (h : (d.resolveNames s names).result = .ok a) :
    a.chain ≠ [] ∧ (d.resolveNames s a.chain).result = .ok a ∧
      (d.resolveNames s a.chain).warnings = [] := by
  rw [resolveNames_eq hne, Outcome.result_bind_eq_ok] at h
  obtain ⟨found, hfound, h⟩ := h
  cases h
  have hchain : found.fields.map (·.name) ≠ [] := by
    refine List.ne_nil_of_length_pos ?_
    rw [List.length_map, length_of_follow hfound]
    exact List.length_pos_iff.2 hne
  exact ⟨hchain, resolveNames_of_follow_ok hchain (follow_own hmade hs hfound)⟩

/-- A chain that is resolved consists of names. -/
theorem exists_names_of_resolveChain (h : (d.resolveChain s chain).result = .ok a) :
    ∃ names, chain.names? = some names ∧ names ≠ [] ∧
      (d.resolveNames s names).result = .ok a := by
  cases hnames : chain.names? with
  | some names =>
    have hne := ne_nil_of_resolveChain hnames h
    rw [resolveChain_eq hnames hne] at h
    exact ⟨names, rfl, hne, h⟩
  | none =>
    cases chain with
    | text written => cases hnames
    | values parts =>
      have hparts : parts.mapM name? = none := hnames
      rw [resolveChain, resolveValues, hparts] at h
      obtain ⟨u, -, h⟩ := Outcome.result_bind_eq_ok.1 h
      obtain ⟨found, -, h⟩ := Outcome.result_bind_eq_ok.1 h
      obtain ⟨last, -, h⟩ := Outcome.result_bind_eq_ok.1 h
      cases h

theorem names?_values (names : List String) :
    (ChainRequest.values (names.map .str)).names? = some names := by
  rw [ChainRequest.names?]
  induction names with
  | nil => rfl
  | cons name names ih => rw [List.map_cons, List.mapM_cons, ih, name?]; rfl

/-- **Resolution is canonical.** However a chain is written, it resolves to what the list of the
declared names along it resolves to, without warnings; and so does their dotted text, if the names
are such that a dotted text can hold them. This holds whatever was described in between, for every
type, if no readable member is hidden in the schemas that were made by hand. -/
theorem resolveChain_own (hcatalog : d.catalog = d'.catalog)
    (hmade : ∀ e ∈ d.catalog.schemas, e.2.NoneHidden) (t : TypeExpr) (chain : ChainRequest)
    (h : (d.resolveChain (d.schemaOf t) chain).result = .ok a) :
    (d'.resolveChain (d'.schemaOf t) (.values (a.chain.map .str))).result = .ok a ∧
    (d'.resolveChain (d'.schemaOf t) (.values (a.chain.map .str))).warnings = [] ∧
    ((∀ name ∈ a.chain, Chain.IsPathName name) →
      (d'.resolveChain (d'.schemaOf t) (.text a.path)).result = .ok a ∧
      (d'.resolveChain (d'.schemaOf t) (.text a.path)).warnings = []) := by
  obtain ⟨names, -, hne, hresult⟩ := exists_names_of_resolveChain h
  have hroot : (d.schemaOf t).NoneHidden := Catalog.noneHidden_schemaOf hmade _
  obtain ⟨hchain, hown, hwarnings⟩ := resolveNames_own hmade hroot hne hresult
  have hrequest : ∀ request : ChainRequest, request.names? = some a.chain →
      (d'.resolveChain (d'.schemaOf t) request).result = .ok a ∧
      (d'.resolveChain (d'.schemaOf t) request).warnings = [] := by
    intro request hnames
    have halike : Outcome.Alike (fun _ _ => True) (· = ·) (d.resolveChain (d.schemaOf t) request)
        (d'.resolveChain (d'.schemaOf t) request) :=
      resolveChain_alike request hcatalog (twin_schemaOf hcatalog t) (.inr trivial)
        fun _ _ => trivial
    rw [resolveChain_eq hnames hchain] at halike
    have hresult := halike.result
    rw [hown] at hresult
    obtain ⟨a', ha', rfl⟩ := hresult.exists_of_ok
    exact ⟨ha', halike.warnings.symm.trans hwarnings⟩
  obtain ⟨hvalues, hvaluesWarnings⟩ := hrequest _ (names?_values a.chain)
  refine ⟨hvalues, hvaluesWarnings, fun hpath => hrequest _ ?_⟩
  exact congrArg some (Chain.ofChars_toText_of_isPathName hchain hpath)

/-- Clubs have two members that differ in case only, each of them a place if there is one; forms
have an entry without a name. -/
private def clubs : Directory where
  catalog.classes := [
    { name := "Club", kind := .data false false,
      fields := [{ name := "seat", type := .union .named [.record "Venue", .nullType] },
        { name := "SEAT", type := .union .named [.record "Venue", .nullType] }] },
    { name := "Venue", kind := .data false false,
      fields := [{ name := "street", type := .builtin .str }] },
    { name := "Form", kind := .mapping, fields := [{ name := "", type := .builtin .int }] }]

private def clubSchema : Schema := clubs.schemaOf (.record "Club")

/-- The chain is ambiguous as it is written, and its declared names are not. -/
theorem resolveChain_own_seat :
    ∃ a, (clubs.resolveChain clubSchema (.text "Seat.STREET")).result = .ok a ∧
      (clubs.resolveChain clubSchema (.text "Seat.STREET")).warnings =
        [ambiguityWarning "Club" "Seat" ["seat", "SEAT"]] ∧
      a.chain = ["seat", "street"] ∧
      (clubs.resolveChain clubSchema (.values [.str "seat", .str "street"])).result = .ok a ∧
      (clubs.resolveChain clubSchema (.values [.str "seat", .str "street"])).warnings = [] ∧
      (clubs.resolveChain clubSchema (.text a.path)).result = .ok a ∧
      (clubs.resolveChain clubSchema (.text a.path)).warnings = [] := by
  have hresult : ∃ a, (clubs.resolveChain clubSchema (.text "Seat.STREET")).result = .ok a ∧
      a.chain = ["seat", "street"] := ⟨_, rfl, rfl⟩
  obtain ⟨a, ha, hchain⟩ := hresult
  obtain ⟨hvalues, hvaluesWarnings, htext⟩ :=
    @resolveChain_own clubs clubs a rfl nofun (.record "Club") (.text "Seat.STREET") ha
  have hnames : ∀ name ∈ a.chain, Chain.IsPathName name := by
    rw [hchain]
    simp only [List.forall_mem_cons]
    exact ⟨⟨by decide, by decide, rfl⟩, ⟨by decide, by decide, rfl⟩, nofun⟩
  rw [hchain] at hvalues hvaluesWarnings
  exact ⟨a, ha, rfl, hchain, hvalues, hvaluesWarnings, htext hnames⟩

/-- The entry of a form is found under its name, which is empty, but its dotted text names
nothing. -/
theorem resolveChain_own_nameless :
    ∃ a, (clubs.resolveChain (clubs.schemaOf (.record "Form")) (.values [.str ""])).result = .ok a ∧
      (∀ name ∈ a.chain, '.' ∉ name.toList ∧ Text.trim name.toList = name.toList) ∧
      (clubs.resolveChain (clubs.schemaOf (.record "Form")) (.text a.path)).result =
        .error (.emptyMemberChain (some "")) := by
  refine ⟨_, rfl, ?_, rfl⟩
  intro name hname
  cases List.mem_singleton.1 hname
  exact ⟨by simp, rfl⟩

end Directory
end RecordQuery
