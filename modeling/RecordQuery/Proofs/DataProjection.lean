import RecordQuery.Proofs.DataConstruction

/-!
# Projections into data classes

A projection into a data class copies a value into each field that can be assigned and that the
source has a readable member for, and leaves the other fields to the class
(`ProjectionPlan.apply_between_record`). The plan has one binding for each bound field, in the order
of the fields (`ProjectionPlan.bindings_between_record`), and reading and converting stops at the
first one that fails.
-/

namespace RecordQuery

namespace Catalog

/-- The type of a field that its class declares, with references looked up. -/
def declaredType (catalog : Catalog) (cls : String) (f : FieldDecl) : TypeExpr :=
  ((catalog.annotations cls).lookup f.name).getD f.type

/-- Is the class, or the data class nearest to it, a frozen one? -/
def isFrozenClass (catalog : Catalog) (cls : String) : Bool :=
  match catalog.dataClass? cls with
  | some { kind := .data frozen _, .. } => frozen
  | _ => false

/-- The field as a member of the schema of its class. -/
def fieldMember (catalog : Catalog) (cls : String) (f : FieldDecl) : Field where
  name := f.name
  type := catalog.declaredType cls f
  writable := f.initial || !catalog.isFrozenClass cls

/-- A field is bound to a member of the source: it can be given to the constructor or assigned, and
the member is the one of its name in the source, which can be read. -/
structure Binds (catalog : Catalog) (s : Schema) (cls : String) (f : FieldDecl) (g : Field) :
    Prop where
  writable : f.initial = true ∨ catalog.isFrozenClass cls = false
  found : s.get? f.name = some g
  readable : g.readable = true

/-- The value that a field gets from the member that it is bound to. It is converted if the declared
types differ. -/
def copiedValue (catalog : Catalog) (cls : String) (f : FieldDecl) (g : Field) (x : Value) :
    Except Error Value := do
  let v ← g.read catalog x
  if g.type.same (catalog.declaredType cls f) then return v
  else Coercion.apply catalog ⟨g.type, catalog.declaredType cls f⟩ f.name v

/-- The class and its bases declare no property that can be assigned. -/
def NothingSettable (catalog : Catalog) (cls : String) : Prop :=
  ∀ c ∈ catalog.lineage cls, ∀ p ∈ c.properties, p.setter = none

variable {catalog : Catalog} {cls : String} {s : Schema} {f : FieldDecl} {g : Field}

theorem writable_of_mem_propertyFields {seen : List String} (h : catalog.NothingSettable cls)
    {f : Field} (hf : f ∈ catalog.propertyFields cls seen) : f.writable = false := by
  obtain ⟨e, he, rfl⟩ := List.mem_map.1 hf
  clear hf
  revert e
  refine List.foldlRecOn
    (motive := fun fields : List (String × Field) => ∀ e ∈ fields, e.2.writable = false) _ _
    nofun fun fields ih p hp => ?_
  obtain ⟨c, hc, hp⟩ := List.mem_flatMap.1 hp
  split
  · exact ih
  · intro e he
    rcases List.mem_append.1 he with he | he
    · exact ih e he
    · rw [List.mem_singleton.1 he, h c hc p hp]
      rfl

/-- The schema of a data class, or of a class that is derived from one. -/
theorem schemaOf_of_dataClass? (h : (catalog.dataClass? cls).isSome = true) :
    (catalog.schemaOf (.record cls)).maker = .instance cls ∧
      (catalog.schemaOf (.record cls)).fields =
        (catalog.dataFields cls).map (catalog.fieldMember cls) ++
          catalog.propertyFields cls ((catalog.dataFields cls).map (·.name)) := by
  obtain ⟨c, hc⟩ := Option.isSome_iff_exists.1 h
  have hkind : c.isData = true := by simpa using List.find?_some hc
  obtain ⟨name, kind⟩ := c
  cases kind with
  | data frozen ordered =>
    have hmember : catalog.fieldMember cls = fun f : FieldDecl =>
        { name := f.name, type := ((catalog.annotations cls).lookup f.name).getD f.type,
          writable := f.initial || !frozen } := by
      funext f
      simp [fieldMember, isFrozenClass, hc, declaredType]
    simp only [schemaOf, classSchema, hc, dataMembers, hmember]
    exact ⟨trivial, trivial⟩
  | plain | mapping => cases hkind

theorem schemaOf_record (hcls : catalog.construction? cls = some .byFields) :
    (catalog.schemaOf (.record cls)).maker = .instance cls ∧
      ∃ seen, (catalog.schemaOf (.record cls)).fields =
        (catalog.dataFields cls).map (catalog.fieldMember cls) ++
          catalog.propertyFields cls seen :=
  (schemaOf_of_dataClass? (isSome_dataClass? hcls)).imp_right fun h => ⟨_, h⟩

theorem isFrozen_of_isFrozenClass (h : catalog.isFrozenClass cls = false) (name : String) :
    Value.isFrozen catalog cls name = false := by
  unfold isFrozenClass at h
  unfold Value.isFrozen
  split at h
  · rename_i hc
    rw [hc]
    subst h
    rfl
  · rename_i hc
    split
    · exact absurd ‹_› (hc _ _ _ _ _ _ _)
    · rfl

/-- The binding that a plan has for a field. -/
def binding? (catalog : Catalog) (s : Schema) (cls : String) (f : FieldDecl) : Option Binding :=
  Binding.ofTarget? s (catalog.fieldMember cls f)

/-- The binding of a bound field gives the value that the field gets. -/
theorem Binds.binding? (h : catalog.Binds s cls f g) :
    ∃ b, catalog.binding? s cls f = some b ∧ b.name = f.name ∧
      ∀ x, b.valueFrom catalog x = catalog.copiedValue cls f g x := by
  have hwritable : (catalog.fieldMember cls f).writable = true := by
    simpa [fieldMember] using h.writable
  have hfound : s.get? (catalog.fieldMember cls f).name = some g := h.found
  simp only [Catalog.binding?, Binding.ofTarget?, hwritable, hfound, h.readable, Bool.not_true,
    Bool.false_eq_true, if_false, if_true]
  refine ⟨_, rfl, rfl, fun x => ?_⟩
  rw [Binding.valueFrom, copiedValue]
  refine bind_congr fun v => ?_
  by_cases hsame : g.type.same (catalog.declaredType cls f) = true
  · simp [fieldMember, hsame]
  · simp [fieldMember, hsame, Binding.name]

theorem exists_binds {b : Binding} (h : catalog.binding? s cls f = some b) :
    ∃ g, catalog.Binds s cls f g := by
  unfold binding? Binding.ofTarget? at h
  split at h
  · cases h
  · rename_i hwritable
    split at h
    · rename_i g hfound
      split at h
      · rename_i hreadable
        simp only [fieldMember, Bool.not_eq_true', Bool.not_eq_false, Bool.or_eq_true] at hwritable
        exact ⟨g, hwritable, hfound, hreadable⟩
      · cases h
    · cases h

end Catalog

namespace ProjectionPlan

variable {catalog : Catalog} {cls : String} {s : Schema} {x : Value}

/-- The bindings of a plan, in the order of the fields that they are for. -/
theorem bindings_between_record (hcls : catalog.construction? cls = some .byFields)
    (h : catalog.NothingSettable cls) (s : Schema) :
    (between s (catalog.schemaOf (.record cls))).bindings =
      (catalog.dataFields cls).filterMap (catalog.binding? s cls) := by
  obtain ⟨-, seen, hfields⟩ := Catalog.schemaOf_record hcls
  have hproperties : (catalog.propertyFields cls seen).filterMap (Binding.ofTarget? s) = [] := by
    refine List.filterMap_eq_nil_iff.2 fun f hf => ?_
    simp [Binding.ofTarget?, Catalog.writable_of_mem_propertyFields h hf]
  rw [between, hfields, List.filterMap_append, hproperties, List.append_nil, List.filterMap_map]
  rfl

/-- The value that is copied into a field, if it is bound and its value can be read and
converted. -/
def copied? (catalog : Catalog) (s : Schema) (cls : String) (x : Value) (f : FieldDecl) :
    Option Value :=
  (catalog.binding? s cls f).bind fun b => (b.valueFrom catalog x).toOption

theorem copied?_of_binds {f : FieldDecl} {g : Field} (h : catalog.Binds s cls f g) :
    copied? catalog s cls x f = (catalog.copiedValue cls f g x).toOption := by
  obtain ⟨b, hb, -, hvalue⟩ := h.binding?
  rw [copied?, hb, Option.bind_some, hvalue]

theorem copied?_of_not_binds {f : FieldDecl} (h : ∀ g, ¬ catalog.Binds s cls f g) :
    copied? catalog s cls x f = none := by
  cases hb : catalog.binding? s cls f with
  | none => rw [copied?, hb, Option.bind_none]
  | some b =>
    obtain ⟨g, hg⟩ := Catalog.exists_binds hb
    exact absurd hg (h g)

/-- Reading and converting the values of all bound fields. -/
def Copies (catalog : Catalog) (s : Schema) (cls : String) (x : Value) (fields : List FieldDecl) :
    Prop :=
  ∀ f ∈ fields, ∀ g, catalog.Binds s cls f g → ∃ v, catalog.copiedValue cls f g x = .ok v

theorem foldlM_values {fields : List FieldDecl} (entries : List (String × Value))
    (hnodup : (entries.map (·.1) ++ fields.map (·.name)).Nodup)
    (h : Copies catalog s cls x fields) :
    (fields.filterMap (catalog.binding? s cls)).foldlM
        (fun all b => do return put all b.name (← b.valueFrom catalog x)) entries =
      .ok (entries ++ entriesBy (·.name) (copied? catalog s cls x) fields) := by
  induction fields generalizing entries with
  | nil => simp [entriesBy]
  | cons f fields ih =>
    obtain ⟨hf, h⟩ := List.forall_mem_cons.1 h
    cases hb : catalog.binding? s cls f with
    | none =>
      have hcopied : copied? catalog s cls x f = none := by rw [copied?, hb, Option.bind_none]
      rw [List.filterMap_cons_none hb, ih entries (hnodup.sublist (by simp)) h]
      simp [entriesBy, hcopied]
    | some b =>
      obtain ⟨g, hg⟩ := Catalog.exists_binds hb
      obtain ⟨v, hv⟩ := hf g hg
      obtain ⟨b', hb', hname, hvalue⟩ := hg.binding?
      cases hb.symm.trans hb'
      have hcopied : copied? catalog s cls x f = some v := by rw [copied?_of_binds hg, hv]; rfl
      have hnew : b.name ∉ entries.map (·.1) := fun hmem =>
        (List.nodup_append.1 hnodup).2.2 _ hmem _ (by simp [hname]) rfl
      rw [List.filterMap_cons_some hb, List.foldlM_cons, hvalue, hv]
      change (_ : List Binding).foldlM _ (put entries b.name v) = _
      rw [put_of_not_mem hnew, hname, ih (entries ++ [(f.name, v)]) (by simpa using hnodup) h]
      simp [entriesBy, hcopied]

/-- The values of the bindings are read and converted in order, up to the first that fails. -/
theorem foldlM_values_eq_error {before after : List FieldDecl} {f : FieldDecl} {g : Field}
    {e : Error} (h : Copies catalog s cls x before) (hf : catalog.Binds s cls f g)
    (he : catalog.copiedValue cls f g x = .error e) (entries : List (String × Value)) :
    ((before ++ f :: after).filterMap (catalog.binding? s cls)).foldlM
        (fun all b => do return put all b.name (← b.valueFrom catalog x)) entries = .error e := by
  induction before generalizing entries with
  | nil =>
    obtain ⟨b, hb, -, hvalue⟩ := hf.binding?
    rw [List.nil_append, List.filterMap_cons_some hb, List.foldlM_cons, hvalue, he]
    rfl
  | cons f' before ih =>
    obtain ⟨hf', h⟩ := List.forall_mem_cons.1 h
    rw [List.cons_append]
    cases hb : catalog.binding? s cls f' with
    | none =>
      rw [List.filterMap_cons_none hb]
      exact ih h entries
    | some b =>
      obtain ⟨g', hg'⟩ := Catalog.exists_binds hb
      obtain ⟨v, hv⟩ := hf' g' hg'
      obtain ⟨b', hb', -, hvalue⟩ := hg'.binding?
      cases hb.symm.trans hb'
      rw [List.filterMap_cons_some hb, List.foldlM_cons, hvalue, hv]
      exact ih h (put entries b.name v)

/-- If the value of a bound field cannot be read or converted, there is a first such field. -/
theorem exists_first_failing {fields : List FieldDecl} (h : ¬ Copies catalog s cls x fields) :
    ∃ before f after g e, fields = before ++ f :: after ∧ Copies catalog s cls x before ∧
      catalog.Binds s cls f g ∧ catalog.copiedValue cls f g x = .error e := by
  induction fields with
  | nil => exact absurd nofun h
  | cons f fields ih =>
    by_cases hf : ∀ g, catalog.Binds s cls f g → ∃ v, catalog.copiedValue cls f g x = .ok v
    · have hfields : ¬ Copies catalog s cls x fields := fun hfields =>
        h (List.forall_mem_cons.2 ⟨hf, hfields⟩)
      obtain ⟨before, f', after, g, e, rfl, hbefore, hg, he⟩ := ih hfields
      exact ⟨f :: before, f', after, g, e, rfl, List.forall_mem_cons.2 ⟨hf, hbefore⟩, hg, he⟩
    · simp only [not_forall, not_exists] at hf
      obtain ⟨g, hg, hfails⟩ := hf
      cases he : catalog.copiedValue cls f g x with
      | ok v => exact absurd he (hfails v)
      | error e => exact ⟨[], f, fields, g, e, rfl, nofun, hg, he⟩

end ProjectionPlan

/-- A field that a value is copied into is bound. -/
theorem ProjectionPlan.exists_binds_of_copied? {catalog : Catalog} {s : Schema} {cls : String}
    {x v : Value} {f : FieldDecl} (h : copied? catalog s cls x f = some v) :
    ∃ g, catalog.Binds s cls f g := by
  obtain ⟨b, hb, -⟩ := Option.bind_eq_some_iff.1 h
  exact Catalog.exists_binds hb

/-- The attributes of a record that a projection into a data class makes. -/
structure Catalog.IsProjection (catalog : Catalog) (s : Schema) (cls : String) (x : Value)
    (attrs : List (String × Value)) : Prop where
  nodup : (attrs.map (·.1)).Nodup
  bound : ∀ f ∈ catalog.dataFields cls, ∀ g, catalog.Binds s cls f g →
    ∃ v, catalog.copiedValue cls f g x = .ok v ∧ attrs.lookup f.name = some v ∧
      catalog.attributeOf cls attrs f.name = .ok v
  default : ∀ f ∈ catalog.dataFields cls, (∀ g, ¬ catalog.Binds s cls f g) → f.initial = true →
    attrs.lookup f.name = some ((f.default.map Default.instantiate).getD .null)
  untouched : ∀ f ∈ catalog.dataFields cls, (∀ g, ¬ catalog.Binds s cls f g) → f.initial = false →
    ∀ args named made, catalog.construct cls args named = .ok (.record cls 0 made) →
      attrs.lookup f.name = made.lookup f.name
  others : ∀ n, (∀ f ∈ catalog.dataFields cls, f.name ≠ n) → attrs.lookup n = none

/-- An instance whose fields hold what is copied into them, or what they are blank with, is what the
projection makes. -/
theorem Catalog.isProjection_of_lookup {catalog : Catalog} {s : Schema} {cls : String} {x : Value}
    {attrs : List (String × Value)} (hcls : catalog.construction? cls = some .byFields)
    (hcovered : catalog.FieldsUncovered cls)
    (hcopies : ProjectionPlan.Copies catalog s cls x (catalog.dataFields cls))
    (hnodup : (attrs.map (·.1)).Nodup)
    (hlookup : ∀ f ∈ catalog.dataFields cls,
      attrs.lookup f.name = (ProjectionPlan.copied? catalog s cls x f).or f.blank?)
    (hothers : ∀ n, (∀ f ∈ catalog.dataFields cls, f.name ≠ n) → attrs.lookup n = none) :
    catalog.IsProjection s cls x attrs := by
  refine ⟨hnodup, fun f hf g hg => ?_, fun f hf hunbound hinitial => ?_,
    fun f hf hunbound hinitial args named made hmade => ?_, hothers⟩
  · obtain ⟨v, hv⟩ := hcopies f hf g hg
    have hstored : attrs.lookup f.name = some v := by
      rw [hlookup f hf, ProjectionPlan.copied?_of_binds hg, hv]
      rfl
    exact ⟨v, hv, hstored, attributeOf_of_lookup hcovered hf hstored⟩
  · rw [hlookup f hf, ProjectionPlan.copied?_of_not_binds hunbound, FieldDecl.blank?,
      if_pos hinitial]
    rfl
  · rw [hlookup f hf, ProjectionPlan.copied?_of_not_binds hunbound, Option.none_or,
      lookup_of_construct hcls hcovered hmade hf hinitial]

/-- **Projection into a data class.** If the values of all bound fields can be read and converted,
the projection is an instance of the class that holds these values in the bound fields; the other
fields have their defaults, or what the constructor leaves there, and nothing else is stored.
Otherwise the projection fails like the first of the bound fields that fails. -/
theorem ProjectionPlan.apply_between_record {catalog : Catalog} {cls : String}
    (hcls : catalog.construction? cls = some .byFields) (hsettable : catalog.NothingSettable cls)
    (hcovered : catalog.FieldsUncovered cls)
    (hself : ∀ f ∈ catalog.dataFields cls, f.name ≠ Schema.reservedName) (s : Schema) (x : Value) :
    ((∀ f ∈ catalog.dataFields cls, ∀ g, catalog.Binds s cls f g →
        ∃ v, catalog.copiedValue cls f g x = .ok v) →
      ∃ attrs, (between s (catalog.schemaOf (.record cls))).apply catalog x =
        .ok (.record cls 0 attrs) ∧ catalog.IsProjection s cls x attrs) ∧
    ((∃ f ∈ catalog.dataFields cls, ∃ g, catalog.Binds s cls f g ∧
        ∃ e, catalog.copiedValue cls f g x = .error e) →
      ∃ before f after g e, catalog.dataFields cls = before ++ f :: after ∧
        (∀ f' ∈ before, ∀ g', catalog.Binds s cls f' g' →
          ∃ v, catalog.copiedValue cls f' g' x = .ok v) ∧
        catalog.Binds s cls f g ∧ catalog.copiedValue cls f g x = .error e ∧
        (between s (catalog.schemaOf (.record cls))).apply catalog x = .error e) := by
  have hbindings := bindings_between_record hcls hsettable s
  have hnodup := Catalog.nodup_dataFields catalog cls
  constructor
  · intro hcopies
    have hvalues : (between s (catalog.schemaOf (.record cls))).values catalog x =
        .ok (entriesBy (·.name) (copied? catalog s cls x) (catalog.dataFields cls)) := by
      rw [values, hbindings, foldlM_values [] hnodup hcopies]
      rfl
    obtain ⟨hmaker, -⟩ := Catalog.schemaOf_record hcls
    have hvalues' : ∀ e ∈ entriesBy (·.name) (copied? catalog s cls x) (catalog.dataFields cls),
        ∃ f ∈ catalog.dataFields cls, f.name = e.1 ∧
          (f.initial = true ∨ Value.isFrozen catalog cls e.1 = false) := by
      intro e he
      obtain ⟨f, hf, he⟩ := List.mem_filterMap.1 he
      obtain ⟨v, hv, rfl⟩ := Option.map_eq_some_iff.1 he
      obtain ⟨g, hg⟩ := exists_binds_of_copied? hv
      exact ⟨f, hf, rfl, hg.writable.imp_right fun h => Catalog.isFrozen_of_isFrozenClass h f.name⟩
    obtain ⟨attrs, hnew, hnames, hlookup, hothers⟩ :=
      Catalog.newInstance_eq_ok hcls hcovered (keys_entriesBy_sublist.nodup hnodup) hvalues'
    refine ⟨attrs, ?_, Catalog.isProjection_of_lookup hcls hcovered hcopies hnames
      (fun f hf => by rw [hlookup f hf, lookup_entriesBy hnodup hf]) hothers⟩
    have hreserved : (entriesBy (·.name) (copied? catalog s cls x)
        (catalog.dataFields cls)).any (·.1 == Schema.reservedName) = false := by
      rw [List.any_eq_false]
      intro e he
      obtain ⟨f, hf, hname, -⟩ := hvalues' e he
      simpa [← hname] using hself f hf
    have htarget : (between s (catalog.schemaOf (.record cls))).target.maker = .instance cls :=
      hmaker
    rw [apply, hvalues, Except.ok_bind, Schema.new, hreserved]
    simp only [htarget, hnew]
    rfl
  · rintro ⟨f, hf, g, hg, e, he⟩
    have hfails : ¬ Copies catalog s cls x (catalog.dataFields cls) := by
      intro h
      obtain ⟨v, hv⟩ := h f hf g hg
      cases he.symm.trans hv
    obtain ⟨before, f, after, g, e, hfields, hbefore, hg, he⟩ := exists_first_failing hfails
    refine ⟨before, f, after, g, e, hfields, hbefore, hg, he, ?_⟩
    rw [apply, values, hbindings, hfields, foldlM_values_eq_error hbefore hg he]
    rfl

namespace ProjectionPlan

private def age : FieldDecl where
  name := "age"
  type := .builtin .int

private def code : FieldDecl where
  name := "code"
  type := .builtin .str

private def level : FieldDecl where
  name := "level"
  type := .builtin .int
  default := some (.value (.int 3))

private def tags : FieldDecl where
  name := "tags"
  type := .builtin .list
  default := some .newList
  initial := false

/-- Guests, and visitors, whose age is a text. -/
private def register : Catalog where
  classes := [
    { name := "Guest", kind := .data false false, fields := [age, code, level, tags] },
    { name := "Visitor", kind := .data false false,
      fields := [{ name := "age", type := .builtin .str }] }]

private def visitors : Schema := register.schemaOf (.record "Visitor")

private def guests : Schema := register.schemaOf (.record "Guest")

private def visitor (age : String) : Value := .record "Visitor" 0 [("age", .str age)]

/-- The age is converted, a code is missing, a level is the default, and tags are new; but an age
that is no number fails. -/
theorem apply_guest :
    register.construction? "Guest" = some .byFields ∧ register.NothingSettable "Guest" ∧
      register.FieldsUncovered "Guest" ∧
      (∀ f ∈ register.dataFields "Guest", f.name ≠ Schema.reservedName) ∧
      (∃ attrs, (between visitors guests).apply register (visitor "7") =
          .ok (.record "Guest" 0 attrs) ∧
        attrs.lookup "age" = some (.int 7) ∧ attrs.lookup "code" = some .null ∧
        attrs.lookup "level" = some (.int 3) ∧ attrs.lookup "tags" = some (.list [])) ∧
      ∃ e, (between visitors guests).apply register (visitor "old") = .error e := by
  have hcls : register.construction? "Guest" = some .byFields := rfl
  have hproperties : ∀ c ∈ register.lineage "Guest", c.properties = [] := by
    intro c hc
    cases List.mem_singleton.1 hc
    rfl
  have hsettable : register.NothingSettable "Guest" := by
    intro c hc p hp
    rw [hproperties c hc] at hp
    cases hp
  have hcovered : register.FieldsUncovered "Guest" := by
    intro c hc p hp
    rw [hproperties c hc] at hp
    cases hp
  have hself : ∀ f ∈ register.dataFields "Guest", f.name ≠ Schema.reservedName := by decide
  have happly := apply_between_record hcls hsettable hcovered hself visitors
  have hage : register.Binds visitors "Guest" age { name := "age", type := .builtin .str } :=
    ⟨.inl rfl, rfl, rfl⟩
  have hbound : ∀ f ∈ [age, code, level, tags], ∀ g, register.Binds visitors "Guest" f g →
      f = age ∧ g = { name := "age", type := .builtin .str } := by
    intro f hf g h
    have hfound := h.found
    simp only [List.mem_cons, List.not_mem_nil, or_false] at hf
    rcases hf with rfl | rfl | rfl | rfl <;> cases hfound
    exact ⟨rfl, rfl⟩
  have hmem : age ∈ [age, code, level, tags] ∧ code ∈ [age, code, level, tags] ∧
      level ∈ [age, code, level, tags] ∧ tags ∈ [age, code, level, tags] := by simp
  have hunbound : ∀ f ∈ [age, code, level, tags], f.name ≠ "age" →
      ∀ g, ¬ register.Binds visitors "Guest" f g := by
    intro f hf hname g h
    exact hname (by rw [(hbound f hf g h).1]; rfl)
  refine ⟨hcls, hsettable, hcovered, hself, ?_, ?_⟩
  · have hcopies : ∀ f ∈ register.dataFields "Guest", ∀ g, register.Binds visitors "Guest" f g →
        ∃ v, register.copiedValue "Guest" f g (visitor "7") = .ok v := by
      intro f hf g h
      obtain ⟨rfl, rfl⟩ := hbound f hf g h
      exact ⟨.int 7, rfl⟩
    obtain ⟨attrs, hattrs, hprojection⟩ := (happly (visitor "7")).1 hcopies
    obtain ⟨v, hv, hlookup, -⟩ := hprojection.bound age hmem.1 _ hage
    cases hv
    refine ⟨attrs, hattrs, hlookup,
      hprojection.default code hmem.2.1 (hunbound code hmem.2.1 (by decide)) rfl,
      hprojection.default level hmem.2.2.1 (hunbound level hmem.2.2.1 (by decide)) rfl,
      hprojection.untouched tags hmem.2.2.2 (hunbound tags hmem.2.2.2 (by decide)) rfl
        [.int 1, .str "c"] [] _ rfl⟩
  · obtain ⟨-, -, -, -, e, -, -, -, -, he⟩ :=
      (happly (visitor "old")).2 ⟨age, hmem.1, _, hage, _, rfl⟩
    exact ⟨e, he⟩

/-- A source with two members of one name, of which only the second can be read. -/
private def doubled : Schema where
  key := .declared "Doubled"
  name := "Doubled"
  fields := [{ name := "age", type := .builtin .int, readable := false, access := .item },
    { name := "age", type := .builtin .int, access := .item }]

/-- The first member of a name stands for all of them: that the second one can be read and has a
value does not bind the field. -/
theorem apply_hidden_member :
    age ∈ register.dataFields "Guest" ∧ age.initial = true ∧
      (∃ g ∈ doubled.fields, g.name = age.name ∧ g.readable = true ∧
        g.type.same (register.declaredType "Guest" age) = true ∧
        g.read register (.dict [(.str "age", .int 5)]) = .ok (.int 5)) ∧
      ∃ attrs, (between doubled guests).apply register (.dict [(.str "age", .int 5)]) =
        .ok (.record "Guest" 0 attrs) ∧ attrs.lookup age.name = some .null :=
  ⟨.head _, rfl, ⟨_, .tail _ (.head _), rfl, rfl, rfl, rfl⟩, _, rfl, rfl⟩

end ProjectionPlan
end RecordQuery
