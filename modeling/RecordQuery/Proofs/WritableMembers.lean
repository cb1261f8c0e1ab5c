import RecordQuery.Proofs.DataProjection
import RecordQuery.Proofs.PlainData

/-!
# Members that can be assigned

The schema of a class says of each member whether it can be assigned. If a record can be made
without values, then it can be made with a value for such a member unless one of a few obstacles
stands in the way (`Catalog.exists_new_iff`). The obstacles come from the schema taking a property
from the class nearest to the root while storing takes it from the nearest class, and from storing
through a property where the class is frozen.

Whether something can be stored under a name does not depend on what is stored
(`Value.exists_storeAttr`), so that a value does not turn up a failure that a default did not.
-/

namespace RecordQuery

variable {catalog : Catalog} {cls name : String}

/-! ### Storing another value -/

namespace Value

variable {attrs : List (String × Value)} {v : Value} {fuel : Nat}

theorem storeAttr_of_not_property (h : ∀ p, catalog.member? cls name ≠ some (.property p)) :
    storeAttr catalog cls attrs v fuel name = .ok (put attrs name v) := by
  unfold storeAttr
  split
  · exact absurd ‹_› (h _)
  · rfl

theorem storeAttr_of_no_setter {p : Property}
    (hp : catalog.member? cls name = some (.property p)) (hsetter : p.setter = none) :
    storeAttr catalog cls attrs v fuel name = fail .noAttribute := by
  unfold storeAttr
  simp only [hp, hsetter]

theorem storeAttr_zero_of_setter {p : Property} {a : String}
    (hp : catalog.member? cls name = some (.property p)) (hsetter : p.setter = some a) :
    storeAttr catalog cls attrs v 0 name = fail .tooDeep := by
  unfold storeAttr
  simp only [hp, hsetter]

theorem storeAttr_succ_of_setter {p : Property} {a : String}
    (hp : catalog.member? cls name = some (.property p)) (hsetter : p.setter = some a) :
    storeAttr catalog cls attrs v (fuel + 1) name =
      if isFrozen catalog cls a then fail .frozen else storeAttr catalog cls attrs v fuel a := by
  conv_lhs => unfold storeAttr
  simp only [hp, hsetter]

theorem exists_storeAttr {made : List (String × Value)}
    (h : storeAttr catalog cls attrs v fuel name = .ok made) (attrs' : List (String × Value))
    (v' : Value) : ∃ made', storeAttr catalog cls attrs' v' fuel name = .ok made' := by
  induction fuel generalizing name with
  | zero =>
    by_cases hproperty : ∃ p, catalog.member? cls name = some (.property p)
    · obtain ⟨p, hp⟩ := hproperty
      cases hsetter : p.setter with
      | none => cases (storeAttr_of_no_setter hp hsetter).symm.trans h
      | some a => cases (storeAttr_zero_of_setter hp hsetter).symm.trans h
    · exact ⟨_, storeAttr_of_not_property (not_exists.1 hproperty)⟩
  | succ fuel ih =>
    by_cases hproperty : ∃ p, catalog.member? cls name = some (.property p)
    · obtain ⟨p, hp⟩ := hproperty
      cases hsetter : p.setter with
      | none => cases (storeAttr_of_no_setter hp hsetter).symm.trans h
      | some a =>
        rw [storeAttr_succ_of_setter hp hsetter] at h ⊢
        by_cases hfrozen : isFrozen catalog cls a = true
        · rw [if_pos hfrozen] at h
          cases h
        · rw [if_neg hfrozen] at h ⊢
          exact ih h
    · exact ⟨_, storeAttr_of_not_property (not_exists.1 hproperty)⟩

end Value

namespace Catalog

theorem isSome_stored? {given : List (String × Value)} {f : FieldDecl} (h : HasValue given f) :
    (stored? f (given.lookup f.name)).isSome = f.blank?.isSome := by
  rw [stored?, FieldDecl.blank?]
  split
  · rename_i hinitial
    rcases h hinitial with hgiven | hdefault
    · obtain ⟨v, hv⟩ := Option.isSome_iff_exists.1 hgiven
      rw [hv]
      rfl
    · obtain ⟨v, hv⟩ := Option.isSome_iff_exists.1 hdefault
      cases hgiven : given.lookup f.name <;> simp [hv]
  · rfl

theorem exists_storeField {given given' attrs made : List (String × Value)} {f : FieldDecl}
    (h : catalog.storeField cls given attrs f = .ok made) (hvalue' : HasValue given' f)
    (attrs' : List (String × Value)) :
    ∃ made', catalog.storeField cls given' attrs' f = .ok made' := by
  have hvalue : HasValue given f := by
    by_contra hnone
    cases (storeField_eq_error hnone).symm.trans h
  have hsome := (isSome_stored? hvalue).trans (isSome_stored? hvalue').symm
  rw [storeField_eq hvalue] at h
  rw [storeField_eq hvalue']
  cases hstored : stored? f (given.lookup f.name) with
  | none =>
    rw [hstored, Option.isSome_none, eq_comm, Option.isSome_eq_false_iff,
      Option.isNone_iff_eq_none] at hsome
    exact ⟨attrs', by rw [hsome]; rfl⟩
  | some v =>
    rw [hstored, Option.isSome_some, eq_comm, Option.isSome_iff_exists] at hsome
    obtain ⟨v', hv'⟩ := hsome
    rw [hstored] at h
    rw [hv']
    exact Value.exists_storeAttr h attrs' v'

theorem exists_foldlM_storeField {given given' attrs made : List (String × Value)}
    {fields : List FieldDecl} (h : fields.foldlM (catalog.storeField cls given) attrs = .ok made)
    (hvalue : ∀ f ∈ fields, HasValue given' f) (attrs' : List (String × Value)) :
    ∃ made', fields.foldlM (catalog.storeField cls given') attrs' = .ok made' := by
  induction fields generalizing attrs attrs' with
  | nil => exact ⟨attrs', rfl⟩
  | cons f fields ih =>
    rw [List.forall_mem_cons] at hvalue
    obtain ⟨attrs₁, hf, h⟩ := Except.bind_eq_ok.1 h
    obtain ⟨attrs₁', hf'⟩ := exists_storeField hf hvalue.1 attrs'
    obtain ⟨made', h'⟩ := ih h hvalue.2 attrs₁'
    exact ⟨made', Except.bind_eq_ok.2 ⟨attrs₁', hf', h'⟩⟩

/-! ### Assigning -/

/-- What the setter of the member stores into is no property. -/
def SetterStores (catalog : Catalog) (cls name : String) : Prop :=
  ∀ p a, catalog.member? cls name = some (.property p) → p.setter = some a →
    ∀ p', catalog.member? cls a ≠ some (.property p')

theorem propertyCount_pos {p : Property} (h : catalog.member? cls name = some (.property p)) :
    0 < catalog.propertyCount := by
  obtain ⟨c, hc, hp, -⟩ := exists_of_member? h
  have hsum : catalog.propertyCount = (catalog.classes.map (·.properties.length)).sum := by
    simp only [propertyCount, List.sum_eq_foldl, List.foldl_map]
  rw [hsum, List.sum_pos_iff_exists_pos_nat]
  exact ⟨_, List.mem_map_of_mem (mem_of_mem_lineageIn hc), List.length_pos_of_mem hp⟩

/-- An attribute can be assigned unless the class forbids it, or what its setter does. -/
theorem exists_assign_iff (hstores : catalog.SetterStores cls name) (serial : Nat)
    (attrs : List (String × Value)) (v : Value) :
    (∃ w, (Value.record cls serial attrs).assign catalog name v = .ok w) ↔
      Value.isFrozen catalog cls name = false ∧
        ∀ p, catalog.member? cls name = some (.property p) →
          ∃ a, p.setter = some a ∧ Value.isFrozen catalog cls a = false := by
  rw [Value.assign, Value.assignAttr]
  cases hfrozen : Value.isFrozen catalog cls name with
  | true => simp [fail]
  | false =>
    simp only [Bool.false_eq_true, if_false, true_and]
    by_cases hproperty : ∃ p, catalog.member? cls name = some (.property p)
    · obtain ⟨p, hp⟩ := hproperty
      cases hsetter : p.setter with
      | none =>
        rw [Value.storeAttr_of_no_setter hp hsetter]
        refine iff_of_false (by simp [fail]) fun h => ?_
        obtain ⟨a, ha, -⟩ := h p hp
        cases hsetter.symm.trans ha
      | some a =>
        obtain ⟨fuel, hfuel⟩ := Nat.exists_eq_add_one.2 (propertyCount_pos hp)
        rw [hfuel, Value.storeAttr_succ_of_setter hp hsetter]
        cases hfrozen' : Value.isFrozen catalog cls a with
        | true =>
          refine iff_of_false (by simp [fail]) fun h => ?_
          obtain ⟨a', ha', hfree⟩ := h p hp
          cases hsetter.symm.trans ha'
          cases hfrozen'.symm.trans hfree
        | false =>
          rw [Value.storeAttr_of_not_property (hstores p a hp hsetter)]
          refine iff_of_true ⟨_, rfl⟩ fun p' hp' => ?_
          cases hp.symm.trans hp'
          exact ⟨a, hsetter, hfrozen'⟩
    · rw [Value.storeAttr_of_not_property (not_exists.1 hproperty)]
      exact iff_of_true ⟨_, rfl⟩ fun p hp => absurd ⟨p, hp⟩ hproperty

/-! ### Making a record with one value -/

/-- The constructor of the nearest data class takes a field of this name. -/
def IsInitial (catalog : Catalog) (cls name : String) : Prop :=
  ∃ f ∈ catalog.dataFields cls, f.initial = true ∧ f.name = name

theorem dataFields_eq_nil (h : catalog.dataClass? cls = none) : catalog.dataFields cls = [] := by
  have hplain : (catalog.lineage cls).filter (·.isData) = [] := by
    rw [dataClass?, List.find?_eq_none] at h
    rw [List.filter_eq_nil_iff]
    exact fun c hc => h c (List.mem_reverse.2 hc)
  simp [dataFields, hplain]

/-- A class that is no data class has no fields, so nothing is special about it. -/
theorem newInstance_eq (catalog : Catalog) (cls : String) (values : List (String × Value)) :
    catalog.newInstance cls values =
      catalog.construct cls [] (constructorArguments (catalog.dataFields cls) values) >>= fun v =>
        catalog.assignAll v
          (values.filter (!isArgument (catalog.dataFields cls) values ·.1)) := by
  rw [newInstance]
  cases h : catalog.dataClass? cls with
  | some c => rfl
  | none =>
    have hnone (n : String) : isArgument [] values n = false := rfl
    simp [dataFields_eq_nil h, constructorArguments, hnone]

theorem eq_record_of_construct {args : List Value} {named : List (String × Value)} {w : Value}
    (h : catalog.construct cls args named = .ok w) : ∃ attrs, w = .record cls 0 attrs := by
  cases hcls : catalog.construction? cls with
  | none =>
    simp only [construct, hcls] at h
    split at h
    · cases h
      exact ⟨[], rfl⟩
    · cases h
  | some c =>
    cases c with
    | byFields =>
      rw [construct_eq hcls] at h
      split at h
      · cases h
      · obtain ⟨attrs, -, h⟩ := Except.bind_eq_ok.1 h
        cases h
        exact ⟨attrs, rfl⟩
    | «by» c =>
      simp only [construct, hcls] at h
      split at h
      · split at h
        · obtain ⟨attrs, -, h⟩ := Except.bind_eq_ok.1 h
          cases h
          exact ⟨attrs, rfl⟩
        · cases h
      · cases h

/-- A constructor that the class brings along insists on exactly what it is called with. -/
theorem exists_construct_iff {c : Constructor}
    (hcls : catalog.construction? cls = some (.by c)) {named : List (String × Value)} :
    (∃ w, catalog.construct cls [] named = .ok w) ↔
      (∀ n, n ∈ named.map (·.1) ↔ n ∈ c.required) ∧
        ∃ made, c.stored.foldlM
          (fun attrs (n, v) => Value.assignAttr catalog cls attrs n v) [] = .ok made := by
  by_cases hknown : ∀ e ∈ named, e.1 ∈ c.required
  · have hbind := bindArguments?_named hknown
    simp only [construct, hcls, hbind]
    by_cases hgiven : ∀ n ∈ c.required, n ∈ named.map (·.1)
    · have hall : (c.required.all fun n => named.any (·.1 == n)) = true := by
        simpa using hgiven
      rw [if_pos hall]
      constructor
      · rintro ⟨w, hw⟩
        obtain ⟨made, hmade, -⟩ := Except.bind_eq_ok.1 hw
        refine ⟨fun n => ⟨fun hn => ?_, hgiven n⟩, made, hmade⟩
        obtain ⟨e, he, rfl⟩ := List.mem_map.1 hn
        exact hknown e he
      · rintro ⟨-, made, hmade⟩
        exact ⟨_, Except.bind_eq_ok.2 ⟨made, hmade, rfl⟩⟩
    · have hall : ¬ (c.required.all fun n => named.any (·.1 == n)) = true := by
        simpa using hgiven
      rw [if_neg hall]
      exact iff_of_false (by simp [fail]) fun h => hgiven fun n hn => (h.1 n).2 hn
  · have hbind : bindArguments? c.required [] named = none := by
      simpa [bindArguments?] using hknown
    simp only [construct, hcls, hbind]
    exact iff_of_false (by simp [fail]) fun h =>
      hknown fun e he => (h.1 e.1).1 (List.mem_map_of_mem he)

theorem isArgument_singleton_iff {fields : List FieldDecl} {v : Value} {n : String} :
    isArgument fields [(name, v)] n = true ↔
      isArgument fields [] n = true ∨
        (n = name ∧ ∃ f ∈ fields, f.initial = true ∧ f.name = name) := by
  have hargument (f : FieldDecl) : (argument? [(name, v)] f).isSome = true ↔
      (argument? [] f).isSome = true ∨ f.name = name := by
    by_cases hname : f.name = name
    · simp [argument?, hname]
    · simp [argument?, List.lookup_cons, beq_false_of_ne hname, hname]
  simp only [isArgument_iff, hargument]
  constructor
  · rintro ⟨f, hf, hinitial, hsome | hname, rfl⟩
    · exact .inl ⟨f, hf, hinitial, hsome, rfl⟩
    · exact .inr ⟨hname, f, hf, hinitial, hname⟩
  · rintro (⟨f, hf, hinitial, hsome, hname⟩ | ⟨rfl, f, hf, hinitial, hname⟩)
    · exact ⟨f, hf, hinitial, .inl hsome, hname⟩
    · exact ⟨f, hf, hinitial, .inr hname, hname⟩

theorem mem_constructorArguments_iff {fields : List FieldDecl} {values : List (String × Value)}
    {n : String} :
    n ∈ (constructorArguments fields values).map (·.1) ↔ isArgument fields values n = true := by
  simp [isArgument]

theorem newInstance_nil (catalog : Catalog) (cls : String) :
    catalog.newInstance cls [] =
      catalog.construct cls [] (constructorArguments (catalog.dataFields cls) []) := by
  rw [newInstance_eq]
  cases catalog.construct cls [] (constructorArguments (catalog.dataFields cls) []) <;> rfl

theorem isArgument_nil_iff {f : FieldDecl} (hf : f ∈ catalog.dataFields cls)
    (hinitial : f.initial = true) :
    isArgument (catalog.dataFields cls) [] f.name = true ↔ f.default = none := by
  have hargument (g : FieldDecl) : (argument? [] g).isSome = true ↔ g.default = none := by
    cases hdefault : g.default <;> simp [argument?, hdefault]
  simp only [isArgument_iff, hargument]
  constructor
  · rintro ⟨g, hg, -, hdefault, hname⟩
    rw [← List.inj_on_of_nodup_map (nodup_dataFields catalog cls) hg hf hname]
    exact hdefault
  · intro hdefault
    exact ⟨f, hf, hinitial, hdefault, rfl⟩

variable {v : Value}

/-- A value for a field that the constructor takes is one of its arguments. A constructor that the
class brings along does not take it if the field has a default. -/
theorem exists_newInstance_of_initial (hempty : ∃ w, catalog.newInstance cls [] = .ok w)
    {f : FieldDecl} (hf : f ∈ catalog.dataFields cls) (hinitial : f.initial = true) :
    (∃ w, catalog.newInstance cls [(f.name, v)] = .ok w) ↔
      ∀ c, catalog.construction? cls = some (.by c) → f.default = none := by
  rw [newInstance_nil] at hempty
  have hargument : isArgument (catalog.dataFields cls) [(f.name, v)] f.name = true :=
    isArgument_singleton_iff.2 (.inr ⟨rfl, f, hf, hinitial, rfl⟩)
  have hnew : catalog.newInstance cls [(f.name, v)] =
      catalog.construct cls [] (constructorArguments (catalog.dataFields cls) [(f.name, v)]) := by
    rw [newInstance_eq]
    simp only [List.filter_cons, hargument]
    cases catalog.construct cls [] (constructorArguments (catalog.dataFields cls) [(f.name, v)]) <;>
      rfl
  rw [hnew]
  cases hcls : catalog.construction? cls with
  | none =>
    -- a class without a constructor has no fields
    have hdata : catalog.dataClass? cls = none := by
      rw [dataClass?, List.find?_eq_none]
      intro c hc hdata
      have hnone := List.findSome?_eq_none_iff.1 hcls c hc
      rw [if_pos hdata] at hnone
      cases hnone
    rw [dataFields_eq_nil hdata] at hf
    cases hf
  | some construction =>
    cases construction with
    | byFields =>
      refine iff_of_true ?_ fun c hc => by cases hc
      obtain ⟨w, hw⟩ := hempty
      rw [construct_constructorArguments hcls] at hw ⊢
      obtain ⟨made, hmade, -⟩ := Except.bind_eq_ok.1 hw
      obtain ⟨made', hmade'⟩ := exists_foldlM_storeField hmade
        (fun g hg => hasValue_constructorArguments [(f.name, v)] hg) []
      exact ⟨_, Except.bind_eq_ok.2 ⟨made', hmade', rfl⟩⟩
    | «by» c =>
      obtain ⟨hrequired, hmade⟩ := (exists_construct_iff hcls).1 hempty
      have hrequired' (n : String) : n ∈ c.required ↔
          isArgument (catalog.dataFields cls) [] n = true :=
        (hrequired n).symm.trans mem_constructorArguments_iff
      simp only [exists_construct_iff hcls, mem_constructorArguments_iff, isArgument_singleton_iff,
        hrequired', and_iff_left hmade, Option.some.injEq, Construction.by.injEq, forall_eq']
      rw [← isArgument_nil_iff hf hinitial]
      constructor
      · intro h
        exact (h f.name).1 (.inr ⟨rfl, f, hf, hinitial, rfl⟩)
      · rintro h n
        exact or_iff_left_of_imp fun hn => hn.1 ▸ h

theorem exists_newInstance_of_not_isInitial (hempty : ∃ w, catalog.newInstance cls [] = .ok w)
    (hinitial : ¬ catalog.IsInitial cls name) (hstores : catalog.SetterStores cls name) :
    (∃ w, catalog.newInstance cls [(name, v)] = .ok w) ↔
      Value.isFrozen catalog cls name = false ∧
        ∀ p, catalog.member? cls name = some (.property p) →
          ∃ a, p.setter = some a ∧ Value.isFrozen catalog cls a = false := by
  have harguments : constructorArguments (catalog.dataFields cls) [(name, v)] =
      constructorArguments (catalog.dataFields cls) [] := by
    refine List.filterMap_congr fun f hf => ?_
    obtain ⟨hf, hf'⟩ := List.mem_filter.1 hf
    have hname : f.name ≠ name := fun hname => hinitial ⟨f, hf, hf', hname⟩
    rw [List.lookup_cons, beq_false_of_ne hname]
  have hargument : isArgument (catalog.dataFields cls) [(name, v)] name = false := by
    rw [Bool.eq_false_iff, ne_eq, isArgument_iff]
    rintro ⟨f, hf, hf', -, hname⟩
    exact hinitial ⟨f, hf, hf', hname⟩
  obtain ⟨w, hw⟩ := hempty
  rw [newInstance_nil] at hw
  obtain ⟨attrs, rfl⟩ := eq_record_of_construct hw
  have hassign : catalog.newInstance cls [(name, v)] =
      (Value.record cls 0 attrs).assign catalog name v := by
    rw [newInstance_eq, harguments, hw, Except.ok_bind, List.filter_cons, hargument]
    exact bind_pure _
  rw [hassign, exists_assign_iff hstores]

/-! ### Members that the schema says can be assigned -/

/-- What keeps a member from being given a value, although the schema may say that it can be
assigned. -/
inductive Obstructs (catalog : Catalog) (cls name : String) : Prop
  /-- The name is taken by the record's schema. -/
  | reserved (hname : name = Schema.reservedName)
  /-- The class brings a constructor along, which does not take a field with a default. -/
  | constructor {f : FieldDecl} {c : Constructor} (hf : f ∈ catalog.dataFields cls)
    (hinitial : f.initial = true) (hname : f.name = name) (hdefault : f.default.isSome = true)
    (hcls : catalog.construction? cls = some (.by c))
  /-- The nearest class that declares the name has a property without a setter there. -/
  | readOnly {p : Property} (hinitial : ¬ catalog.IsInitial cls name)
    (hp : catalog.member? cls name = some (.property p)) (hsetter : p.setter = none)
  /-- The class is a frozen one and the name is not that of a field. -/
  | frozen (hfield : name ∉ (catalog.dataFields cls).map (·.name))
    (hfrozen : Value.isFrozen catalog cls name = true)
  /-- The setter stores into a field of a frozen class. -/
  | frozenSetter {p : Property} {a : String} (hfield : name ∉ (catalog.dataFields cls).map (·.name))
    (hp : catalog.member? cls name = some (.property p)) (hsetter : p.setter = some a)
    (hfrozen : Value.isFrozen catalog cls a = true)

theorem name_not_mem_of_mem_propertyFields {seen : List String} {f : Field}
    (hf : f ∈ catalog.propertyFields cls seen) : f.name ∉ seen := by
  obtain ⟨e, he, rfl⟩ := List.mem_map.1 hf
  clear hf
  revert e
  refine List.foldlRecOn
    (motive := fun fields : List (String × Field) => ∀ e ∈ fields, e.2.name ∉ seen) _ _
    nofun fun fields ih p _ => ?_
  split
  · exact ih
  · rename_i hnew
    simp only [Bool.or_eq_true, not_or] at hnew
    intro e he
    rcases List.mem_append.1 he with he | he
    · exact ih e he
    · rw [List.mem_singleton.1 he]
      simpa using hnew.1.2

/-- A field that the constructor does not take can be assigned only if the class is not frozen. -/
theorem isFrozenClass_of_writable {f : Field} (hf : f ∈ (catalog.schemaOf (.record cls)).fields)
    (hwritable : f.writable = true) (hinitial : ¬ catalog.IsInitial cls f.name)
    (hfield : f.name ∈ (catalog.dataFields cls).map (·.name)) :
    catalog.isFrozenClass cls = false := by
  have hdata : (catalog.dataClass? cls).isSome = true := by
    by_contra hnone
    rw [Option.not_isSome_iff_eq_none] at hnone
    rw [dataFields_eq_nil hnone] at hfield
    cases hfield
  rw [(schemaOf_of_dataClass? hdata).2] at hf
  rcases List.mem_append.1 hf with hf | hf
  · obtain ⟨g, hg, rfl⟩ := List.mem_map.1 hf
    have hg' : g.initial ≠ true := fun h => hinitial ⟨g, hg, h, rfl⟩
    simpa [fieldMember, hg'] using hwritable
  · exact absurd hfield (name_not_mem_of_mem_propertyFields hf)

theorem new_eq_newInstance {s : Schema} (hmaker : s.maker = .instance cls)
    {values : List (String × Value)} (h : ∀ e ∈ values, e.1 ≠ Schema.reservedName) :
    s.new catalog values = catalog.newInstance cls values := by
  have hany : values.any (·.1 == Schema.reservedName) = false := by
    rw [List.any_eq_false]
    intro e he
    simpa using h e he
  rw [Schema.new, hany, hmaker]
  rfl

/-- A record can be made with a value for an assignable member unless something is in the way. -/
theorem exists_new_singleton_iff (hmaker : (catalog.schemaOf (.record cls)).maker = .instance cls)
    (hempty : ∃ w, (catalog.schemaOf (.record cls)).new catalog [] = .ok w) {f : Field}
    (hf : f ∈ (catalog.schemaOf (.record cls)).fields) (hwritable : f.writable = true)
    (hstores : catalog.SetterStores cls f.name) :
    (∃ w, (catalog.schemaOf (.record cls)).new catalog [(f.name, v)] = .ok w) ↔
      ¬ catalog.Obstructs cls f.name := by
  by_cases hreserved : f.name = Schema.reservedName
  · refine iff_of_false ?_ (not_not_intro (.reserved hreserved))
    simp [Schema.new, hreserved, fail]
  rw [new_eq_newInstance hmaker (by simp)] at hempty
  rw [new_eq_newInstance hmaker (by simpa using hreserved)]
  by_cases hinitial : catalog.IsInitial cls f.name
  · obtain ⟨g, hg, hg', hname⟩ := id hinitial
    rw [← hname, exists_newInstance_of_initial hempty hg hg']
    have hfield : g.name ∈ (catalog.dataFields cls).map (·.name) := List.mem_map_of_mem hg
    constructor
    · intro h hobstructs
      cases hobstructs with
      | reserved hname' => exact hreserved (hname ▸ hname')
      | constructor hg₁ _ hname₁ hdefault hcls =>
        cases List.inj_on_of_nodup_map (nodup_dataFields catalog cls) hg₁ hg hname₁
        rw [h _ hcls] at hdefault
        cases hdefault
      | readOnly hnot _ _ => exact hnot (hname ▸ hinitial)
      | frozen hnot _ => exact hnot hfield
      | frozenSetter hnot _ _ _ => exact hnot hfield
    · intro h c hcls
      by_contra hdefault
      exact h (.constructor hg hg' rfl (Option.isSome_iff_ne_none.2 hdefault) hcls)
  · rw [exists_newInstance_of_not_isInitial hempty hinitial hstores]
    constructor
    · rintro ⟨hfree, hproperty⟩ hobstructs
      cases hobstructs with
      | reserved hname => exact hreserved hname
      | constructor hg hg' hname _ _ => exact hinitial ⟨_, hg, hg', hname⟩
      | readOnly _ hp hsetter =>
        obtain ⟨a, ha, -⟩ := hproperty _ hp
        cases hsetter.symm.trans ha
      | frozen _ hfrozen => cases hfree.symm.trans hfrozen
      | frozenSetter _ hp hsetter hfrozen =>
        obtain ⟨a, ha, hfree'⟩ := hproperty _ hp
        cases hsetter.symm.trans ha
        cases hfree'.symm.trans hfrozen
    · intro hobstructs
      -- what is a field and can be assigned is not in a frozen class
      have hfield (n : String) (h : Value.isFrozen catalog cls n = true) :
          f.name ∉ (catalog.dataFields cls).map (·.name) := by
        intro hmem
        have hclass := isFrozenClass_of_writable hf hwritable hinitial hmem
        cases (isFrozen_of_isFrozenClass hclass n).symm.trans h
      refine ⟨?_, fun p hp => ?_⟩
      · by_contra hfrozen
        rw [Bool.not_eq_false] at hfrozen
        exact hobstructs (.frozen (hfield _ hfrozen) hfrozen)
      · cases hsetter : p.setter with
        | none => exact absurd (.readOnly hinitial hp hsetter) hobstructs
        | some a =>
          refine ⟨a, rfl, ?_⟩
          by_contra hfrozen
          rw [Bool.not_eq_false] at hfrozen
          exact hobstructs (.frozenSetter (hfield _ hfrozen) hp hsetter hfrozen)

/-- **Assignable members.** If a record of a class can be made without values, then it can be made
with a value for a member that its schema says can be assigned, unless one of the obstacles is in
the way; and the same goes for the members that projection plans bind. -/
theorem exists_new_iff (hmaker : (catalog.schemaOf (.record cls)).maker = .instance cls)
    (hempty : ∃ w, (catalog.schemaOf (.record cls)).new catalog [] = .ok w) :
    (∀ f ∈ (catalog.schemaOf (.record cls)).fields, f.writable = true →
      catalog.SetterStores cls f.name → ∀ v,
        ((∃ w, (catalog.schemaOf (.record cls)).new catalog [(f.name, v)] = .ok w) ↔
          ¬ catalog.Obstructs cls f.name)) ∧
    ∀ s, ∀ b ∈ (ProjectionPlan.between s (catalog.schemaOf (.record cls))).bindings,
      catalog.SetterStores cls b.name → ∀ v,
        ((∃ w, (catalog.schemaOf (.record cls)).new catalog [(b.name, v)] = .ok w) ↔
          ¬ catalog.Obstructs cls b.name) := by
  constructor
  · intro f hf hwritable hstores v
    exact exists_new_singleton_iff hmaker hempty hf hwritable hstores
  · intro s b hb hstores v
    obtain ⟨f, hf, hb⟩ := List.mem_filterMap.1 hb
    have hwritable : f.writable = true := by
      unfold Binding.ofTarget? at hb
      split at hb
      · cases hb
      · rename_i hnot
        simpa using hnot
    have htarget : b.name = f.name := by rw [Binding.name, (Binding.eq_of_ofTarget? hb).1]
    rw [htarget] at hstores ⊢
    exact exists_new_singleton_iff hmaker hempty hf hwritable hstores

private def balance : Property where
  name := "balance"
  type := some (.builtin .int)
  getter := some (.attr "_balance")
  setter := some "_balance"

/-- Accounts, and closed accounts, whose balance can be read only. -/
private def bank : Catalog where
  classes := [
    { name := "Closed", kind := .plain, base := some "Account",
      properties := [{ balance with setter := none }] },
    { name := "Account", kind := .plain, properties := [balance] }]

private def balanceMember : Field where
  name := "balance"
  type := .builtin .int

/-- The class nearest to the root decides what the balance is. -/
private theorem fields_bank (cls : String) (hcls : cls = "Account" ∨ cls = "Closed") :
    (bank.schemaOf (.record cls)).fields = [balanceMember] := by
  have hvisible : isPrivate balance.name = false := by decide +kernel
  rcases hcls with rfl | rfl
  · have hfields : (bank.schemaOf (.record "Account")).fields =
        bank.propertyFields "Account" [] := rfl
    have hproperties : (bank.lineage "Account").flatMap (·.properties) = [balance] := rfl
    rw [hfields, propertyFields, hproperties]
    simp only [List.foldl_cons, List.foldl_nil, hvisible]
    rfl
  · have hfields : (bank.schemaOf (.record "Closed")).fields =
        bank.propertyFields "Closed" [] := rfl
    have hproperties : (bank.lineage "Closed").flatMap (·.properties) =
        [balance, { balance with setter := none }] := rfl
    rw [hfields, propertyFields, hproperties]
    simp only [List.foldl_cons, List.foldl_nil, hvisible]
    rfl

private theorem setterStores_balance (cls : String) (hcls : cls = "Account" ∨ cls = "Closed") :
    bank.SetterStores cls "balance" := by
  rintro p a hp ha p' hp'
  rcases hcls with rfl | rfl
  · cases hp
    cases ha
    cases hp'
  · cases hp
    cases ha

/-- The balance of an account can be given any value. -/
theorem exists_new_account : balanceMember ∈ (bank.schemaOf (.record "Account")).fields ∧
    balanceMember.writable = true ∧ bank.SetterStores "Account" "balance" ∧
    ∀ v, ∃ w, (bank.schemaOf (.record "Account")).new bank [("balance", v)] = .ok w := by
  have hmem : balanceMember ∈ (bank.schemaOf (.record "Account")).fields := by
    rw [fields_bank "Account" (.inl rfl)]
    exact .head _
  have hstores := setterStores_balance "Account" (.inl rfl)
  refine ⟨hmem, rfl, hstores, fun v => ?_⟩
  refine ((exists_new_iff rfl ⟨_, rfl⟩).1 balanceMember hmem rfl hstores v).2 fun h => ?_
  cases h with
  | reserved hname => exact absurd hname (by decide)
  | constructor hf _ _ _ _ => cases hf
  | readOnly _ hp hsetter =>
    cases hp
    cases hsetter
  | frozen _ hfrozen => cases hfrozen
  | frozenSetter _ hp hsetter hfrozen =>
    cases hp
    cases hsetter
    cases hfrozen

/-- The schema of closed accounts says the same of their balance, which cannot be assigned. -/
theorem new_closed : balanceMember ∈ (bank.schemaOf (.record "Closed")).fields ∧
    balanceMember.writable = true ∧ bank.SetterStores "Closed" "balance" ∧
    (∃ w, (bank.schemaOf (.record "Closed")).new bank [] = .ok w) ∧
    (bank.schemaOf (.record "Closed")).new bank [("balance", .int 5)] = fail .noAttribute := by
  refine ⟨?_, rfl, setterStores_balance "Closed" (.inr rfl), ⟨_, rfl⟩, rfl⟩
  rw [fields_bank "Closed" (.inr rfl)]
  exact .head _

end Catalog
end RecordQuery
