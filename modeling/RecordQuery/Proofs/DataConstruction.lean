import Mathlib.Data.List.Nodup
import RecordQuery.Proofs.ColumnProjection

/-!
# New instances of data classes

An instance of a data class that is made from values for some of its fields holds these values, and
what its fields are left with in the others (`Catalog.newInstance_eq_ok`): the default for a field
that the constructor takes, null if there is none, and for another field what the constructor leaves
there (`Catalog.lookup_of_construct`). The fields have distinct names (`Catalog.nodup_dataFields`),
so storing one of them does not touch the others.
-/

namespace RecordQuery

/-! ### Entries by name -/

section

variable {α β : Type} {entries : List (String × β)}

theorem lookup_eq_none_of_not_mem {name : String} (h : name ∉ entries.map (·.1)) :
    entries.lookup name = none := by
  rw [List.lookup_eq_none_iff]
  intro e he
  rw [bne_iff_ne]
  rintro rfl
  exact h (List.mem_map_of_mem he)

theorem nodup_keys_put (h : (entries.map (·.1)).Nodup) (key : String) (value : β) :
    ((put entries key value).map (·.1)).Nodup := by
  rw [keys_put]
  split
  · exact h
  · rename_i hkey
    rw [List.nodup_append]
    refine ⟨h, by simp, ?_⟩
    rintro k hk k' hk' rfl
    exact hkey (List.mem_singleton.1 hk' ▸ hk)

theorem nodup_keys_foldl_put {more : List (String × β)} (h : (entries.map (·.1)).Nodup) :
    ((more.foldl (fun all e => put all e.1 e.2) entries).map (·.1)).Nodup := by
  induction more generalizing entries with
  | nil => exact h
  | cons e more ih => exact ih (nodup_keys_put h e.1 e.2)

/-- Setting distinct names changes the values of these names only. -/
theorem lookup_foldl_put {more : List (String × β)} (h : (more.map (·.1)).Nodup) (name : String) :
    (more.foldl (fun all e => put all e.1 e.2) entries).lookup name =
      (more.lookup name).or (entries.lookup name) := by
  induction more generalizing entries with
  | nil => rfl
  | cons e more ih =>
    rw [List.map_cons, List.nodup_cons] at h
    rw [List.foldl_cons, ih h.2, List.lookup_cons]
    by_cases hname : name = e.1
    · rw [hname, lookup_eq_none_of_not_mem h.1, lookup_put_self, beq_self_eq_true]
      rfl
    · rw [lookup_put_of_ne hname, beq_false_of_ne hname]

/-- The values of some items, each under the name of its item. -/
def entriesBy (name : α → String) (value : α → Option β) (xs : List α) : List (String × β) :=
  xs.filterMap fun x => (value x).map (name x, ·)

variable {name : α → String} {value : α → Option β} {xs : List α}

theorem keys_entriesBy_sublist : ((entriesBy name value xs).map (·.1)).Sublist (xs.map name) := by
  induction xs with
  | nil => exact .slnil
  | cons x xs ih =>
    cases hx : value x with
    | none => simpa [entriesBy, hx] using ih.cons (name x)
    | some v => simpa [entriesBy, hx] using ih.cons_cons (name x)

theorem lookup_entriesBy_of_not_mem {n : String} (h : ∀ x ∈ xs, name x ≠ n) :
    (entriesBy name value xs).lookup n = none := by
  refine lookup_eq_none_of_not_mem fun hn => ?_
  obtain ⟨x, hx, rfl⟩ := List.mem_map.1 (keys_entriesBy_sublist.mem hn)
  exact h x hx rfl

theorem lookup_entriesBy (hnodup : (xs.map name).Nodup) {x : α} (hx : x ∈ xs) :
    (entriesBy name value xs).lookup (name x) = value x := by
  induction xs with
  | nil => cases hx
  | cons y xs ih =>
    rw [List.map_cons, List.nodup_cons] at hnodup
    rcases List.mem_cons.1 hx with rfl | hx
    · have hrest : (entriesBy name value xs).lookup (name x) = none :=
        lookup_entriesBy_of_not_mem fun y hy heq => hnodup.1 (heq ▸ List.mem_map_of_mem hy)
      cases hv : value x with
      | none => simpa [entriesBy, hv] using hrest
      | some v => simp [entriesBy, hv]
    · have hne : name x ≠ name y := fun heq => hnodup.1 (heq ▸ List.mem_map_of_mem hx)
      cases hv : value y with
      | none => simpa [entriesBy, hv] using ih hnodup.2 hx
      | some v => simpa [entriesBy, hv, List.lookup_cons, beq_false_of_ne hne] using ih hnodup.2 hx

end

/-! ### Storing fields -/

/-- What a field of an instance holds that no value was given for, if it holds anything. -/
def FieldDecl.blank? (f : FieldDecl) : Option Value :=
  if f.initial then some ((f.default.map Default.instantiate).getD .null)
  else
    match f.default with
    | some .newList => some (.list [])
    | some .newDict => some (.dict [])
    | _ => none

namespace Catalog

variable {catalog : Catalog} {cls name : String} {attrs : List (String × Value)}

theorem nodup_dataFields (catalog : Catalog) (cls : String) :
    ((catalog.dataFields cls).map (·.name)).Nodup := by
  have hnames (declared : List FieldDecl) :
      ((declared.foldl (fun fields f => put fields f.name f) []).map (·.2.name)).Nodup := by
    have hkeys : ∀ e ∈ declared.foldl (fun fields f => put fields f.name f) [], e.2.name = e.1 := by
      refine List.foldlRecOn
        (motive := fun fields : List (String × FieldDecl) => ∀ e ∈ fields, e.2.name = e.1) _ _
        nofun fun fields ih f _ e he => ?_
      rcases mem_of_mem_put he with rfl | he
      · rfl
      · exact ih e he
    rw [List.map_congr_left hkeys]
    have h : (((declared.map fun f => (f.name, f)).foldl (fun all e => put all e.1 e.2) []).map
        (·.1)).Nodup := nodup_keys_foldl_put .nil
    rwa [List.foldl_map] at h
  rw [dataFields]
  refine (List.filter_sublist.map _).nodup ?_
  rw [List.map_map]
  exact hnames _

/-- No property of the class or its bases goes by the name of a field. -/
def FieldsUncovered (catalog : Catalog) (cls : String) : Prop :=
  ∀ c ∈ catalog.lineage cls, ∀ p ∈ c.properties, ∀ f ∈ catalog.dataFields cls, p.name ≠ f.name

/-- A property of the class is one that it or one of its bases declares. -/
theorem exists_of_member? {p : Property} (h : catalog.member? cls name = some (.property p)) :
    ∃ c ∈ catalog.lineage cls, p ∈ c.properties ∧ p.name = name := by
  obtain ⟨c, hc, hown⟩ := List.exists_of_findSome?_eq_some h
  unfold ownMember? at hown
  split at hown
  · rename_i p' hfound
    cases hown
    exact ⟨c, List.mem_reverse.1 hc, List.mem_reverse.1 (List.mem_of_find?_eq_some hfound),
      by simpa using List.find?_some hfound⟩
  · split at hown <;> cases hown

theorem FieldsUncovered.member?_ne_property (h : catalog.FieldsUncovered cls) {f : FieldDecl}
    (hf : f ∈ catalog.dataFields cls) (p : Property) :
    catalog.member? cls f.name ≠ some (.property p) := by
  intro hp
  obtain ⟨c, hc, hmem, hname⟩ := exists_of_member? hp
  exact h c hc p hmem f hf hname

theorem storeAttr_eq (h : catalog.FieldsUncovered cls) {f : FieldDecl}
    (hf : f ∈ catalog.dataFields cls) (attrs : List (String × Value)) (v : Value) (fuel : Nat) :
    Value.storeAttr catalog cls attrs v fuel f.name = .ok (put attrs f.name v) := by
  unfold Value.storeAttr
  split
  · rename_i p hp
    exact absurd hp (h.member?_ne_property hf p)
  · rfl

/-- What is stored for a field is what reading it gives. -/
theorem attributeOf_of_lookup (h : catalog.FieldsUncovered cls) {f : FieldDecl}
    (hf : f ∈ catalog.dataFields cls) {v : Value} (hv : attrs.lookup f.name = some v) :
    catalog.attributeOf cls attrs f.name = .ok v := by
  rw [attributeOf]
  unfold instanceAttr
  split
  · rename_i p hp
    exact absurd hp (h.member?_ne_property hf p)
  · rw [hv]
    rfl
  · rw [hv]

/-- What the constructor stores for a field that it is given `v?` for. -/
def stored? (f : FieldDecl) (v? : Option Value) : Option Value :=
  if f.initial then v?.or (f.default.map Default.instantiate) else f.blank?

/-- Is there something to store for the field, if the constructor takes it? -/
def HasValue (given : List (String × Value)) (f : FieldDecl) : Prop :=
  f.initial = true → (given.lookup f.name).isSome = true ∨ f.default.isSome = true

instance (given : List (String × Value)) (f : FieldDecl) : Decidable (HasValue given f) :=
  inferInstanceAs (Decidable (_ → _))

section

variable {given : List (String × Value)} {f : FieldDecl}

theorem storeField_eq (hvalue : HasValue given f) :
    catalog.storeField cls given attrs f =
      (stored? f (given.lookup f.name)).elim (.ok attrs) (catalog.store cls attrs f.name) := by
  obtain ⟨name, type, default, initial⟩ := f
  cases initial with
  | true =>
    cases hgiven : given.lookup name with
    | some v => simp [storeField, hgiven, stored?]
    | none =>
      cases default with
      | some v => simp [storeField, hgiven, stored?]
      | none => simp [HasValue, hgiven] at hvalue
  | false => rcases default with _ | v | v | _ | _ <;> rfl

theorem storeField_eq_ok (h : catalog.FieldsUncovered cls) (hf : f ∈ catalog.dataFields cls)
    (hvalue : HasValue given f) :
    catalog.storeField cls given attrs f =
      .ok ((stored? f (given.lookup f.name)).elim attrs (put attrs f.name)) := by
  rw [storeField_eq hvalue]
  cases stored? f (given.lookup f.name) with
  | none => rfl
  | some v => exact storeAttr_eq h hf attrs v _

theorem storeField_eq_error (hvalue : ¬ HasValue given f) :
    catalog.storeField cls given attrs f = fail .wrongType := by
  obtain ⟨name, type, default, initial⟩ := f
  cases initial with
  | false => simp [HasValue] at hvalue
  | true =>
    simp only [HasValue, forall_const, not_or, Bool.not_eq_true, Option.isSome_eq_false_iff,
      Option.isNone_iff_eq_none] at hvalue
    simp [storeField, hvalue.1, hvalue.2]

end

/-- Storing the fields of a new instance goes well if there is something to store for each field
that the constructor takes. -/
theorem foldlM_storeField (h : catalog.FieldsUncovered cls) {fields : List FieldDecl}
    (hfields : ∀ f ∈ fields, f ∈ catalog.dataFields cls) (attrs : List (String × Value))
    (hnodup : (attrs.map (·.1) ++ fields.map (·.name)).Nodup) (given : List (String × Value)) :
    fields.foldlM (catalog.storeField cls given) attrs =
      if ∀ f ∈ fields, HasValue given f then
        .ok (attrs ++ entriesBy (·.name) (fun f => stored? f (given.lookup f.name)) fields)
      else fail .wrongType := by
  induction fields generalizing attrs with
  | nil => simp [entriesBy]
  | cons f fields ih =>
    rw [List.forall_mem_cons] at hfields
    rw [List.foldlM_cons]
    by_cases hvalue : HasValue given f
    · rw [storeField_eq_ok h hfields.1 hvalue, Except.ok_bind]
      cases hstored : stored? f (given.lookup f.name) with
      | none =>
        rw [Option.elim_none, ih hfields.2 attrs (hnodup.sublist (by simp))]
        simp [entriesBy, hvalue, hstored]
      | some v =>
        have hname : f.name ∉ attrs.map (·.1) := fun hmem =>
          (List.nodup_append.1 hnodup).2.2 _ hmem _ (by simp) rfl
        rw [Option.elim_some, put_of_not_mem hname,
          ih hfields.2 (attrs ++ [(f.name, v)]) (by simpa using hnodup)]
        simp [entriesBy, hvalue, hstored]
    · rw [storeField_eq_error hvalue, if_neg fun hall => hvalue (hall f List.mem_cons_self)]
      rfl

/-! ### Calling the class -/

theorem bindArguments?_named {params : List String} {named : List (String × Value)}
    (h : ∀ e ∈ named, e.1 ∈ params) : bindArguments? params [] named = some named := by
  have hall : ∀ (n : String) (v : Value), (n, v) ∈ named → n ∈ params := fun n v hn => h (n, v) hn
  simpa [bindArguments?] using hall

theorem construct_eq (hcls : catalog.construction? cls = some .byFields)
    (args : List Value) (named : List (String × Value)) :
    catalog.construct cls args named =
      match bindArguments? (((catalog.dataFields cls).filter (·.initial)).map (·.name)) args
        named with
      | none => fail .wrongType
      | some given => do
        let attrs ← (catalog.dataFields cls).foldlM (catalog.storeField cls given) []
        return .record cls 0 attrs := by
  rewrite [construct, hcls]
  rfl

theorem foldlM_storeField_nil (h : catalog.FieldsUncovered cls) (given : List (String × Value)) :
    (catalog.dataFields cls).foldlM (catalog.storeField cls given) [] =
      if ∀ f ∈ catalog.dataFields cls, HasValue given f then
        .ok (entriesBy (·.name) (fun f => stored? f (given.lookup f.name)) (catalog.dataFields cls))
      else fail .wrongType :=
  foldlM_storeField h (fun _ hf => hf) [] (nodup_dataFields catalog cls) given

/-- Whatever the constructor is given, it leaves a field that it does not take as it is. -/
theorem lookup_of_construct (hcls : catalog.construction? cls = some .byFields)
    (h : catalog.FieldsUncovered cls) {args : List Value} {named made : List (String × Value)}
    (hmade : catalog.construct cls args named = .ok (.record cls 0 made)) {f : FieldDecl}
    (hf : f ∈ catalog.dataFields cls) (hinitial : f.initial = false) :
    made.lookup f.name = f.blank? := by
  rw [construct_eq hcls] at hmade
  split at hmade
  · cases hmade
  · rename_i given _
    obtain ⟨attrs, hattrs, hmade⟩ := Except.bind_eq_ok.1 hmade
    cases hmade
    rw [foldlM_storeField_nil h] at hattrs
    split at hattrs
    · cases hattrs
      rw [lookup_entriesBy (nodup_dataFields catalog cls) hf, stored?, hinitial]
      rfl
    · cases hattrs

/-- The argument that the constructor gets for a field that it takes. -/
def argument? (values : List (String × Value)) (f : FieldDecl) : Option Value :=
  (values.lookup f.name).or (if f.default.isSome then none else some .null)

theorem constructorArguments_eq (fields : List FieldDecl) (values : List (String × Value)) :
    constructorArguments fields values =
      entriesBy (·.name) (argument? values) (fields.filter (·.initial)) := by
  refine List.filterMap_congr fun f _ => ?_
  cases hvalue : values.lookup f.name <;> cases hdefault : f.default <;>
    simp [argument?, hvalue, hdefault]

theorem lookup_constructorArguments (values : List (String × Value)) {f : FieldDecl}
    (hf : f ∈ catalog.dataFields cls) (hinitial : f.initial = true) :
    (constructorArguments (catalog.dataFields cls) values).lookup f.name = argument? values f := by
  rw [constructorArguments_eq]
  exact lookup_entriesBy ((List.filter_sublist.map _).nodup (nodup_dataFields catalog cls))
    (List.mem_filter.2 ⟨hf, hinitial⟩)

/-- What the constructor is called with has a value for each field that it takes. -/
theorem hasValue_constructorArguments (values : List (String × Value)) {f : FieldDecl}
    (hf : f ∈ catalog.dataFields cls) :
    HasValue (constructorArguments (catalog.dataFields cls) values) f := by
  intro hinitial
  rw [lookup_constructorArguments values hf hinitial, argument?]
  cases f.default <;> simp

/-- The constructor of a data class takes all that it is called with. -/
theorem construct_constructorArguments (hcls : catalog.construction? cls = some .byFields)
    (values : List (String × Value)) :
    catalog.construct cls [] (constructorArguments (catalog.dataFields cls) values) = do
      let attrs ← (catalog.dataFields cls).foldlM
        (catalog.storeField cls (constructorArguments (catalog.dataFields cls) values)) []
      return .record cls 0 attrs := by
  have hall : ∀ e ∈ constructorArguments (catalog.dataFields cls) values,
      e.1 ∈ ((catalog.dataFields cls).filter (·.initial)).map (·.name) := by
    intro e he
    rw [constructorArguments_eq] at he
    exact keys_entriesBy_sublist.mem (List.mem_map_of_mem he)
  rw [construct_eq hcls, bindArguments?_named hall]

/-- The new instance holds the arguments, and what the other fields are left with. -/
theorem construct_arguments (hcls : catalog.construction? cls = some .byFields)
    (h : catalog.FieldsUncovered cls) (values : List (String × Value)) :
    ∃ attrs, catalog.construct cls [] (constructorArguments (catalog.dataFields cls) values) =
        .ok (.record cls 0 attrs) ∧ (attrs.map (·.1)).Nodup ∧
      (∀ f ∈ catalog.dataFields cls,
        attrs.lookup f.name = if f.initial then (values.lookup f.name).or f.blank? else f.blank?) ∧
      ∀ n, (∀ f ∈ catalog.dataFields cls, f.name ≠ n) → attrs.lookup n = none := by
  have hnodup := nodup_dataFields catalog cls
  generalize hargs : constructorArguments (catalog.dataFields cls) values = args
  have hlookup : ∀ f ∈ catalog.dataFields cls, f.initial = true →
      args.lookup f.name = argument? values f := fun f hf hinitial => by
    rw [← hargs]
    exact lookup_constructorArguments values hf hinitial
  have hvalue : ∀ f ∈ catalog.dataFields cls, HasValue args f := fun f hf => by
    rw [← hargs]
    exact hasValue_constructorArguments values hf
  refine ⟨entriesBy (·.name) (fun f => stored? f (args.lookup f.name)) (catalog.dataFields cls),
    ?_, keys_entriesBy_sublist.nodup hnodup, fun f hf => ?_,
    fun n hn => lookup_entriesBy_of_not_mem hn⟩
  · rw [← hargs, construct_constructorArguments hcls, hargs, foldlM_storeField_nil h, if_pos hvalue]
    rfl
  · rw [lookup_entriesBy hnodup hf, stored?]
    split
    · rename_i hinitial
      rw [hlookup f hf hinitial, argument?, FieldDecl.blank?, if_pos hinitial]
      cases values.lookup f.name <;> cases f.default <;> rfl
    · rfl

/-- Assigning attributes that no property covers and the class does not forbid sets them. -/
theorem assignAll_eq (h : catalog.FieldsUncovered cls) {values : List (String × Value)}
    (hvalues : ∀ e ∈ values, ∃ f ∈ catalog.dataFields cls, f.name = e.1 ∧
      Value.isFrozen catalog cls e.1 = false) (serial : Nat) (attrs : List (String × Value)) :
    catalog.assignAll (.record cls serial attrs) values =
      .ok (.record cls serial (values.foldl (fun all e => put all e.1 e.2) attrs)) := by
  induction values generalizing attrs with
  | nil => rfl
  | cons e values ih =>
    rw [List.forall_mem_cons] at hvalues
    obtain ⟨⟨f, hf, hname, hfrozen⟩, hvalues⟩ := hvalues
    have hassign : Value.assign catalog (.record cls serial attrs) e.1 e.2 =
        .ok (.record cls serial (put attrs e.1 e.2)) := by
      rw [← hname] at hfrozen ⊢
      simp [Value.assign, Value.assignAttr, hfrozen, storeAttr_eq h hf]
    rw [assignAll, List.foldlM_cons]
    change (Value.assign catalog (.record cls serial attrs) e.1 e.2 >>= _) = _
    rw [hassign, Except.ok_bind]
    exact ih hvalues (put attrs e.1 e.2)

theorem lookup_filter_key {β : Type} (entries : List (String × β)) (p : String → Bool)
    (name : String) : (entries.filter (p ·.1)).lookup name =
      if p name then entries.lookup name else none := by
  induction entries with
  | nil => simp
  | cons e entries ih =>
    obtain ⟨k, v⟩ := e
    rw [List.filter_cons, List.lookup_cons]
    by_cases hname : name = k
    · subst hname
      cases hp : p name <;> simp [hp, ih]
    · cases hp : p k <;> simp [ih, List.lookup_cons, beq_false_of_ne hname]

theorem isSome_dataClass? (hcls : catalog.construction? cls = some .byFields) :
    (catalog.dataClass? cls).isSome = true := by
  obtain ⟨c, hc, hfound⟩ := List.exists_of_findSome?_eq_some hcls
  rw [dataClass?, List.find?_isSome]
  refine ⟨c, hc, ?_⟩
  by_contra hplain
  rw [if_neg hplain] at hfound
  cases hconstructor : c.constructor <;> simp [hconstructor] at hfound

/-- Is there an argument of this name for the constructor? -/
def isArgument (fields : List FieldDecl) (values : List (String × Value)) (name : String) : Bool :=
  (constructorArguments fields values).any (·.1 == name)

theorem isArgument_iff {fields : List FieldDecl} {values : List (String × Value)} :
    isArgument fields values name = true ↔
      ∃ f ∈ fields, f.initial = true ∧ (argument? values f).isSome = true ∧ f.name = name := by
  simp only [isArgument, constructorArguments_eq, entriesBy, List.any_eq_true, beq_iff_eq,
    List.mem_filterMap, List.mem_filter, Option.map_eq_some_iff, Option.isSome_iff_exists]
  constructor
  · rintro ⟨e, ⟨f, ⟨hf, hinitial⟩, v, hv, rfl⟩, rfl⟩
    exact ⟨f, hf, hinitial, ⟨v, hv⟩, rfl⟩
  · rintro ⟨f, hf, hinitial, ⟨v, hv⟩, rfl⟩
    exact ⟨_, ⟨f, ⟨hf, hinitial⟩, v, hv, rfl⟩, rfl⟩

/-- Nothing is an argument for a field that the constructor does not take. -/
theorem isArgument_eq_false {values : List (String × Value)} {f : FieldDecl}
    (hf : f ∈ catalog.dataFields cls) (hinitial : f.initial = false) :
    isArgument (catalog.dataFields cls) values f.name = false := by
  rw [Bool.eq_false_iff, ne_eq, isArgument_iff]
  rintro ⟨g, hg, hinitial', -, hname⟩
  rw [List.inj_on_of_nodup_map (nodup_dataFields catalog cls) hg hf hname, hinitial] at hinitial'
  cases hinitial'

/-- **New instances of a data class.** Given values for some of the fields, each of which the
constructor takes or the class allows to assign, the new instance holds these values, what the
other fields are left with, and nothing else. -/
theorem newInstance_eq_ok (hcls : catalog.construction? cls = some .byFields)
    (h : catalog.FieldsUncovered cls) {values : List (String × Value)}
    (hnodup : (values.map (·.1)).Nodup)
    (hvalues : ∀ e ∈ values, ∃ f ∈ catalog.dataFields cls, f.name = e.1 ∧
      (f.initial = true ∨ Value.isFrozen catalog cls e.1 = false)) :
    ∃ attrs, catalog.newInstance cls values = .ok (.record cls 0 attrs) ∧
      (attrs.map (·.1)).Nodup ∧
      (∀ f ∈ catalog.dataFields cls, attrs.lookup f.name = (values.lookup f.name).or f.blank?) ∧
      ∀ n, (∀ f ∈ catalog.dataFields cls, f.name ≠ n) → attrs.lookup n = none := by
  obtain ⟨attrs, hmade, hnames, hlookup, hothers⟩ := construct_arguments hcls h values
  generalize hrest : values.filter (!isArgument (catalog.dataFields cls) values ·.1) = rest
  have hrest' : ∀ e ∈ rest, ∃ f ∈ catalog.dataFields cls, f.name = e.1 ∧
      Value.isFrozen catalog cls e.1 = false := by
    intro e he
    rw [← hrest, List.mem_filter, Bool.not_eq_true'] at he
    obtain ⟨f, hf, hname, hwritable⟩ := hvalues e he.1
    refine ⟨f, hf, hname, hwritable.resolve_left fun hinitial => ?_⟩
    -- a field that the constructor takes is among its arguments
    have hgiven : (values.lookup f.name).isSome = true := by
      rw [Option.isSome_iff_ne_none, ne_eq, List.lookup_eq_none_iff]
      exact fun hnone => by simpa [hname] using hnone e he.1
    have hargument : isArgument (catalog.dataFields cls) values e.1 = true :=
      isArgument_iff.2 ⟨f, hf, hinitial, by simp [argument?, hgiven], hname⟩
    rw [hargument] at he
    cases he.2
  have hlookup' (n : String) : (rest.foldl (fun all e => put all e.1 e.2) attrs).lookup n =
      (if isArgument (catalog.dataFields cls) values n then none else values.lookup n).or
        (attrs.lookup n) := by
    rw [← hrest, lookup_foldl_put ((List.filter_sublist.map _).nodup hnodup),
      lookup_filter_key values (!isArgument (catalog.dataFields cls) values ·)]
    cases isArgument (catalog.dataFields cls) values n <;> rfl
  refine ⟨rest.foldl (fun all e => put all e.1 e.2) attrs, ?_, nodup_keys_foldl_put hnames,
    fun f hf => ?_, fun n hn => ?_⟩
  · rw [newInstance, if_pos (isSome_dataClass? hcls)]
    simp only [hmade, Except.ok_bind]
    rw [← assignAll_eq h hrest' 0 attrs, ← hrest]
    rfl
  · rw [hlookup', hlookup f hf]
    cases hinitial : f.initial with
    | true =>
      cases values.lookup f.name <;> cases f.blank? <;>
        cases isArgument (catalog.dataFields cls) values f.name <;> rfl
    | false =>
      rw [isArgument_eq_false hf hinitial]
      rfl
  · have hnone : values.lookup n = none := by
      refine lookup_eq_none_of_not_mem fun hmem => ?_
      obtain ⟨e, he, rfl⟩ := List.mem_map.1 hmem
      obtain ⟨f, hf, hname, -⟩ := hvalues e he
      exact hn f hf hname
    rw [hlookup', hothers n hn, hnone]
    split <;> rfl

end Catalog
end RecordQuery
