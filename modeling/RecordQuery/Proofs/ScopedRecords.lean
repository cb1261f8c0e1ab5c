import RecordQuery.Proofs.CapturedScope

/-!
# Records within a scope

The attributes of values within a scope, the records that classes and schemas make of such values,
and what the built-in classes convert them to, are within it too, provided that the values that
classes have for their instances are (`Catalog.Within`).
-/

namespace RecordQuery

namespace Value

variable {d : Directory} {params : List Param} {catalog : Catalog} {a v : Value}
  {entries : List (Value × Value)} {attrs : List (String × Value)}

/-! ### Attributes -/

theorem isFlat_ofType (catalog : Catalog) (t : TypeExpr) : (ofType catalog t).isFlat = true := by
  unfold ofType
  split
  · rfl
  · rfl
  · rfl
  · split <;> rfl
  · rfl

theorem isFlat_recordType (catalog : Catalog) (s : Schema) :
    (recordType catalog s).isFlat = true := by
  unfold recordType
  split
  · split
    all_goals first | exact isFlat_ofType catalog _ | rfl
  · rfl
  · rfl

theorem yields_builtinAttr (h : v.Within d params) (name : String) :
    Yields (Value.Within d params) (v.builtinAttr catalog name) := by
  unfold builtinAttr
  split
  · rename_i w hw
    obtain ⟨n, -, hn⟩ := Option.bind_eq_some_iff.1 hw
    refine .ok (.flat ?_)
    unfold numberAttr? at hn
    split at hn <;> cases hn <;> rfl
  · split
    · exact .ok (.method h)
    · exact .error _

theorem within_fields (fields : List Field) : (Value.tuple (fields.map .field)).Within d params :=
  .tuple (List.forall_mem_map.2 fun _ _ => .flat rfl)

theorem yields_schemaAttr (s : Schema) (name : String) :
    Yields (Value.Within d params) (schemaAttr catalog s name) := by
  unfold schemaAttr
  split
  · exact .ok (.flat rfl)
  · exact .ok (.flat rfl)
  · exact .ok (within_fields _)
  · exact .ok (.flat (isFlat_recordType _ _))
  · split
    · exact .ok (.method (.flat rfl))
    · exact .error _

theorem yields_fieldAttr (f : Field) (name : String) :
    Yields (Value.Within d params) (fieldAttr catalog f name) := by
  unfold fieldAttr
  split
  · exact .ok (.flat rfl)
  · exact .ok (.flat (isFlat_ofType _ _))
  · exact .ok (.flat rfl)
  · exact .ok (.flat rfl)
  · exact .ok (.flat rfl)
  · split
    · exact .ok (.method (.flat rfl))
    · exact .error _

theorem yields_accessorAttr (a : Accessor) (name : String) :
    Yields (Value.Within d params) (accessorAttr catalog a name) := by
  unfold accessorAttr
  split
  · exact .ok (.flat rfl)
  · exact .ok (within_fields _)
  · exact .ok (.tuple (List.forall_mem_map.2 fun _ _ => .flat rfl))
  · exact .ok (.flat rfl)
  · exact .ok (.flat (isFlat_ofType _ _))
  · exact .error _

theorem yields_attributeOf (hcatalog : catalog.Within d params)
    (h : ∀ e ∈ attrs, e.2.Within d params) (cls name : String) :
    Yields (Value.Within d params) (catalog.attributeOf cls attrs name) := by
  intro v hv
  rcases Catalog.mem_of_attributeOf hv with ⟨e, he, rfl⟩ | ⟨c, hc, hv⟩
  · exact h e he
  · exact hcatalog.values c (Catalog.mem_of_mem_lineageIn hc) v hv

theorem yields_readAttr (hcatalog : catalog.Within d params) (h : v.Within d params)
    (name : String) : Yields (Value.Within d params) (v.readAttr catalog name) := by
  cases v with
  | record cls serial attrs => exact yields_attributeOf hcatalog h.of_record cls name
  | schema s => exact yields_schemaAttr s name
  | field f => exact yields_fieldAttr f name
  | accessor a => exact yields_accessorAttr a name
  | null => exact .error _
  | _ => exact yields_builtinAttr h name

theorem yields_read (hcatalog : catalog.Within d params) (h : v.Within d params) (f : Field) :
    Yields (Value.Within d params) (f.read catalog v) := by
  unfold Field.read
  split
  · exact yields_readAttr hcatalog h f.name
  · split
    · refine (yields_entry h).bind fun found hfound => .ok ?_
      cases found with
      | some w => exact hfound w rfl
      | none => exact .flat rfl
    · exact .step fun _ => .error _

/-! ### Records -/

theorem yields_storeAttr (h : ∀ e ∈ attrs, e.2.Within d params) (hv : v.Within d params)
    (cls : String) (fuel : Nat) (name : String) :
    Yields (fun attrs => ∀ e ∈ attrs, e.2.Within d params)
      (storeAttr catalog cls attrs v fuel name) := by
  have hput (name : String) : ∀ e ∈ put attrs name v, e.2.Within d params := by
    intro e he
    rcases mem_of_mem_put he with rfl | he
    · exact hv
    · exact h e he
  intro made hmade
  fun_induction storeAttr catalog cls attrs v fuel name with
  | case1 | case2 | case3 => cases hmade
  | case4 _ _ _ _ _ _ _ ih => exact ih hmade
  | case5 =>
    cases hmade
    exact hput _

theorem yields_assignAttr (h : ∀ e ∈ attrs, e.2.Within d params) (hv : v.Within d params)
    (cls name : String) :
    Yields (fun attrs => ∀ e ∈ attrs, e.2.Within d params)
      (assignAttr catalog cls attrs name v) := by
  unfold assignAttr
  split
  · exact .error _
  · exact yields_storeAttr h hv cls _ name

theorem yields_assign (h : v.Within d params) (ha : a.Within d params) (name : String) :
    Yields (Value.Within d params) (v.assign catalog name a) := by
  cases v with
  | record cls serial attrs =>
    exact (yields_assignAttr h.of_record ha cls name).bind fun _ hattrs => .ok (.record hattrs)
  | _ => exact .error _

end Value

namespace Catalog

variable {d : Directory} {params : List Param} {catalog : Catalog} {cls : String}
  {attrs given named : List (String × Value)} {args : List Value} {f : FieldDecl}

/-- A field of a data class is declared by the class or one of its bases. -/
theorem exists_of_mem_dataFields (h : f ∈ catalog.dataFields cls) :
    ∃ c ∈ catalog.classes, f ∈ c.fields := by
  obtain ⟨e, he, rfl⟩ := List.mem_map.1 (List.mem_filter.1 h).1
  have hdeclared (declared : List FieldDecl) :
      ∀ e ∈ declared.foldl (fun fields f => put fields f.name f) [], e.2 ∈ declared := by
    refine List.foldlRecOn
      (motive := fun fields : List (String × FieldDecl) => ∀ e ∈ fields, e.2 ∈ declared) _ _
      nofun fun fields hfields f hf e he => ?_
    rcases mem_of_mem_put he with rfl | he
    · exact hf
    · exact hfields e he
  obtain ⟨c, hc, hf⟩ := List.mem_flatMap.1 (hdeclared _ e he)
  exact ⟨c, mem_of_mem_lineageIn (List.mem_filter.1 hc).1, hf⟩

/-- What a field that is not given gets is a value of its class, or a new container. -/
theorem within_instantiate (hcatalog : catalog.Within d params) (hf : f ∈ catalog.dataFields cls)
    {default : Default} (hdefault : f.default = some default) :
    default.instantiate.Within d params := by
  obtain ⟨c, hc, hf⟩ := exists_of_mem_dataFields hf
  have hvalue {v : Value} (h : default = .value v ∨ default = .inherited v) :
      v.Within d params := by
    refine hcatalog.values c hc v (List.mem_append_right _ (List.mem_filterMap.2 ⟨f, hf, ?_⟩))
    rcases h with rfl | rfl <;> rw [hdefault]
  cases default with
  | value v => exact hvalue (.inl rfl)
  | inherited v => exact hvalue (.inr rfl)
  | newList => exact .list (List.forall_mem_nil _)
  | newDict => exact .dict (List.forall_mem_nil _) (List.forall_mem_nil _)

theorem yields_storeField (hcatalog : catalog.Within d params) (hf : f ∈ catalog.dataFields cls)
    (hgiven : ∀ e ∈ given, e.2.Within d params) (h : ∀ e ∈ attrs, e.2.Within d params) :
    Yields (fun attrs => ∀ e ∈ attrs, e.2.Within d params)
      (catalog.storeField cls given attrs f) := by
  unfold storeField
  split
  · rename_i v hv
    exact Value.yields_storeAttr h (hgiven _ (mem_of_lookup_eq_some hv)) cls _ _
  · exact Value.yields_storeAttr h (within_instantiate hcatalog hf ‹_›) cls _ _
  · exact .error _
  · exact Value.yields_storeAttr h (.list (List.forall_mem_nil _)) cls _ _
  · exact Value.yields_storeAttr h (.dict (List.forall_mem_nil _) (List.forall_mem_nil _)) cls _ _
  · exact .ok h

theorem within_of_bindArguments? {required : List String}
    (hargs : ∀ v ∈ args, v.Within d params) (hnamed : ∀ e ∈ named, e.2.Within d params)
    (h : bindArguments? required args named = some given) : ∀ e ∈ given, e.2.Within d params := by
  unfold bindArguments? at h
  dsimp only at h
  split at h
  · cases h
  · split at h
    · cases h
      refine List.forall_mem_append.2 ⟨fun e he => ?_, hnamed⟩
      exact hargs _ (List.of_mem_zip he).2
    · cases h

/-- Calling a class puts together what is given and what the class has. -/
theorem yields_construct (hcatalog : catalog.Within d params)
    (hargs : ∀ v ∈ args, v.Within d params) (hnamed : ∀ e ∈ named, e.2.Within d params) :
    Yields (Value.Within d params) (catalog.construct cls args named) := by
  unfold construct
  split
  · dsimp only
    split
    · exact .error _
    · rename_i given hgiven
      have hfields : Yields (fun attrs => ∀ e ∈ attrs, e.2.Within d params)
          ((catalog.dataFields cls).foldlM (catalog.storeField cls given) []) := fun made hmade =>
        Except.foldlM_induction (fun f hf _ _ hattrs hstore => yields_storeField hcatalog hf
          (within_of_bindArguments? hargs hnamed hgiven) hattrs _ hstore)
          (List.forall_mem_nil _) hmade
      exact hfields.bind fun _ hattrs => .ok (.record hattrs)
  · rename_i made hmade
    obtain ⟨c, hc, hby⟩ := List.exists_of_findSome?_eq_some hmade
    have hconstructor : c.constructor = some made := by
      split at hby
      · cases hby
      · simpa using hby
    have hstored :=
      hcatalog.stored c (mem_of_mem_lineageIn (List.mem_reverse.1 hc)) made hconstructor
    split
    · split
      · refine Yields.bind (P := fun attrs => ∀ e ∈ attrs, e.2.Within d params)
          (fun attrs hattrs => ?_) fun attrs hattrs => .ok (.record hattrs)
        exact Except.foldlM_induction
          (motive := fun attrs : List (String × Value) => ∀ e ∈ attrs, e.2.Within d params)
          (fun e he _ _ hattrs hstore =>
            Value.yields_assignAttr hattrs (hstored e he) cls e.1 _ hstore)
          (List.forall_mem_nil _) hattrs
      · exact .error _
    · exact .error _
  · split
    · exact .ok (.record (List.forall_mem_nil _))
    · exact .error _

theorem yields_assignAll {v : Value} (h : v.Within d params)
    (hvalues : ∀ e ∈ named, e.2.Within d params) :
    Yields (Value.Within d params) (catalog.assignAll v named) := fun _ hmade =>
  Except.foldlM_induction (motive := Value.Within d params)
    (fun e he _ _ hv hassign => Value.yields_assign hv (hvalues e he) e.1 _ hassign) h hmade

theorem within_constructorArguments {fields : List FieldDecl}
    (h : ∀ e ∈ named, e.2.Within d params) :
    ∀ e ∈ constructorArguments fields named, e.2.Within d params := by
  intro e he
  obtain ⟨f, -, hf⟩ := List.mem_filterMap.1 he
  split at hf
  · cases hf
    exact h _ (mem_of_lookup_eq_some ‹_›)
  · cases hf
    exact .flat rfl
  · cases hf

theorem yields_newInstance (hcatalog : catalog.Within d params)
    (h : ∀ e ∈ named, e.2.Within d params) :
    Yields (Value.Within d params) (catalog.newInstance cls named) := by
  unfold newInstance
  split
  · refine (yields_construct hcatalog (List.forall_mem_nil _)
      (within_constructorArguments h)).bind fun v hv => ?_
    exact yields_assignAll hv fun e he => h e (List.mem_filter.1 he).1
  · exact (yields_construct hcatalog (List.forall_mem_nil _) (List.forall_mem_nil _)).bind
      fun v hv => yields_assignAll hv h

end Catalog

section Calls

variable {d : Directory} {params : List Param} {catalog : Catalog}

theorem Schema.within_newMapping {s : Schema} {values : List (String × Value)}
    (h : ∀ e ∈ values, e.2.Within d params) : (s.newMapping values).Within d params := by
  have hput {entries : List (String × Value)} (hentries : ∀ e ∈ entries, e.2.Within d params)
      {name : String} {v : Value} (hv : v.Within d params) :
      ∀ e ∈ put entries name v, e.2.Within d params := by
    intro e he
    rcases mem_of_mem_put he with rfl | he
    · exact hv
    · exact hentries e he
  have hblank : ∀ e ∈ (s.fields.filter (·.writable)).foldl
      (fun all f => put all f.name Value.null) [], e.2.Within d params :=
    List.foldlRecOn
      (motive := fun all : List (String × Value) => ∀ e ∈ all, e.2.Within d params) _ _
      (List.forall_mem_nil _) fun all hall f _ => hput hall (.flat rfl)
  have hall : ∀ e ∈ values.foldl (fun all e => put all e.1 e.2)
      ((s.fields.filter (·.writable)).foldl (fun all f => put all f.name Value.null) []),
      e.2.Within d params :=
    List.foldlRecOn
      (motive := fun all : List (String × Value) => ∀ e ∈ all, e.2.Within d params) _ _
      hblank fun all hall e he => hput hall (h e he)
  exact .dict (List.forall_mem_map.2 fun _ _ => .flat rfl) (List.forall_mem_map.2 hall)

theorem Schema.yields_new (hcatalog : catalog.Within d params) {s : Schema}
    {values : List (String × Value)} (h : ∀ e ∈ values, e.2.Within d params) :
    Yields (Value.Within d params) (s.new catalog values) := by
  unfold Schema.new
  split
  · exact .error _
  · split
    · exact .error _
    · exact .error _
    · exact .ok (within_newMapping h)
    · exact Catalog.yields_newInstance hcatalog h

namespace Value

variable {v : Value}

theorem yields_orBadValue {α : Type} {f : α → Value} (o : Option α)
    (h : ∀ a, (f a).isFlat = true) : Yields (Value.Within d params) (orBadValue (o.map f)) := by
  cases o with
  | none => exact .error _
  | some a => exact .ok (.flat (h a))

theorem yields_toInt : Yields (Value.Within d params) v.toInt := by
  unfold toInt
  split
  · exact .ok (.flat rfl)
  · exact .ok (.flat rfl)
  · split
    · exact .error _
    · exact .error _
    · exact .ok (.flat rfl)
  · exact yields_orBadValue _ fun _ => rfl
  · exact yields_orBadValue _ fun _ => rfl
  · exact .error _

theorem yields_toFloat : Yields (Value.Within d params) v.toFloat := by
  unfold toFloat
  split
  · exact .ok (.flat rfl)
  · exact .step fun _ => .ok (.flat rfl)
  · exact .ok (.flat rfl)
  · exact yields_orBadValue _ fun _ => rfl
  · exact yields_orBadValue _ fun _ => rfl
  · exact .error _

theorem yields_toBytes : Yields (Value.Within d params) v.toBytes := by
  unfold toBytes
  split
  · exact .ok (.flat rfl)
  · split
    · split <;> exact .error _
    · split
      · exact .error _
      · split
        · exact .error _
        · exact .ok (.flat rfl)
  · exact .error _
  · exact .ok (.flat rfl)
  · exact .step fun _ => .step fun _ => .ok (.flat rfl)

theorem yields_toPair (h : v.Within d params) :
    Yields (fun pair => pair.1.Within d params ∧ pair.2.Within d params) v.toPair := by
  refine (yields_iterate h).bind fun items hitems => ?_
  split
  · exact .ok ⟨hitems _ (.head _), hitems _ (.tail _ (.head _))⟩
  · exact .error _

theorem yields_toDict (h : v.Within d params) :
    Yields (Value.Within d params) (v.toDict catalog) := by
  unfold toDict
  split
  · exact .ok h
  · refine (yields_iterate h).bind fun items hitems => ?_
    refine Yields.bind (P := fun entries => (Value.dict entries).Within d params)
      (fun entries hentries => ?_) fun entries hentries => .ok hentries
    refine Except.foldlM_induction
      (motive := fun entries : List (Value × Value) => (Value.dict entries).Within d params)
      (fun item hitem all next hall hset => ?_)
      (.dict (List.forall_mem_nil _) (List.forall_mem_nil _)) hentries
    -- each item is a key with its value
    obtain ⟨⟨k, w⟩, hpair, hset⟩ := Except.bind_eq_ok.1 hset
    obtain ⟨hk, hw⟩ := yields_toPair (hitems item hitem) _ hpair
    obtain ⟨u, -, hset⟩ := Except.bind_eq_ok.1 hset
    cases hset
    exact .putEntry hk hw hall

/-- Of the other built-in classes only instances without parts are made. -/
theorem yields_toOther (cls : String) : Yields (Value.Within d params) (v.toOther catalog cls) := by
  have hmade (cls : String) : (instanceOf cls).Within d params := .flat rfl
  unfold toOther
  split
  case h_1 | h_2 => exact .step fun _ => .step fun _ => .ok (hmade _)
  case h_3 | h_5 | h_6 | h_7 => exact .step fun _ => .ok (hmade _)
  case h_4 =>
    split
    · exact .ok (hmade _)
    · exact .ok (hmade _)
    · exact .error _
  case h_8 | h_9 | h_10 =>
    split
    · exact .ok (hmade _)
    · exact .error _
  case h_16 =>
    split
    · exact .ok (hmade _)
    · exact .error _
  all_goals exact .ok (hmade _)

theorem yields_toBuiltin (h : v.Within d params) (b : Builtin) :
    Yields (Value.Within d params) (v.toBuiltin catalog b) := by
  cases b with
  | int => exact yields_toInt
  | float => exact yields_toFloat
  | str => exact .step fun _ => .ok (.flat rfl)
  | bool => exact .step fun _ => .ok (.flat rfl)
  | bytes => exact yields_toBytes
  | list => exact (yields_iterate h).bind fun _ hitems => .ok (.list hitems)
  | tuple => exact (yields_iterate h).bind fun _ hitems => .ok (.tuple hitems)
  | dict => exact yields_toDict h
  | object => exact .error _
  | other cls => exact yields_toOther cls

end Value

end Calls
end RecordQuery
