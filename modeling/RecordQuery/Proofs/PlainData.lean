import Mathlib.Data.List.Basic
import RecordQuery.Catalog.Declaration
import RecordQuery.Proofs.Success

/-!
# Values that can be compared

Comparing two values for equality goes down into their parts, and fails where a part is a captured
expression or an instance lacks a field of its class. `Value.IsData n` describes the values without
such parts whose parts nest at most `n` deep; two of them can be compared
(`Value.IsData.equalWithin_eq_ok`). A field that an instance does not store may be a value that the
class has, which comparing goes down into as well. In catalogs whose classes were declared one after
the other, each with values of earlier ones (`Layered`), that takes no more steps than `nesting`
counts (`Value.IsData.nesting`), so that `Value.equal` does not fail (`Value.IsData.equal_eq_ok`).
-/

namespace RecordQuery

namespace Value

/-- The value has no parts that it is compared by. -/
def isAtom : Value → Bool
  | .list _ | .tuple _ | .dict _ | .record .. | .expr _ => false
  | _ => true

/-- The value and its parts can be compared, and the parts nest at most `n` deep. Instances of plain
classes are told apart without their attributes. -/
inductive IsData (catalog : Catalog) : Nat → Value → Prop
  | atom {n : Nat} {v : Value} (h : v.isAtom = true) : IsData catalog n v
  | list {n : Nat} {items : List Value} (h : ∀ v ∈ items, IsData catalog n v) :
    IsData catalog (n + 1) (.list items)
  | tuple {n : Nat} {items : List Value} (h : ∀ v ∈ items, IsData catalog n v) :
    IsData catalog (n + 1) (.tuple items)
  | dict {n : Nat} {entries : List (Value × Value)} (hkeys : ∀ e ∈ entries, IsData catalog n e.1)
    (hvalues : ∀ e ∈ entries, IsData catalog n e.2) : IsData catalog (n + 1) (.dict entries)
  | object {n serial : Nat} {cls : String} {attrs : List (String × Value)}
    (h : catalog.dataClass? cls = none) : IsData catalog n (.record cls serial attrs)
  | record {n serial : Nat} {cls : String} {attrs : List (String × Value)}
    (value : FieldDecl → Value)
    (hread : ∀ f ∈ catalog.dataFields cls, catalog.attributeOf cls attrs f.name = .ok (value f))
    (h : ∀ f ∈ catalog.dataFields cls, IsData catalog n (value f)) :
    IsData catalog (n + 1) (.record cls serial attrs)

variable {catalog : Catalog} {n : Nat} {a b v : Value}

namespace IsData

theorem mono (h : IsData catalog n v) {m : Nat} (hm : n ≤ m) : IsData catalog m v := by
  induction h generalizing m with
  | atom h => exact .atom h
  | object h => exact .object h
  | list h ih =>
    obtain ⟨m, rfl⟩ := Nat.exists_eq_add_of_lt hm
    exact .list fun v hv => ih v hv (by omega)
  | tuple h ih =>
    obtain ⟨m, rfl⟩ := Nat.exists_eq_add_of_lt hm
    exact .tuple fun v hv => ih v hv (by omega)
  | dict hkeys hvalues ihkeys ihvalues =>
    obtain ⟨m, rfl⟩ := Nat.exists_eq_add_of_lt hm
    exact .dict (fun e he => ihkeys e he (by omega)) fun e he => ihvalues e he (by omega)
  | record value hread h ih =>
    obtain ⟨m, rfl⟩ := Nat.exists_eq_add_of_lt hm
    exact .record value hread fun f hf => ih f hf (by omega)

theorem ne_expr (h : IsData catalog n v) (e : Expr) : v ≠ .expr e := by
  rintro rfl
  cases h with
  | atom h => cases h

theorem truthy_eq_ok (h : IsData catalog n v) : ∃ p, v.truthy = .ok p := by
  cases v with
  | expr e => exact absurd rfl (h.ne_expr e)
  | _ => exact ⟨_, rfl⟩

end IsData

/-! ### Comparing parts -/

section

variable {parts : Value → Value → Except Error Bool}

theorem equalItems_eq_ok {as bs : List Value}
    (h : ∀ a ∈ as, ∀ b ∈ bs, ∃ p, parts a b = .ok p) : ∃ p, equalItems parts as bs = .ok p := by
  induction as generalizing bs with
  | nil => cases bs <;> exact ⟨_, rfl⟩
  | cons a as ih =>
    cases bs with
    | nil => exact ⟨_, rfl⟩
    | cons b bs =>
      obtain ⟨p, hp⟩ := h a List.mem_cons_self b List.mem_cons_self
      obtain ⟨q, hq⟩ := ih fun a ha b hb =>
        h a (List.mem_cons_of_mem _ ha) b (List.mem_cons_of_mem _ hb)
      rw [equalItems, hp, hq]
      split
      · exact ⟨q, rfl⟩
      · cases p <;> exact ⟨_, rfl⟩

theorem mem_of_findEntry {key w : Value} {entries : List (Value × Value)}
    (h : findEntry parts key entries = some w) : ∃ k, (k, w) ∈ entries := by
  induction entries with
  | nil => cases h
  | cons e entries ih =>
    obtain ⟨k, v⟩ := e
    rw [findEntry] at h
    split at h
    · cases h
      exact ⟨k, List.mem_cons_self⟩
    · obtain ⟨k, hk⟩ := ih h
      exact ⟨k, List.mem_cons_of_mem _ hk⟩

theorem equalEntries_eq_ok {as bs : List (Value × Value)}
    (h : ∀ a ∈ as, ∀ b ∈ bs, ∃ p, parts b.2 a.2 = .ok p) :
    ∃ p, equalEntries parts as bs = .ok p := by
  induction as with
  | nil => exact ⟨_, rfl⟩
  | cons a as ih =>
    obtain ⟨k, v⟩ := a
    rw [List.forall_mem_cons] at h
    obtain ⟨q, hq⟩ := ih h.2
    rw [equalEntries]
    cases hfound : findEntry parts k bs with
    | none => exact ⟨_, rfl⟩
    | some w =>
      obtain ⟨k', hk'⟩ := mem_of_findEntry hfound
      obtain ⟨p, hp⟩ := h.1 _ hk'
      simp only [hp, hq]
      split
      · exact ⟨q, rfl⟩
      · cases p <;> exact ⟨_, rfl⟩

end

namespace IsData

theorem of_list {items : List Value} (h : IsData catalog n (.list items)) :
    ∃ m, n = m + 1 ∧ ∀ v ∈ items, IsData catalog m v := by
  cases h with
  | atom h => cases h
  | list h => exact ⟨_, rfl, h⟩

theorem of_tuple {items : List Value} (h : IsData catalog n (.tuple items)) :
    ∃ m, n = m + 1 ∧ ∀ v ∈ items, IsData catalog m v := by
  cases h with
  | atom h => cases h
  | tuple h => exact ⟨_, rfl, h⟩

theorem of_dict {entries : List (Value × Value)} (h : IsData catalog n (.dict entries)) :
    ∃ m, n = m + 1 ∧ ∀ e ∈ entries, IsData catalog m e.1 ∧ IsData catalog m e.2 := by
  cases h with
  | atom h => cases h
  | dict hkeys hvalues => exact ⟨_, rfl, fun e he => ⟨hkeys e he, hvalues e he⟩⟩

theorem of_record {cls : String} {serial : Nat} {attrs : List (String × Value)}
    (h : IsData catalog n (.record cls serial attrs)) (hcls : (catalog.dataClass? cls).isSome) :
    ∃ m vs, n = m + 1 ∧ catalog.fieldValues cls attrs = .ok vs ∧ ∀ v ∈ vs, IsData catalog m v := by
  cases h with
  | atom h => cases h
  | object h =>
    rw [h] at hcls
    cases hcls
  | record value hread h =>
    refine ⟨_, _, rfl, Except.mapM_of_ok hread, fun v hv => ?_⟩
    obtain ⟨f, hf, rfl⟩ := List.mem_map.1 hv
    exact h f hf

/-- Comparing two values takes one step more than their parts nest deep. -/
theorem equalWithin_eq_ok (ha : IsData catalog n a) (hb : IsData catalog n b) :
    ∃ p, equalWithin catalog (n + 1) a b = .ok p := by
  induction n using Nat.strongRecOn generalizing a b with
  | _ n ih =>
    have hitems {m : Nat} (hm : n = m + 1) {as bs : List Value}
        (has : ∀ v ∈ as, IsData catalog m v) (hbs : ∀ v ∈ bs, IsData catalog m v) :
        ∃ p, equalItems (equalWithin catalog n) as bs = .ok p := by
      subst hm
      exact equalItems_eq_ok fun a h b h' => ih m (Nat.lt_succ_self m) (has a h) (hbs b h')
    rw [equalWithin]
    unfold equalBy
    split
    · obtain ⟨m, hm, ha⟩ := ha.of_list
      obtain ⟨m', hm', hb⟩ := hb.of_list
      split
      · obtain rfl : m = m' := by omega
        exact hitems hm ha hb
      · exact ⟨_, rfl⟩
    · obtain ⟨m, hm, ha⟩ := ha.of_tuple
      obtain ⟨m', hm', hb⟩ := hb.of_tuple
      obtain rfl : m = m' := by omega
      exact hitems hm ha hb
    · obtain ⟨m, hm, has⟩ := ha.of_dict
      obtain ⟨m', hm', hbs⟩ := hb.of_dict
      obtain rfl : m = m' := by omega
      subst hm
      split
      · exact equalEntries_eq_ok fun a h b h' =>
          ih m (Nat.lt_succ_self m) (hbs b h').2 (has a h).2
      · exact ⟨_, rfl⟩
    · rename_i c i as d j bs
      split
      · exact ⟨_, rfl⟩
      · rename_i hcd
        obtain rfl : c = d := not_not.1 hcd
        split
        · rename_i hcls
          obtain ⟨m, vs, hm, hvs, ha⟩ := ha.of_record hcls
          obtain ⟨m', ws, hm', hws, hb⟩ := hb.of_record hcls
          obtain rfl : m = m' := by omega
          rw [hvs, hws]
          exact hitems hm ha hb
        · exact ⟨_, rfl⟩
    · exact absurd rfl (ha.ne_expr _)
    · exact absurd rfl (hb.ne_expr _)
    · exact ⟨_, rfl⟩

end IsData

end Value

/-! ### Catalogs made in layers -/

mutual

/-- The names of the classes of the instances in a value. -/
def Value.classNames : Value → List String
  | .list items | .tuple items => classNamesOfValues items
  | .dict entries => classNamesOfEntries entries
  | .record cls _ attrs => cls :: classNamesOfAttrs attrs
  | _ => []

def classNamesOfValues : List Value → List String
  | [] => []
  | v :: vs => v.classNames ++ classNamesOfValues vs

def classNamesOfEntries : List (Value × Value) → List String
  | [] => []
  | (k, v) :: rest => k.classNames ++ v.classNames ++ classNamesOfEntries rest

def classNamesOfAttrs : List (String × Value) → List String
  | [] => []
  | (_, v) :: rest => v.classNames ++ classNamesOfAttrs rest

end

theorem Value.classNames_subset_of_mem {v : Value} {vs : List Value} (h : v ∈ vs) :
    v.classNames ⊆ classNamesOfValues vs := by
  induction vs with
  | nil => cases h
  | cons w ws ih =>
    rw [classNamesOfValues]
    cases h with
    | head => exact List.subset_append_left ..
    | tail _ h => exact List.Subset.trans (ih h) (List.subset_append_right ..)

theorem entries_eq_values (entries : List (Value × Value)) :
    depthOfEntries entries = depthOfValues (entries.flatMap fun e => [e.1, e.2]) ∧
      classNamesOfEntries entries = classNamesOfValues (entries.flatMap fun e => [e.1, e.2]) := by
  induction entries with
  | nil => exact ⟨rfl, rfl⟩
  | cons e entries ih =>
    obtain ⟨k, v⟩ := e
    simp [depthOfEntries, classNamesOfEntries, depthOfValues, classNamesOfValues, ih,
      Nat.max_assoc]

theorem attrs_eq_values (attrs : List (String × Value)) :
    depthOfAttrs attrs = depthOfValues (attrs.map (·.2)) ∧
      classNamesOfAttrs attrs = classNamesOfValues (attrs.map (·.2)) := by
  induction attrs with
  | nil => exact ⟨rfl, rfl⟩
  | cons e attrs ih =>
    obtain ⟨name, v⟩ := e
    simp [depthOfAttrs, classNamesOfAttrs, depthOfValues, classNamesOfValues, ih]

/-- A part of a value: it nests less deep, and its instances are instances in the value. -/
structure Value.IsPart (w v : Value) : Prop where
  depth : w.depth < v.depth
  classNames : w.classNames ⊆ v.classNames

namespace Value.IsPart

variable {w : Value} {items : List Value} {e : Value × Value} {entries : List (Value × Value)}

theorem list (h : w ∈ items) : w.IsPart (.list items) :=
  ⟨Nat.lt_succ_of_le (depth_le_of_mem h), classNames_subset_of_mem h⟩

theorem tuple (h : w ∈ items) : w.IsPart (.tuple items) :=
  ⟨Nat.lt_succ_of_le (depth_le_of_mem h), classNames_subset_of_mem h⟩

theorem entry (he : e ∈ entries) (hw : w = e.1 ∨ w = e.2) : w.IsPart (.dict entries) := by
  have h : w ∈ entries.flatMap fun e => [e.1, e.2] :=
    List.mem_flatMap.2 ⟨e, he, by simpa using hw⟩
  obtain ⟨hdepth, hnames⟩ := entries_eq_values entries
  constructor
  · rw [Value.depth, hdepth]
    exact Nat.lt_succ_of_le (depth_le_of_mem h)
  · rw [Value.classNames, hnames]
    exact classNames_subset_of_mem h

theorem attr {e : String × Value} {attrs : List (String × Value)} (he : e ∈ attrs) (cls : String)
    (serial : Nat) : e.2.IsPart (.record cls serial attrs) := by
  have h : e.2 ∈ attrs.map (·.2) := List.mem_map_of_mem he
  obtain ⟨hdepth, hnames⟩ := attrs_eq_values attrs
  constructor
  · rw [Value.depth, hdepth]
    exact Nat.lt_succ_of_le (depth_le_of_mem h)
  · rw [Value.classNames, hnames]
    exact List.subset_cons_of_subset cls (classNames_subset_of_mem h)

end Value.IsPart

/-- The classes, the latest first, were declared one after the other under new names, and each has
only instances of earlier ones for its own instances. -/
inductive Layered : List ClassDecl → Prop
  | nil : Layered []
  | cons {c : ClassDecl} {earlier : List ClassDecl} (hname : c.name ∉ earlier.map (·.name))
    (hvalues : ∀ v ∈ c.values, v.classNames ⊆ earlier.map (·.name)) (h : Layered earlier) :
    Layered (c :: earlier)

namespace Layered

variable {later earlier : List ClassDecl} {c : ClassDecl}

theorem of_append (h : Layered (later ++ earlier)) :
    Layered earlier ∧ ∀ name ∈ earlier.map (·.name), name ∉ later.map (·.name) := by
  induction later with
  | nil => exact ⟨h, by simp⟩
  | cons c later ih =>
    cases h with | cons hname hvalues h =>
    obtain ⟨hearlier, hnames⟩ := ih h
    refine ⟨hearlier, fun name hmem => ?_⟩
    rw [List.map_cons, List.mem_cons, not_or]
    refine ⟨?_, hnames name hmem⟩
    rintro rfl
    exact hname (by simpa using Or.inr (List.mem_map.1 hmem))

/-- The instances among the values of a class are of earlier classes. -/
theorem classNames_subset (h : Layered (later ++ c :: earlier)) {v : Value} (hv : v ∈ c.values) :
    v.classNames ⊆ earlier.map (·.name) := by
  cases h.of_append.1 with | cons hname hvalues h =>
  exact hvalues v hv

end Layered

namespace Catalog

/-- How deep values nest that are made from the values of classes. -/
def room : List ClassDecl → Nat
  | [] => 0
  | c :: classes => depthOfValues c.values + 1 + room classes

theorem nesting_eq (catalog : Catalog) (v : Value) :
    catalog.nesting v = v.depth + room catalog.classes := by
  have hfold (classes : List ClassDecl) (total : Nat) :
      classes.foldl (fun total c => total + (depthOfValues c.values + 1)) total =
        total + room classes := by
    induction classes generalizing total with
    | nil => rfl
    | cons c classes ih =>
      rw [List.foldl_cons, ih, room, Nat.add_assoc]
  exact hfold _ _

theorem room_append (later : List ClassDecl) (c : ClassDecl) (earlier : List ClassDecl) :
    depthOfValues c.values + 1 + room earlier ≤ room (later ++ c :: earlier) := by
  induction later with
  | nil => exact Nat.le_refl _
  | cons c' later ih => exact Nat.le_trans ih (Nat.le_add_left ..)

theorem lineageIn_append {name : String} {later : List ClassDecl}
    (h : name ∉ later.map (·.name)) (earlier : List ClassDecl) :
    lineageIn name (later ++ earlier) = lineageIn name earlier := by
  induction later with
  | nil => rfl
  | cons c later ih =>
    rw [List.map_cons, List.mem_cons, not_or] at h
    rw [List.cons_append, lineageIn, if_neg (Ne.symm h.1), ih h.2]

theorem mem_of_mem_lineageIn {name : String} {c : ClassDecl} {classes : List ClassDecl}
    (h : c ∈ lineageIn name classes) : c ∈ classes := by
  induction classes generalizing name with
  | nil => cases h
  | cons c' classes ih =>
    rw [lineageIn] at h
    split at h
    · rcases List.mem_append.1 h with h | h
      · split at h
        · exact List.mem_cons_of_mem _ (ih h)
        · cases h
      · exact List.mem_singleton.1 h ▸ List.mem_cons_self
    · exact List.mem_cons_of_mem _ (ih h)

theorem name_mem_of_mem_lineageIn {name : String} {c : ClassDecl} {classes : List ClassDecl}
    (h : c ∈ lineageIn name classes) : name ∈ classes.map (·.name) := by
  by_contra hname
  rw [← List.append_nil classes, lineageIn_append hname] at h
  cases h

theorem mem_values_of_ownMember? {c : ClassDecl} {name : String} {v : Value}
    (h : ownMember? c name = some (.shared v) ∨ ∃ p : Property,
      ownMember? c name = some (.property p) ∧ p.getter = some (.constant v)) : v ∈ c.values := by
  unfold ownMember? at h
  rw [ClassDecl.values, List.mem_append]
  cases hp : c.properties.reverse.find? (·.name == name) with
  | some p =>
    simp only [hp, Option.some.injEq, ClassMember.property.injEq, reduceCtorEq, false_or] at h
    obtain ⟨p', rfl, hgetter⟩ := h
    refine .inl (List.mem_filterMap.2 ⟨p, List.mem_reverse.1 (List.mem_of_find?_eq_some hp), ?_⟩)
    rw [hgetter]
  | none =>
    simp only [hp] at h
    cases hf : c.fields.reverse.find? (·.name == name) with
    | none => simp [hf] at h
    | some f =>
      have hmem : f ∈ c.fields := List.mem_reverse.1 (List.mem_of_find?_eq_some hf)
      obtain ⟨fname, type, default, initial⟩ := f
      rcases default with _ | v' | v' | _ | _
      case some.value =>
        simp only [hf, Option.some.injEq, ClassMember.shared.injEq, reduceCtorEq, false_and,
          exists_false, or_false] at h
        subst h
        exact .inr (List.mem_filterMap.2 ⟨_, hmem, rfl⟩)
      all_goals simp [hf] at h

/-- An attribute of an instance is stored, or a value that one of its classes has. -/
theorem mem_of_attributeOf {catalog : Catalog} {cls name : String}
    {attrs : List (String × Value)} {v : Value}
    (h : catalog.attributeOf cls attrs name = .ok v) :
    (∃ e ∈ attrs, e.2 = v) ∨ ∃ c ∈ catalog.lineage cls, v ∈ c.values := by
  have hstored {name : String} (hv : attrs.lookup name = some v) : ∃ e ∈ attrs, e.2 = v := by
    obtain ⟨front, back, hattrs, -⟩ := List.lookup_eq_some_iff.1 hv
    exact ⟨(name, v), by simp [hattrs], rfl⟩
  have hclass {name : String} {m : ClassMember} (hm : catalog.member? cls name = some m) :
      ∃ c ∈ catalog.lineage cls, ownMember? c name = some m := by
    obtain ⟨c, hc, hown⟩ := List.exists_of_findSome?_eq_some hm
    exact ⟨c, List.mem_reverse.1 hc, hown⟩
  rw [attributeOf] at h
  generalize catalog.propertyCount = fuel at h
  fun_induction instanceAttr catalog cls attrs fuel name with
  | case1 | case3 | case7 => cases h
  | case2 fuel name p hp w hgetter =>
    cases h
    obtain ⟨c, hc, hown⟩ := hclass hp
    exact .inr ⟨c, hc, mem_values_of_ownMember? (.inr ⟨p, hown, hgetter⟩)⟩
  | case4 name p hp a hgetter fuel ih => exact ih h
  | case5 fuel name w hw =>
    obtain ⟨c, hc, hown⟩ := hclass hw
    cases hv : attrs.lookup name with
    | some u =>
      rw [hv] at h
      cases h
      exact .inl (hstored hv)
    | none =>
      rw [hv] at h
      cases h
      exact .inr ⟨c, hc, mem_values_of_ownMember? (.inl hown)⟩
  | case6 fuel name hnone w hw =>
    cases h
    exact .inl (hstored hw)

end Catalog

/-- The instances among the values of a class are of declared classes. -/
theorem Layered.classNames_subset_of_mem {classes : List ClassDecl} (h : Layered classes)
    {c : ClassDecl} (hc : c ∈ classes) {v : Value} (hv : v ∈ c.values) :
    v.classNames ⊆ classes.map (·.name) := by
  obtain ⟨later, earlier, rfl⟩ := List.append_of_mem hc
  intro cls hcls
  have hearlier := h.classNames_subset hv hcls
  simp only [List.map_append, List.map_cons, List.mem_append, List.mem_cons]
  exact .inr (.inr hearlier)

/-- The default that a field gets when its class is declared is its own or one found in the
class. -/
theorem Catalog.default_withDefault (catalog : Catalog) (c : ClassDecl) (f : FieldDecl) :
    (catalog.withDefault c f).default = f.default ∨ (catalog.withDefault c f).default = none ∨
      ∃ v, (catalog.withDefault c f).default = some (.inherited v) ∧
        (v = propertyObject ∨ ∃ c' ∈ catalog.classes, v ∈ c'.values) := by
  unfold withDefault
  split
  · exact .inr (.inr ⟨_, rfl, .inl rfl⟩)
  · split
    · cases hm : c.base.bind (catalog.member? · f.name) with
      | none => exact .inr (.inl rfl)
      | some m =>
        refine .inr (.inr ⟨_, rfl, ?_⟩)
        obtain ⟨base, -, hm⟩ := Option.bind_eq_some_iff.1 hm
        obtain ⟨c', hc', hown⟩ := List.exists_of_findSome?_eq_some hm
        cases m with
        | property p => exact .inl rfl
        | shared v =>
          exact .inr ⟨c', mem_of_mem_lineageIn (List.mem_reverse.1 hc'),
            mem_values_of_ownMember? (.inl hown)⟩
    · exact .inl rfl

/-- A class has its own values when it is declared, and those that its fields find. -/
theorem Catalog.mem_values_settled {catalog : Catalog} {c : ClassDecl} {v : Value}
    (h : v ∈ (catalog.settled c).values) :
    v ∈ c.values ∨ v = propertyObject ∨ ∃ c' ∈ catalog.classes, v ∈ c'.values := by
  unfold settled at h
  split at h
  · rw [ClassDecl.values, List.mem_append] at h
    rcases h with h | h
    · exact .inl (List.mem_append_left _ h)
    · obtain ⟨f', hf', hv⟩ := List.mem_filterMap.1 h
      obtain ⟨f, hf, rfl⟩ := List.mem_map.1 hf'
      rcases catalog.default_withDefault c f with hdefault | hdefault | ⟨w, hdefault, hw⟩
      · rw [hdefault] at hv
        exact .inl (List.mem_append_right _ (List.mem_filterMap.2 ⟨f, hf, hv⟩))
      · rw [hdefault] at hv
        cases hv
      · rw [hdefault] at hv
        cases hv
        exact .inr hw
  · exact .inl h

theorem Catalog.classes_of_declare {catalog catalog' : Catalog} {c : ClassDecl}
    (h : catalog.declare c = .ok catalog') :
    catalog'.classes = catalog.settled c :: catalog.classes := by
  unfold declare at h
  dsimp only at h
  split at h
  on_goal 1 => obtain ⟨-, -, h⟩ := Except.bind_eq_ok.1 h
  all_goals
    repeat' split at h
    all_goals cases h
    all_goals rfl

/-- Declaring a class under a new name, with values that are made of the classes that are declared
already, adds a layer. -/
theorem Layered.declare {catalog catalog' : Catalog} {c : ClassDecl}
    (h : Layered catalog.classes) (hname : c.name ∉ catalog.classes.map (·.name))
    (hvalues : ∀ v ∈ c.values, v.classNames ⊆ catalog.classes.map (·.name))
    (hc : catalog.declare c = .ok catalog') : Layered catalog'.classes := by
  have hsettled : (catalog.settled c).name = c.name := by
    unfold Catalog.settled
    split <;> rfl
  rw [Catalog.classes_of_declare hc]
  refine .cons (hsettled ▸ hname) (fun v hv => ?_) h
  rcases Catalog.mem_values_settled hv with hv | rfl | ⟨c', hc', hv⟩
  · exact hvalues v hv
  · exact List.nil_subset _
  · exact h.classNames_subset_of_mem hc' hv

namespace Value.IsData

variable {catalog : Catalog} {n : Nat} {a b v : Value}

theorem of_part {w : Value} {room m : Nat} (h : IsData catalog (w.depth + room) w)
    (hpart : w.IsPart v) (hv : v.depth = m + 1) : IsData catalog (m + room) w := by
  have := hpart.depth
  exact h.mono (by omega)

/-- A value whose instances are of some of the classes, latest first, nests no deeper than the value
itself and what these classes have. -/
theorem of_layered (hlayered : Layered catalog.classes) (later : List ClassDecl)
    {classes : List ClassDecl} (hclasses : catalog.classes = later ++ classes)
    (hnames : ∀ cls ∈ v.classNames, (catalog.dataClass? cls).isSome →
      cls ∈ classes.map (·.name)) (h : IsData catalog n v) :
    IsData catalog (v.depth + Catalog.room classes) v := by
  induction hlength : classes.length using Nat.strongRecOn
    generalizing later classes v n with
  | _ length ihclasses =>
  subst hlength
  induction h with
  | atom h => exact .atom h
  | object h => exact .object h
  | @list n items h ih =>
    rw [Value.depth, Nat.add_right_comm]
    refine .list fun w hw => ?_
    have hpart := IsPart.list hw
    exact (ih w hw fun cls hcls => hnames cls (hpart.classNames hcls)).of_part hpart rfl
  | @tuple n items h ih =>
    rw [Value.depth, Nat.add_right_comm]
    refine .tuple fun w hw => ?_
    have hpart := IsPart.tuple hw
    exact (ih w hw fun cls hcls => hnames cls (hpart.classNames hcls)).of_part hpart rfl
  | @dict n entries hkeys hvalues ihkeys ihvalues =>
    rw [Value.depth, Nat.add_right_comm]
    refine .dict (fun e he => ?_) fun e he => ?_
    · have hpart := IsPart.entry he (.inl rfl)
      exact (ihkeys e he fun cls hcls => hnames cls (hpart.classNames hcls)).of_part hpart rfl
    · have hpart := IsPart.entry he (.inr rfl)
      exact (ihvalues e he fun cls hcls => hnames cls (hpart.classNames hcls)).of_part hpart rfl
  | @record n serial cls attrs value hread h ih =>
    cases hdata : catalog.dataClass? cls with
    | none => exact .object hdata
    | some data =>
      rw [Value.depth, Nat.add_right_comm]
      refine .record value hread fun f hf => ?_
      rcases Catalog.mem_of_attributeOf (hread f hf) with ⟨e, he, hvalue⟩ | ⟨c, hc, hvalue⟩
      · have hpart := IsPart.attr he cls serial
        rw [hvalue] at hpart
        exact (ih f hf fun cls hcls => hnames cls (hpart.classNames hcls)).of_part hpart rfl
      · -- a value of a class is made of classes that were declared before this one
        have hcls : cls ∈ classes.map (·.name) :=
          hnames cls (List.mem_cons_self) (by rw [hdata]; rfl)
        rw [hclasses] at hlayered
        rw [Catalog.lineage, hclasses,
          Catalog.lineageIn_append (hlayered.of_append.2 cls hcls)] at hc
        obtain ⟨between, earlier, rfl⟩ := List.append_of_mem (Catalog.mem_of_mem_lineageIn hc)
        have hearlier := hlayered.of_append.1.classNames_subset hvalue
        refine (ihclasses earlier.length (by simp; omega) (later ++ between ++ [c])
          (by simp [hclasses]) (fun cls hcls _ => hearlier hcls) (h f hf) rfl).mono ?_
        have hroom := Catalog.room_append between c earlier
        have hdepth := depth_le_of_mem hvalue
        omega

/-- A value that can be compared is compared within as many steps as `nesting` counts. -/
theorem nesting (hlayered : Layered catalog.classes) (h : IsData catalog n v) :
    IsData catalog (catalog.nesting v) v := by
  rw [Catalog.nesting_eq]
  refine h.of_layered hlayered [] rfl fun cls _ hcls => ?_
  obtain ⟨c, hc⟩ := Option.isSome_iff_exists.1 hcls
  exact Catalog.name_mem_of_mem_lineageIn (List.mem_reverse.1 (List.mem_of_find?_eq_some hc))

/-- **Comparing values does not fail.** -/
theorem equal_eq_ok (hlayered : Layered catalog.classes) {m : Nat} (ha : IsData catalog n a)
    (hb : IsData catalog m b) : ∃ p, a.equal catalog b = .ok p :=
  equalWithin_eq_ok ((ha.nesting hlayered).mono (Nat.le_max_left ..))
    ((hb.nesting hlayered).mono (Nat.le_max_right ..))

theorem occursIn_eq_ok (hlayered : Layered catalog.classes) (hv : IsData catalog n v)
    {values : List Value} (h : ∀ w ∈ values, ∃ m, IsData catalog m w) :
    ∃ p, v.occursIn catalog values = .ok p := by
  induction values with
  | nil => exact ⟨_, rfl⟩
  | cons w values ih =>
    rw [List.forall_mem_cons] at h
    obtain ⟨⟨m, hw⟩, h⟩ := h
    obtain ⟨p, hp⟩ := hw.equal_eq_ok hlayered hv
    obtain ⟨q, hq⟩ := ih h
    rw [occursIn, matching]
    split
    · exact ⟨true, rfl⟩
    · rw [hp, Except.ok_bind, hq]
      cases p <;> exact ⟨_, rfl⟩

end Value.IsData

end RecordQuery
