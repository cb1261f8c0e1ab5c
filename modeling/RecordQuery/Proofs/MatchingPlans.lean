import RecordQuery.Column.Memory
import RecordQuery.Proofs.TypeEquality
import RecordQuery.Query.Selection

/-!
# Plans made for matching rows

A plan may be made for one schema and be applied to the rows of another that has the same members,
by name, access and type. It then does what the plan made for the rows themselves does, if each
member that is copied can be read in both schemas or in neither (`Query.select_between`): the
bindings are the same but for the types that they convert from (`ProjectionPlan.bindings_alike`),
and these only show in the report of a failed conversion. Whether a member can be read is not looked
at when the members are compared, and a plan reads members that the query's own plan leaves out if
it differs (`Query.select_hatch_property`).
-/

namespace RecordQuery

variable {R : TypeExpr → TypeExpr → Prop} {s s' t : Schema} {f g : Field}

/-! ### Matching members -/

/-- The members are read in the same way and have related types, equal to the same types. -/
structure Field.Matches (R : TypeExpr → TypeExpr → Prop) (f g : Field) : Prop where
  name : f.name = g.name
  access : f.access = g.access
  types : R f.type g.type
  equal : ∀ t, f.type.same t = g.type.same t

theorem Field.Matches.read_eq (h : f.Matches R g) (catalog : Catalog) (v : Value) :
    f.read catalog v = g.read catalog v := by
  simp only [read, h.name, h.access]

namespace Schema

/-- Schemas that agree have members of the same names, read in the same way and of equal types. -/
theorem agrees_iff : s.agrees s' = true ↔
    List.Forall₂ (fun f g => f.name = g.name ∧ f.access = g.access ∧ f.type.same g.type = true)
      s.fields s'.fields := by
  rw [agrees, Bool.and_eq_true, beq_iff_eq, List.forall₂_iff_zip, List.all_eq_true]
  refine and_congr_right fun _ => ⟨fun h f g hmem => ?_, fun h x hmem => ?_⟩
  · simpa [and_assoc] using h (f, g) hmem
  · simpa [and_assoc] using h hmem

/-- A schema agrees with itself, so it need not be asked first whether two are one and the same. -/
theorem agrees_self (s : Schema) : s.agrees s = true :=
  agrees_iff.2 (List.forall₂_same.2 fun _ _ => ⟨rfl, rfl, TypeExpr.same_refl _⟩)

/-- The members found under a name match too. -/
theorem get?_matches (h : List.Forall₂ (Field.Matches R) s.fields s'.fields) (name : String) :
    Option.Rel (Field.Matches R) (s.get? name) (s'.get? name) := by
  unfold get?
  generalize s.fields = fs at h ⊢
  generalize s'.fields = gs at h ⊢
  induction h with
  | nil => exact .none
  | @cons f g fs gs hfg _ ih =>
    rw [List.find?_cons, List.find?_cons, hfg.name]
    cases g.name == name with
    | true => exact .some hfg
    | false => exact ih

end Schema

/-! ### Bindings -/

/-- The bindings give the same member a value that is read in the same way; the types that it is
converted from are related. -/
structure Binding.Alike (R : TypeExpr → TypeExpr → Prop) (b b' : Binding) : Prop where
  target : b.target = b'.target
  read : ∀ catalog v, b.source.read catalog v = b'.source.read catalog v
  coercion : Option.Rel (fun c c' => R c.source c'.source ∧ c.target = c'.target)
    b.coercion b'.coercion

namespace Binding

variable {b b' : Binding}

theorem Alike.valueFrom (h : b.Alike R b') (catalog : Catalog) (v : Value) :
    Respelled R (· = ·) (b.valueFrom catalog v) (b'.valueFrom catalog v) := by
  rw [Binding.valueFrom, Binding.valueFrom, h.read, name, name, h.target]
  refine (Respelled.same _).bind fun w => ?_
  have hcoercion := h.coercion
  generalize b.coercion = c at hcoercion ⊢
  generalize b'.coercion = c' at hcoercion ⊢
  cases hcoercion with
  | none => exact .same _
  | some hc => exact Coercion.apply_respelled hc.1 hc.2 (by rw [hc.2]) _

/-- A target member that can be read in both sources or in neither is bound alike. -/
theorem ofTarget?_alike (h : List.Forall₂ (Field.Matches R) s.fields s'.fields)
    (hreadable : f.writable = true →
      (s.get? f.name).map (·.readable) = (s'.get? f.name).map (·.readable)) :
    Option.Rel (Alike R) (ofTarget? s f) (ofTarget? s' f) := by
  unfold ofTarget?
  cases hwritable : f.writable with
  | false => exact .none
  | true =>
    have hreadable := hreadable hwritable
    have hmatch := Schema.get?_matches h f.name
    generalize s.get? f.name = found at hreadable hmatch
    generalize s'.get? f.name = found' at hreadable hmatch
    cases hmatch with
    | none => exact .none
    | @some g g' hg =>
      have hreadable : g.readable = g'.readable := by simpa using hreadable
      simp only [Bool.not_true, Bool.false_eq_true, if_false, hreadable, hg.equal]
      split
      · refine .some ⟨rfl, fun catalog v => hg.read_eq catalog v, ?_⟩
        split
        · exact .none
        · exact .some ⟨hg.types, rfl⟩
      · exact .none

end Binding

namespace ProjectionPlan

theorem forall₂_filterMap {α β γ : Type} {r : β → γ → Prop} {f : α → Option β}
    {g : α → Option γ} {xs : List α} (h : ∀ x ∈ xs, Option.Rel r (f x) (g x)) :
    List.Forall₂ r (xs.filterMap f) (xs.filterMap g) := by
  induction xs with
  | nil => exact .nil
  | cons x xs ih =>
    rw [List.forall_mem_cons] at h
    have hfirst := h.1
    rw [List.filterMap_cons, List.filterMap_cons]
    generalize f x = y at hfirst
    generalize g x = z at hfirst
    cases hfirst with
    | none => exact ih h.2
    | some hyz => exact .cons hyz (ih h.2)

/-- **The plans bind alike**: the same members in the same order. -/
theorem bindings_alike (h : List.Forall₂ (Field.Matches R) s.fields s'.fields)
    (hreadable : ∀ f ∈ t.fields, f.writable = true →
      (s.get? f.name).map (·.readable) = (s'.get? f.name).map (·.readable)) :
    List.Forall₂ (Binding.Alike R) (between s t).bindings (between s' t).bindings :=
  forall₂_filterMap fun f hf => Binding.ofTarget?_alike h (hreadable f hf)

theorem values_respelled {p p' : ProjectionPlan}
    (h : List.Forall₂ (Binding.Alike R) p.bindings p'.bindings) (catalog : Catalog) (v : Value) :
    Respelled R (· = ·) (p.values catalog v) (p'.values catalog v) := by
  unfold values
  generalize ([] : List (String × Value)) = entries
  generalize p.bindings = bs at h
  generalize p'.bindings = bs' at h
  induction h generalizing entries with
  | nil => exact .same _
  | cons hb _ ih =>
    rw [List.foldlM_cons, List.foldlM_cons]
    refine Respelled.bind ?_ ih
    refine (hb.valueFrom catalog v).bind fun w => ?_
    rw [Binding.name, Binding.name, hb.target]
    exact .same _

theorem apply_respelled {p p' : ProjectionPlan}
    (h : List.Forall₂ (Binding.Alike R) p.bindings p'.bindings) (htarget : p.target = p'.target)
    (catalog : Catalog) (v : Value) :
    Respelled R (· = ·) (p.apply catalog v) (p'.apply catalog v) := by
  rw [apply, apply, htarget]
  exact (values_respelled h catalog v).bind fun values => .same _

end ProjectionPlan

/-! ### Queries -/

namespace Query

variable {E : Engine} {d : Directory} {q : Query E}

/-- Plans that build alike from each row project a query alike. -/
theorem project_respelled {p p' : ProjectionPlan} (htarget : p.target = p'.target)
    (h : ∀ v, Respelled R (· = ·) (p.apply d.catalog v) (p'.apply d.catalog v)) :
    Respelled R (· = ·) (q.project d p) (q.project d p') := by
  unfold project
  rw [htarget]
  refine (Respelled.same _).bind fun source => ?_
  cases source with
  | list rows => exact (Respelled.mapM h rows).bind fun records => .same _
  | table table placement =>
    exact (Respelled.same _).bind fun rows =>
      (Respelled.mapM h rows).bind fun records => .same _

theorem select_of_agrees {p : ProjectionPlan} (h : p.source.agrees q.schema = true) :
    q.select d p = q.project d p := by
  rw [select, if_pos h]

theorem select_respelled {s t : Schema} (hagrees : s.agrees q.schema = true)
    (hfields : List.Forall₂ (Field.Matches R) s.fields q.schema.fields)
    (hreadable : ∀ f ∈ t.fields, f.writable = true →
      (s.get? f.name).map (·.readable) = (q.schema.get? f.name).map (·.readable)) :
    Respelled R (· = ·) (q.select d (.between s t)) (q.project d (.between q.schema t)) := by
  rw [select_of_agrees hagrees]
  exact project_respelled rfl fun v => ProjectionPlan.apply_respelled
    (ProjectionPlan.bindings_alike hfields hreadable) rfl d.catalog v

/-- **Plans made for matching rows.** Selecting by a plan that was made for a schema with the same
members gives the same records as the query's own plan for the target, or fails with the same error,
in which a failed conversion may report another type that is equal to the source's. The outcomes are
one and the same if the types are, not only equal. For this the two schemas have to agree on whether
the members that are copied can be read, and the types are made in the usual way. -/
theorem select_between (d : Directory) (q : Query E) (s t : Schema)
    (hagrees : s.agrees q.schema = true)
    (hproper : ∀ f ∈ s.fields ++ q.schema.fields, f.type.IsProper)
    (hreadable : ∀ f ∈ t.fields, f.writable = true →
      (s.get? f.name).map (·.readable) = (q.schema.get? f.name).map (·.readable)) :
    Respelled (fun a b => a.same b = true) (· = ·)
      (q.select d (.between s t)) (q.project d (.between q.schema t)) ∧
    (s.fields.map (·.type) = q.schema.fields.map (·.type) →
      q.select d (.between s t) = q.project d (.between q.schema t)) := by
  have hfields := Schema.agrees_iff.1 hagrees
  constructor
  · refine select_respelled hagrees (List.forall₂_iff_zip.2 ⟨hfields.length_eq, ?_⟩) hreadable
    intro f g hmem
    obtain ⟨hname, haccess, hsame⟩ := List.forall₂_zip hfields hmem
    obtain ⟨hf, hg⟩ := List.of_mem_zip hmem
    exact ⟨hname, haccess, hsame, TypeExpr.same_congr (hproper f (List.mem_append_left _ hf))
      (hproper g (List.mem_append_right _ hg)) hsame⟩
  · intro htypes
    have htypes : List.Forall₂ (fun f g : Field => f.type = g.type) s.fields q.schema.fields := by
      rw [← List.forall₂_eq_eq_eq, List.forall₂_map_left_iff, List.forall₂_map_right_iff] at htypes
      exact htypes
    refine (select_respelled hagrees (List.forall₂_iff_zip.2 ⟨hfields.length_eq, ?_⟩) hreadable).eq
    intro f g hmem
    obtain ⟨hname, haccess, -⟩ := List.forall₂_zip hfields hmem
    have htype : f.type = g.type := List.forall₂_zip htypes hmem
    exact ⟨hname, haccess, htype, fun t => by rw [htype]⟩

private def codeOfHatch : Property where
  name := "code"
  type := none
  getter := none
  setter := some "_code"

/-- Callers and guests have a code of equal types, with the parts of the union in another order.
Doors have one of any type, and so have hatches, but theirs can only be assigned. -/
private def entrance : Directory where
  catalog := {
    classes := [
      { name := "Badge", kind := .mapping, fields := [{ name := "code", type := .builtin .str }] },
      { name := "Caller", kind := .mapping,
        fields := [{ name := "code", type := .union .named [.builtin .int, .builtin .str] }] },
      { name := "Guest", kind := .mapping,
        fields := [{ name := "code", type := .union .named [.builtin .str, .builtin .int] }] },
      { name := "Hatch", kind := .plain, properties := [codeOfHatch] },
      { name := "Door", kind := .data false false,
        fields := [{ name := "code", type := .any }] }] }

private def badges : Schema := entrance.schemaOf (.record "Badge")

private def callers : Schema := entrance.schemaOf (.record "Caller")

private def guestRows : Query .inMemory :=
  .ofList [.dict [(.str "code", .str "7")]] (entrance.schemaOf (.record "Guest"))

private def doorRows : Query .inMemory :=
  .ofList [.record "Door" 0 [("code", .str "7")]] (entrance.schemaOf (.record "Door"))

private def hatches : Schema := entrance.schemaOf (.record "Hatch")

private theorem isProper_code {t : TypeExpr}
    (h : t = .union .named [.builtin .int, .builtin .str] ∨
      t = .union .named [.builtin .str, .builtin .int]) : t.IsProper := by
  rcases h with rfl | rfl
  · exact ⟨⟨trivial, trivial, trivial⟩, by simp [TypeExpr.same]⟩
  · exact ⟨⟨trivial, trivial, trivial⟩, by simp [TypeExpr.same]⟩

/-- A plan made for callers copies the code of a guest into a badge. -/
theorem select_between_guests :
    guestRows.select entrance (.between callers badges) =
      .ok (.ofList [.dict [(.str "code", .str "7")]] badges) := by
  have hproject : guestRows.project entrance (.between guestRows.schema badges) =
      .ok (.ofList [.dict [(.str "code", .str "7")]] badges) := rfl
  refine (select_between entrance guestRows callers badges rfl ?_ ?_).1.eq_ok_iff.2 hproject
  · have hfields : callers.fields ++ guestRows.schema.fields =
        [{ name := "code", type := .union .named [.builtin .int, .builtin .str], access := .item },
          { name := "code", type := .union .named [.builtin .str, .builtin .int],
            access := .item }] := rfl
    rw [hfields]
    simp only [List.forall_mem_cons]
    exact ⟨isProper_code (.inl rfl), isProper_code (.inr rfl), nofun⟩
  · have hfields : badges.fields =
        [{ name := "code", type := .builtin .str, access := .item }] := rfl
    rw [hfields]
    simp only [List.forall_mem_cons]
    exact ⟨fun _ => rfl, nofun⟩

private theorem hatches_eq : hatches =
    { key := .ofType (.record "Hatch"), name := "Hatch",
      fields := [{ name := "code", readable := false }], maker := .instance "Hatch" } := by
  have hvisible : Catalog.isPrivate codeOfHatch.name = false := by decide +kernel
  have hfields : hatches =
      { key := .ofType (.record "Hatch"), name := "Hatch",
        fields := entrance.catalog.propertyFields "Hatch" [], maker := .instance "Hatch" } := rfl
  have hproperties : (entrance.catalog.lineage "Hatch").flatMap (·.properties) =
      [codeOfHatch] := rfl
  rw [hfields, Catalog.propertyFields, hproperties]
  simp only [List.foldl_cons, List.foldl_nil, hvisible]
  rfl

/-- The code of a hatch cannot be read, and yet a plan made for hatches is accepted for doors: it
leaves out the code that the doors' own plan copies. -/
theorem select_hatch_property :
    hatches.agrees doorRows.schema = true ∧
      doorRows.select entrance (.between hatches badges) =
        .ok (.ofList [.dict [(.str "code", .null)]] badges) ∧
      doorRows.project entrance (.between doorRows.schema badges) =
        .ok (.ofList [.dict [(.str "code", .str "7")]] badges) := by
  rw [hatches_eq]
  exact ⟨rfl, rfl, rfl⟩

end Query
end RecordQuery
