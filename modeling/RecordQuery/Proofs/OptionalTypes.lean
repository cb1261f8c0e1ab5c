import RecordQuery.Proofs.SharedSchemas

/-!
# Optional types

The value of a member of an optional type is described by the type that null is added to. Equal
types of members lead to what was declared under one name, or neither leads to anything declared
(`TypeExpr.declaration?_unwrapOptional`), and so are entered alike (`Directory.enter_of_same`).
Equality of unions looks at the members of the first one only, so this takes that no two of these
are the same (`TypeExpr.IsDistinct`), which is how unions are made (`TypeExpr.pairwise_distinct`).
-/

namespace RecordQuery

namespace TypeExpr

variable {a b : TypeExpr} {as bs ts : List TypeExpr} {k : String ⊕ String}

/-- The name under which the type was declared, as a class or as a schema. -/
def declaration? : TypeExpr → Option (String ⊕ String)
  | .record name => some (.inl name)
  | .schema name _ => some (.inr name)
  | _ => none

/-- If the type is a union, no two of its members are the same. -/
def IsDistinct (t : TypeExpr) : Prop :=
  ∀ style members, t = .union style members → members.Pairwise fun a b => a.same b = false

theorem pairwise_distinct (ts : List TypeExpr) :
    (distinct ts).Pairwise fun a b => a.same b = false := by
  refine List.foldlRecOn
    (motive := fun kept : List TypeExpr => kept.Pairwise fun a b => a.same b = false) _ _ .nil
    fun kept ih t _ => ?_
  split
  · exact ih
  · rename_i hnew
    refine List.pairwise_append.2 ⟨ih, List.pairwise_singleton _ _, fun a ha b hb => ?_⟩
    cases List.mem_singleton.1 hb
    exact Bool.eq_false_iff.2 fun hsame => hnew (List.any_eq_true.2 ⟨a, ha, hsame⟩)

theorem eq_nullType_iff_of_same (h : a.same b = true) : a = .nullType ↔ b = .nullType := by
  cases a <;> cases b <;> simp_all [same]

theorem declaration?_of_same (h : a.same b = true) : a.declaration? = b.declaration? := by
  cases a <;> cases b <;> simp_all [same, declaration?]

theorem same_of_declaration? (ha : a.declaration? = some k) (hb : b.declaration? = some k) :
    a.same b = true := by
  cases a <;> cases ha <;> cases b <;> cases hb <;> simp [same]

theorem same_nullType : a.same .nullType = true ↔ a = .nullType := by
  constructor
  · exact fun h => (eq_nullType_iff_of_same h).2 rfl
  · rintro rfl
    rfl

theorem within_iff : within as bs = true ↔ ∀ a ∈ as, ∃ b ∈ bs, a.same b = true := by
  induction as with
  | nil => simp [within]
  | cons a as ih => simp [within, ih]

theorem not_both_of_not_same (h : a.same b = false) :
    ¬ (a = .nullType ∧ b = .nullType) ∧
      ¬ (a.declaration? = some k ∧ b.declaration? = some k) := by
  constructor
  · rintro ⟨rfl, rfl⟩
    cases h
  · rintro ⟨ha, hb⟩
    rw [same_of_declaration? ha hb] at h
    cases h

/-- Distinct members that are null or declared under one name: there is at most one of each. -/
theorem exists_of_forall_declaration? (hpairs : as.Pairwise fun a b => a.same b = false)
    (h : ∀ a ∈ as, a = .nullType ∨ a.declaration? = some k) :
    as = [] ∨ as = [.nullType] ∨ ∃ x, x.declaration? = some k ∧
      (as = [x] ∨ as = [x, .nullType] ∨ as = [.nullType, x]) := by
  match as with
  | [] => exact .inl rfl
  | [a] =>
    rcases h a (by simp) with rfl | ha
    · exact .inr (.inl rfl)
    · exact .inr (.inr ⟨a, ha, .inl rfl⟩)
  | [a, b] =>
    have hab := not_both_of_not_same (k := k) ((List.pairwise_cons.1 hpairs).1 b (by simp))
    rcases h a (by simp) with rfl | ha <;> rcases h b (by simp) with rfl | hb
    · exact absurd ⟨rfl, rfl⟩ hab.1
    · exact .inr (.inr ⟨b, hb, .inr (.inr rfl)⟩)
    · exact .inr (.inr ⟨a, ha, .inr (.inl rfl)⟩)
    · exact absurd ⟨ha, hb⟩ hab.2
  | a :: b :: c :: rest =>
    -- two of three members are both null or both declared
    simp only [List.pairwise_cons, List.forall_mem_cons] at hpairs h
    have hab := not_both_of_not_same (k := k) hpairs.1.1
    have hac := not_both_of_not_same (k := k) hpairs.1.2.1
    have hbc := not_both_of_not_same (k := k) hpairs.2.1.1
    tauto

/-- The declaration that a union leads to is that of its one member that is not null. -/
theorem declaration?_unwrapOptional_union {style : UnionStyle} :
    (union style as).unwrapOptional.declaration? = some k ↔
      ∃ x, as.filter (fun m => !m.same .nullType) = [x] ∧ x.declaration? = some k := by
  rw [unwrapOptional]
  split
  · rename_i x hx
    simp [hx]
  · rename_i hnone
    constructor
    · nofun
    · rintro ⟨x, hx, -⟩
      exact absurd hx (hnone x)

theorem ne_nullType_of_declaration? (h : a.declaration? = some k) : a ≠ .nullType := by
  rintro rfl
  cases h

/-- A declared type in a union, with or without null beside it, is what the union leads to. -/
theorem filter_of_declaration? (h : a.declaration? = some k)
    (hmembers : as = [a] ∨ as = [a, .nullType] ∨ as = [.nullType, a]) :
    as.filter (fun m => !m.same .nullType) = [a] := by
  have ha : a.same .nullType = false :=
    Bool.eq_false_iff.2 fun hsame => ne_nullType_of_declaration? h (same_nullType.1 hsame)
  have hnull : same .nullType .nullType = true := same_nullType.2 rfl
  rcases hmembers with rfl | rfl | rfl <;> simp [ha, hnull]

/-- Each member of the second union is the same as one of the first, which is null or declared. -/
theorem exists_of_within (hlength : as.length = bs.length)
    (hwithin : ∀ a ∈ as, ∃ b ∈ bs, a.same b = true) (ha : a.declaration? = some k)
    (hmembers : as = [a] ∨ as = [a, .nullType] ∨ as = [.nullType, a]) :
    ∃ b, b.declaration? = some k ∧ (bs = [b] ∨ bs = [b, .nullType] ∨ bs = [.nullType, b]) := by
  have hdeclared : ∀ b, a.same b = true → b.declaration? = some k := fun b hb => by
    rw [← declaration?_of_same hb, ha]
  obtain ⟨b, hb, hab⟩ := hwithin a (by rcases hmembers with rfl | rfl | rfl <;> simp)
  refine ⟨b, hdeclared b hab, ?_⟩
  have hne := ne_nullType_of_declaration? (hdeclared b hab)
  have hnull : as.length = 2 → .nullType ∈ bs := by
    intro htwo
    obtain ⟨c, hc, hnull⟩ :=
      hwithin .nullType (by rcases hmembers with rfl | rfl | rfl <;> simp at htwo ⊢)
    rwa [(eq_nullType_iff_of_same hnull).1 rfl] at hc
  match bs with
  | [] => cases hb
  | [c] =>
    cases List.mem_singleton.1 hb
    exact .inl rfl
  | [c, c'] =>
    have hnull := hnull hlength
    simp only [List.mem_cons, List.not_mem_nil, or_false] at hb hnull
    rcases hb with rfl | rfl <;> rcases hnull with rfl | rfl
    · exact absurd rfl hne
    · exact .inr (.inl rfl)
    · exact .inr (.inr rfl)
    · exact absurd rfl hne
  | _ :: _ :: _ :: _ => rcases hmembers with rfl | rfl | rfl <;> simp at hlength

/-- Of two unions that are the same, both lead to what was declared under a name or neither does. -/
theorem filter_eq_singleton_iff (hpairs : as.Pairwise fun a b => a.same b = false)
    (hlength : as.length = bs.length) (hwithin : ∀ a ∈ as, ∃ b ∈ bs, a.same b = true) :
    (∃ x, as.filter (fun m => !m.same .nullType) = [x] ∧ x.declaration? = some k) ↔
      ∃ y, bs.filter (fun m => !m.same .nullType) = [y] ∧ y.declaration? = some k := by
  have hfound : ∀ {ts : List TypeExpr} {x : TypeExpr},
      ts.filter (fun m => !m.same .nullType) = [x] → ∀ t ∈ ts, t = .nullType ∨ t = x := by
    intro ts x hx t ht
    by_cases hnull : t.same .nullType = true
    · exact .inl (same_nullType.1 hnull)
    · have hmem : t ∈ ts.filter fun m => !m.same .nullType :=
        List.mem_filter.2 ⟨ht, by simpa using hnull⟩
      rw [hx] at hmem
      exact .inr (List.mem_singleton.1 hmem)
  constructor
  · rintro ⟨x, hx, hk⟩
    have hall : ∀ a ∈ as, a = .nullType ∨ a.declaration? = some k :=
      fun a ha => (hfound hx a ha).imp_right fun heq => by rw [heq, hk]
    rcases exists_of_forall_declaration? hpairs hall with rfl | rfl | ⟨z, hz, hmembers⟩
    · cases hx
    · cases hx
    · obtain ⟨y, hy, hbs⟩ := exists_of_within hlength hwithin hz hmembers
      exact ⟨y, filter_of_declaration? hy hbs, hy⟩
  · rintro ⟨y, hy, hk⟩
    have hall : ∀ a ∈ as, a = .nullType ∨ a.declaration? = some k := by
      intro a ha
      obtain ⟨b, hb, hab⟩ := hwithin a ha
      rcases hfound hy b hb with rfl | rfl
      · exact .inl ((eq_nullType_iff_of_same hab).2 rfl)
      · exact .inr ((declaration?_of_same hab).trans hk)
    rcases exists_of_forall_declaration? hpairs hall with rfl | rfl | ⟨x, hx, hmembers⟩
    · cases List.length_eq_zero_iff.1 hlength.symm
      cases hy
    · obtain ⟨b, rfl⟩ := List.length_eq_one_iff.1 hlength.symm
      obtain ⟨c, hc, hnull⟩ := hwithin .nullType (by simp)
      cases List.mem_singleton.1 hc
      cases (eq_nullType_iff_of_same hnull).1 rfl
      cases hy
    · exact ⟨x, filter_of_declaration? hx hmembers, hx⟩

/-- **Equal types lead to one declaration** when null is taken away, or neither does to any. -/
theorem declaration?_unwrapOptional (ha : a.IsDistinct) (h : a.same b = true) :
    a.unwrapOptional.declaration? = b.unwrapOptional.declaration? := by
  cases a with
  | union style as =>
    cases b with
    | union style' bs =>
      simp only [same, Bool.and_eq_true, beq_iff_eq, within_iff] at h
      refine Option.ext fun k => ?_
      rw [declaration?_unwrapOptional_union, declaration?_unwrapOptional_union]
      exact filter_eq_singleton_iff (ha style as rfl) h.1 h.2
    | _ => cases h
  | _ =>
    cases b with
    | union style bs => cases h
    | _ => exact declaration?_of_same h

end TypeExpr

namespace Catalog

/-- Only what was declared has members, or an annotation that cannot be looked up. -/
theorem twin_of_declaration? (catalog : Catalog) {a b : TypeExpr}
    (h : a.declaration? = b.declaration?) :
    (catalog.schemaOf a).Twin (catalog.schemaOf b) ∧
      catalog.checkDescribable a = catalog.checkDescribable b := by
  cases a with
  | record name =>
    cases b with
    | record name' =>
      cases h
      exact ⟨.inl rfl, rfl⟩
    | _ => cases h
  | schema name members =>
    cases b with
    | schema name' members' =>
      cases h
      exact ⟨.inl rfl, rfl⟩
    | _ => cases h
  | _ => cases b <;> first | exact ⟨.inr ⟨rfl, rfl⟩, rfl⟩ | cases h

end Catalog

namespace Directory

variable {d d' : Directory} {f g : Field}

/-- Members of equal types whose values are described by these types are entered alike. -/
theorem enter_of_same (hcatalog : d.catalog = d'.catalog) (hf : f.nesting = .declaredType)
    (hg : g.nesting = .declaredType) (hdistinct : f.type.IsDistinct)
    (hsame : f.type.same g.type = true) :
    ResultsAlike (fun _ _ => True) Schema.Twin (d.enter f).result (d'.enter g).result := by
  obtain ⟨htwin, hcheck⟩ := d.catalog.twin_of_declaration?
    (TypeExpr.declaration?_unwrapOptional hdistinct hsame)
  have htwin : (d.schemaOf f.type.unwrapOptional).Twin (d'.schemaOf g.type.unwrapOptional) := by
    refine (d.twin_spelling _).trans (htwin.trans ?_)
    rw [hcatalog]
    exact (d'.twin_spelling _).symm
  simp only [enter, checkMember, memberSchema, valueType?, hf, hg, ← hcatalog, ← hcheck]
  cases d.catalog.checkDescribable f.type.unwrapOptional with
  | error e => exact .error e
  | ok u => exact .ok htwin

end Directory
end RecordQuery
