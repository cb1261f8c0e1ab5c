import RecordQuery.Proofs.ChainComposition

/-!
# Schemas of equal types

Equal types share one schema, described under the spelling that was asked for first. Which spelling
that was does not matter to what can be found on the schema (`Directory.twin_schemaOf`), and so not
to where a chain leads (`Directory.follow_alike`): only the name of a type that has no members can
come out differently, and it shows in the error of a chain that goes on there.
-/

namespace RecordQuery

/-! ### Twins -/

/-- Schemas of equal types: one and the same, or two that have no members. -/
def Schema.Twin (s s' : Schema) : Prop :=
  s = s' ∨ (s.fields = [] ∧ s'.fields = [])

namespace Schema.Twin

variable {s s' s'' : Schema}

theorem symm (h : s.Twin s') : s'.Twin s :=
  h.imp Eq.symm And.symm

theorem trans (h : s.Twin s') (h' : s'.Twin s'') : s.Twin s'' := by
  rcases h with rfl | ⟨h, hs'⟩
  · exact h'
  · rcases h' with rfl | ⟨-, h''⟩
    · exact .inr ⟨h, hs'⟩
    · exact .inr ⟨h, h''⟩

theorem fields_eq (h : s.Twin s') : s.fields = s'.fields := by
  rcases h with rfl | ⟨h, h'⟩
  · rfl
  · rw [h, h']

theorem eq_of_fields (h : s.Twin s') (hs : s.fields ≠ []) : s = s' :=
  h.resolve_right fun hnil => hs hnil.1

end Schema.Twin

/-- Equal types have one schema, or schemas that have no members and are named like the types. -/
theorem Catalog.schemaOf_of_same (catalog : Catalog) {a b : TypeExpr} (h : a.same b = true) :
    catalog.schemaOf a = catalog.schemaOf b ∨
      ((catalog.schemaOf a).fields = [] ∧ (catalog.schemaOf b).fields = [] ∧
        (catalog.schemaOf a).name = a.name ∧ (catalog.schemaOf b).name = b.name) := by
  cases a with
  | record n =>
    cases b with
    | record m =>
      have hname : n = m := by simpa [TypeExpr.same] using h
      exact .inl (hname ▸ rfl)
    | _ => cases h
  | schema n members =>
    cases b with
    | schema m members' =>
      have hname : n = m := by simpa [TypeExpr.same] using h
      exact .inl (hname ▸ rfl)
    | _ => cases h
  | _ => cases b <;> first | exact .inr ⟨rfl, rfl, rfl, rfl⟩ | cases h

theorem Catalog.twin_schemaOf (catalog : Catalog) {a b : TypeExpr} (h : a.same b = true) :
    (catalog.schemaOf a).Twin (catalog.schemaOf b) :=
  (catalog.schemaOf_of_same h).imp_right fun h => ⟨h.1, h.2.1⟩

theorem Catalog.key_schemaOf (catalog : Catalog) (t : TypeExpr) :
    (catalog.schemaOf t).key =
      match t with
      | .schema n _ => .declared n
      | t => .ofType t := by
  cases t with
  | record n =>
    rw [schemaOf, classSchema]
    split
    · rfl
    · split <;> rfl
  | schema n members =>
    rw [schemaOf, declaredSchema?]
    cases catalog.schemas.lookup n <;> rfl
  | _ => rfl

/-- Two keys are one only for twins. -/
theorem Catalog.twin_of_key_same (catalog : Catalog) {a b : TypeExpr}
    (h : (catalog.schemaOf a).key.same (catalog.schemaOf b).key = true) :
    (catalog.schemaOf a).Twin (catalog.schemaOf b) := by
  refine catalog.twin_schemaOf ?_
  rw [key_schemaOf, key_schemaOf] at h
  cases a with
  | schema n members =>
    cases b with
    | schema m members' => simpa [SchemaKey.same, TypeExpr.same] using h
    | _ => cases h
  | _ =>
    cases b with
    | schema m members' => cases h
    | _ => exact TypeExpr.same_of_sameKey h

namespace Directory

variable {d d' : Directory}

theorem twin_spelling (d : Directory) (t : TypeExpr) :
    (d.schemaOf t).Twin (d.catalog.schemaOf t) := by
  rw [schemaOf]
  rcases d.spelling_cases t with h | ⟨-, h⟩
  · rw [h]
    exact .inl rfl
  · exact d.catalog.twin_schemaOf (TypeExpr.same_of_sameKey h)

theorem twin_schemaOf (hcatalog : d.catalog = d'.catalog) (t : TypeExpr) :
    (d.schemaOf t).Twin (d'.schemaOf t) :=
  (d.twin_spelling t).trans (hcatalog ▸ (d'.twin_spelling t).symm)

/-- What was declared is spelled in one way only. -/
theorem schemaOf_declared (d : Directory) {t : TypeExpr}
    (ht : (∃ n, t = .record n) ∨ ∃ n members, t = .schema n members) :
    d.schemaOf t = d.catalog.schemaOf t := by
  rw [schemaOf]
  rcases d.spelling_cases t with h | ⟨-, h⟩
  · rw [h]
  · have hsame := TypeExpr.same_of_sameKey h
    generalize d.spelling t = u at hsame
    rcases ht with ⟨n, rfl⟩ | ⟨n, members, rfl⟩
    · cases u <;> simp_all [TypeExpr.same]
    · cases u <;> simp_all [TypeExpr.same, Catalog.schemaOf]

theorem declared?_cases {catalog : Catalog} {name : String} {t : TypeExpr}
    (h : catalog.declared? name = some t) :
    (∃ n, t = .record n) ∨ ∃ n members, t = .schema n members := by
  unfold Catalog.declared? at h
  split at h
  · cases h
    exact .inl ⟨_, rfl⟩
  · obtain ⟨s, -, rfl⟩ := Option.map_eq_some_iff.1 h
    exact .inr ⟨_, _, rfl⟩

/-- The schema of a member's value is that of its type, or the same in both directories. -/
theorem memberSchema_cases (hcatalog : d.catalog = d'.catalog) (f : Field) :
    (∃ t, valueType? f = some t ∧ d.memberSchema f = d.schemaOf t ∧
      d'.memberSchema f = d'.schemaOf t) ∨ d.memberSchema f = d'.memberSchema f := by
  unfold valueType? memberSchema
  cases f.nesting with
  | declaredType => exact .inl ⟨_, rfl, rfl, rfl⟩
  | struct name => exact .inr rfl
  | given name =>
    refine .inr ?_
    have hdeclared : (∃ n, (d.catalog.declared? name).getD (.schema name []) = .record n) ∨
        ∃ n members, (d.catalog.declared? name).getD (.schema name []) = .schema n members := by
      cases h : d.catalog.declared? name with
      | none => exact .inr ⟨_, _, rfl⟩
      | some t => exact declared?_cases h
    simp only [← hcatalog, d.schemaOf_declared hdeclared, d'.schemaOf_declared hdeclared]

end Directory

/-! ### Outcomes that are alike -/

/-- Both fail in the same way or succeed with related values, where names may differ as `names`
says in the error about a type that has no member of the name. -/
inductive ResultsAlike {α β : Type} (names : String → String → Prop) (values : α → β → Prop) :
    Except Error α → Except Error β → Prop
  | ok {a : α} {b : β} (h : values a b) : ResultsAlike names values (.ok a) (.ok b)
  | error (e : Error) : ResultsAlike names values (.error e) (.error e)
  | unknownMember {owner owner' : String} (h : names owner owner') (name : String)
    (position : Nat) : ResultsAlike names values (.error (.unknownMember owner name position))
      (.error (.unknownMember owner' name position))

/-- Besides, the warnings are the same and the same types are described. -/
structure Outcome.Alike {α β : Type} (names : String → String → Prop) (values : α → β → Prop)
    (x : Outcome α) (y : Outcome β) : Prop where
  warnings : x.warnings = y.warnings
  described : x.described = y.described
  result : ResultsAlike names values x.result y.result

section

variable {α β γ δ : Type} {names names' : String → String → Prop} {values values' : α → β → Prop}

theorem ResultsAlike.mono {x : Except Error α} {y : Except Error β}
    (h : ResultsAlike names values x y) (hnames : ∀ o o', names o o' → names' o o')
    (hvalues : ∀ a b, values a b → values' a b) : ResultsAlike names' values' x y := by
  cases h with
  | ok h => exact .ok (hvalues _ _ h)
  | error e => exact .error e
  | unknownMember h name position => exact .unknownMember (hnames _ _ h) name position

theorem ResultsAlike.map {x : Except Error α} {y : Except Error β}
    (h : ResultsAlike names values x y) {f : α → γ} {g : β → δ} {values' : γ → δ → Prop}
    (hvalues : ∀ a b, values a b → values' (f a) (g b)) :
    ResultsAlike names values' (x.map f) (y.map g) := by
  cases h with
  | ok h => exact .ok (hvalues _ _ h)
  | error e => exact .error e
  | unknownMember h name position => exact .unknownMember h name position

theorem ResultsAlike.bind {x : Except Error α} {y : Except Error β} {f : α → Except Error γ}
    {g : β → Except Error δ} {values' : γ → δ → Prop} (h : ResultsAlike names values x y)
    (hnext : ∀ a b, values a b → ResultsAlike names values' (f a) (g b)) :
    ResultsAlike names values' (x >>= f) (y >>= g) := by
  cases h with
  | ok h => exact hnext _ _ h
  | error e => exact .error e
  | unknownMember h name position => exact .unknownMember h name position

theorem ResultsAlike.exists_of_ok {a : α} {y : Except Error β}
    (h : ResultsAlike names values (.ok a) y) : ∃ b, y = .ok b ∧ values a b := by
  cases h with
  | ok h => exact ⟨_, rfl, h⟩

theorem ResultsAlike.mapM {f : γ → Except Error α} {g : γ → Except Error β} {xs : List γ}
    (h : ∀ x ∈ xs, ResultsAlike names values (f x) (g x)) :
    ResultsAlike names (List.Forall₂ values) (xs.mapM f) (xs.mapM g) := by
  induction xs with
  | nil => exact .ok .nil
  | cons x xs ih =>
    rw [List.forall_mem_cons] at h
    rw [List.mapM_cons, List.mapM_cons]
    refine h.1.bind fun a b hab => (ih h.2).bind fun as bs hrest => ?_
    exact .ok (.cons hab hrest)

theorem Outcome.Alike.refl (x : Outcome α) : Alike names (· = ·) x x := by
  refine ⟨rfl, rfl, ?_⟩
  cases x.result with
  | ok a => exact .ok rfl
  | error e => exact .error e

theorem Outcome.described_subset_bind (x : Outcome α) (f : α → Outcome β) :
    x.described ⊆ (x >>= f).described := by
  cases h : x.result with
  | error e => simp [bind_error h]
  | ok a => simp [described_bind_ok h]

theorem Outcome.Alike.bind {x : Outcome α} {y : Outcome β} {f : α → Outcome γ} {g : β → Outcome δ}
    {values' : γ → δ → Prop} (h : Alike names values x y)
    (hnext : ∀ a b, values a b → x.result = .ok a → Alike names values' (f a) (g b)) :
    Alike names values' (x >>= f) (y >>= g) := by
  obtain ⟨ws, ts, rx⟩ := x
  obtain ⟨ws', ts', ry⟩ := y
  obtain ⟨rfl, rfl, hresult⟩ := h
  cases hresult with
  | ok hvalues =>
    obtain ⟨hw, hd, hr⟩ := hnext _ _ hvalues rfl
    exact ⟨congrArg (ws ++ ·) hw, congrArg (ts ++ ·) hd, hr⟩
  | error e => exact ⟨rfl, rfl, .error e⟩
  | unknownMember hnames name position => exact ⟨rfl, rfl, .unknownMember hnames name position⟩

theorem Outcome.Alike.map {x : Outcome α} {y : Outcome β} (h : Alike names values x y) (f : α → γ)
    (g : β → δ) :
    Alike names (fun c c' => ∃ a b, values a b ∧ c = f a ∧ c' = g b) (f <$> x) (g <$> y) :=
  h.bind fun a b hvalues _ => ⟨rfl, rfl, .ok ⟨a, b, hvalues, rfl, rfl⟩⟩

end

namespace Directory

variable {d d' : Directory} {s s' : Schema} {names : String → String → Prop}

/-- A member is entered alike. -/
theorem enter_alike (hcatalog : d.catalog = d'.catalog) (f : Field) :
    Outcome.Alike names (fun o o' => o.Twin o' ∧ (o = o' ∨ ∃ t ∈ (d.enter f).described,
      o = d.schemaOf t ∧ o' = d'.schemaOf t)) (d.enter f) (d'.enter f) := by
  refine ⟨rfl, rfl, ?_⟩
  have hcheck : d.checkMember f = d'.checkMember f := by rw [checkMember, checkMember, hcatalog]
  simp only [enter, ← hcheck]
  cases d.checkMember f with
  | error e => exact .error e
  | ok u =>
    refine .ok ?_
    rcases memberSchema_cases hcatalog f with ⟨t, ht, h, h'⟩ | h
    · rw [h, h']
      exact ⟨twin_schemaOf hcatalog t, .inr ⟨t, by simp [ht], rfl, rfl⟩⟩
    · rw [h]
      exact ⟨.inl rfl, .inl rfl⟩

/-- **Following a chain.** From twins, and whatever was described before, a chain leads through the
same members, or fails in the same way. -/
theorem follow_alike (hcatalog : d.catalog = d'.catalog) {chain : List String} {position : Nat}
    (hs : s.Twin s') (hname : s = s' ∨ names s.name s'.name)
    (hasked : ∀ t ∈ (d.follow s position chain).described,
      names (d.schemaOf t).name (d'.schemaOf t).name) :
    Outcome.Alike names (· = ·) (d.follow s position chain) (d'.follow s' position chain) := by
  induction chain generalizing s s' position with
  | nil => exact ⟨rfl, rfl, .ok rfl⟩
  | cons name chain ih =>
    cases hfound : s.candidates name with
    | nil =>
      have hfound' : s'.candidates name = [] := by
        rw [← hfound, Schema.candidates, Schema.candidates, Schema.get?, Schema.get?, hs.fields_eq]
      rw [follow_of_candidates_nil hfound, follow_of_candidates_nil hfound']
      rcases hname with rfl | hname
      · exact ⟨rfl, rfl, .error _⟩
      · exact ⟨rfl, rfl, .unknownMember hname name position⟩
    | cons f fs =>
      have hfields : s.fields ≠ [] := by
        intro hnil
        simp [Schema.candidates, Schema.get?, hnil] at hfound
      cases hs.eq_of_fields hfields
      cases chain with
      | nil =>
        rw [follow_last hfound, follow_last hfound]
        exact ⟨rfl, rfl, .ok rfl⟩
      | cons name' chain =>
        rw [follow_step hfound (List.cons_ne_nil name' chain)] at hasked ⊢
        rw [follow_step hfound (List.cons_ne_nil name' chain)]
        refine (enter_alike hcatalog f).bind fun owner owner' ⟨htwin, howner⟩ hresult => ?_
        rw [Outcome.described_bind_ok hresult] at hasked
        simp only [List.mem_append] at hasked
        have howner' : owner = owner' ∨ names owner.name owner'.name := by
          rcases howner with rfl | ⟨t, ht, rfl, rfl⟩
          · exact .inl rfl
          · exact .inr (hasked t (.inl ht))
        refine (ih htwin howner' fun t ht => ?_).bind fun rest rest' hrest _ => ?_
        · exact hasked t (.inr (Outcome.described_subset_bind _ _ ht))
        · rw [hrest]
          exact ⟨rfl, rfl, .ok rfl⟩

theorem fields_ne_nil_of_follow {chain : List String} {position : Nat} {found : Resolution}
    (hchain : chain ≠ []) (h : (d.follow s position chain).result = .ok found) : s.fields ≠ [] := by
  intro hnil
  cases chain with
  | nil => exact hchain rfl
  | cons name chain =>
    have hfound : s.candidates name = [] := by simp [Schema.candidates, Schema.get?, hnil]
    rw [follow_of_candidates_nil hfound] at h
    cases h

theorem resolveNames_alike (hcatalog : d.catalog = d'.catalog) {chain : List String}
    (hs : s.Twin s') (hname : s = s' ∨ names s.name s'.name)
    (hasked : ∀ t ∈ (d.resolveNames s chain).described,
      names (d.schemaOf t).name (d'.schemaOf t).name) :
    Outcome.Alike names (· = ·) (d.resolveNames s chain) (d'.resolveNames s' chain) := by
  cases chain with
  | nil => exact ⟨rfl, rfl, .error _⟩
  | cons name chain =>
    refine (follow_alike hcatalog hs hname fun t ht => ?_).bind
      fun found found' hfound hresult => ?_
    · exact hasked t (Outcome.described_subset_bind _ _ ht)
    · cases hs.eq_of_fields (fields_ne_nil_of_follow (List.cons_ne_nil name chain) hresult)
      rw [hfound]
      exact ⟨rfl, rfl, .ok rfl⟩

theorem resolve_alike (hcatalog : d.catalog = d'.catalog) {text : String} (hs : s.Twin s')
    (hname : s = s' ∨ names s.name s'.name)
    (hasked : ∀ t ∈ (d.resolve s text).described,
      names (d.schemaOf t).name (d'.schemaOf t).name) :
    Outcome.Alike names (· = ·) (d.resolve s text) (d'.resolve s' text) := by
  unfold resolve at hasked ⊢
  cases hchain : Chain.ofText text with
  | nil => exact ⟨rfl, rfl, .error _⟩
  | cons name chain =>
    rw [hchain] at hasked
    exact resolveNames_alike hcatalog hs hname hasked

theorem resolveValues_alike (hcatalog : d.catalog = d'.catalog) {values : List Value}
    (hs : s.Twin s') (hname : s = s' ∨ names s.name s'.name)
    (hasked : ∀ t ∈ (d.resolveValues s values).described,
      names (d.schemaOf t).name (d'.schemaOf t).name) :
    Outcome.Alike names (· = ·) (d.resolveValues s values) (d'.resolveValues s' values) := by
  unfold resolveValues at hasked ⊢
  rw [← hcatalog]
  refine (Outcome.Alike.refl _).bind fun u u' _ hchecked => ?_
  rw [Outcome.described_bind_ok hchecked] at hasked
  cases hchain : values.mapM name? with
  | some chain =>
    rw [hchain] at hasked
    exact resolveNames_alike hcatalog hs hname fun t ht => hasked t (List.mem_append_right _ ht)
  | none =>
    rw [hchain] at hasked
    refine (follow_alike hcatalog hs hname fun t ht => ?_).bind fun found found' hfound _ => ?_
    · exact hasked t (List.mem_append_right _ (Outcome.described_subset_bind _ _ ht))
    · rw [← hfound]
      cases found.fields.getLast? with
      | none => exact .refl _
      | some f =>
        rw [Option.mapM_some, Option.mapM_some]
        exact ((enter_alike hcatalog f).map some some).bind fun _ _ _ _ => ⟨rfl, rfl, .error _⟩

end Directory
end RecordQuery
