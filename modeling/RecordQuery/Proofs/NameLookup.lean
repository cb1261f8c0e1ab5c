import RecordQuery.Proofs.ColumnChain

/-!
# Members looked up by name

A written name means the first readable member of exactly that name, and if there is none the first
readable one that is called so up to case, with a warning if there are several of them. This is
`Schema.intended`, and a schema all of whose members can be read follows it.

The index of a schema keeps the first member of each name whether it can be read or not. So a
readable member that stands behind an unreadable one of its name is only found as one of those that
agree with the name up to case. `Schema.lookup_eq_intended_iff` says for which names of which
schemas this makes no difference.
-/

namespace RecordQuery.Schema

variable {s : Schema} {name : String} {f g : Field}

/-- The first readable member of exactly the name. -/
def exactMatch? (s : Schema) (name : String) : Option Field :=
  s.fields.find? fun f => f.readable && f.name == name

/-- The readable members that are called by the name up to case. -/
def alike (s : Schema) (name : String) : List Field :=
  s.fields.filter fun f => f.readable && Text.sameFold f.name name

/-- The first readable member that is called by the name up to case. If there are several, a
warning names all of them. -/
def firstAlike (s : Schema) (name : String) : Outcome (Option Field) where
  warnings :=
    if 2 ≤ (s.alike name).length then
      [ambiguityWarning s.name name ((s.alike name).map (·.name))]
    else []
  result := .ok (s.alike name).head?

/-- The member that a written name is meant to mean: the readable one of exactly this name if there
is one, and otherwise the first one up to case. -/
def intended (s : Schema) (name : String) : Outcome (Option Field) :=
  match s.exactMatch? name with
  | some f => pure (some f)
  | none => s.firstAlike name

/-- The schema with its readable members only. -/
def visible (s : Schema) : Schema :=
  { s with fields := s.fields.filter (·.readable) }

theorem exactMatch?_of_get? (h : s.get? name = some f) (hreadable : f.readable = true) :
    s.exactMatch? name = some f := by
  rw [get?, List.find?_eq_some_iff_append] at h
  obtain ⟨hname, before, after, hfields, hbefore⟩ := h
  rw [exactMatch?, List.find?_eq_some_iff_append]
  refine ⟨by rw [hreadable, hname]; rfl, before, after, hfields, fun g hg => ?_⟩
  rw [Bool.not_eq_true', Bool.and_eq_false_iff]
  exact .inr (by simpa using hbefore g hg)

theorem exists_get?_of_exactMatch? (h : s.exactMatch? name = some f) :
    f.readable = true ∧ f ∈ s.alike name ∧ ∃ g, s.get? name = some g := by
  have hmem := List.mem_of_find?_eq_some h
  have hf := List.find?_some h
  rw [Bool.and_eq_true, beq_iff_eq] at hf
  obtain ⟨hreadable, rfl⟩ := hf
  refine ⟨hreadable, List.mem_filter.2 ⟨hmem, by simp [hreadable]⟩, ?_⟩
  cases hget : s.get? f.name with
  | some g => exact ⟨g, rfl⟩
  | none => exact absurd (beq_self_eq_true f.name) (List.find?_eq_none.1 hget f hmem)

/-- Where the first member of the name can be read, it is found. -/
theorem lookup_of_readable (h : s.get? name = some f) (hreadable : f.readable = true) :
    s.lookup name = pure (some f) := by
  simp only [lookup, candidates, h, hreadable, if_true, ambiguities, List.length_singleton,
    Nat.lt_irrefl, if_false]
  rfl

/-- Where it cannot be read, or there is none, the members up to case are looked through. -/
theorem lookup_of_not_readable (h : ∀ f, s.get? name = some f → f.readable = false) :
    s.lookup name = s.firstAlike name := by
  have hcandidates : s.candidates name = s.alike name := by
    cases hget : s.get? name with
    | none => simp only [candidates, hget, alike]
    | some f => simp only [candidates, hget, h f hget, Bool.false_eq_true, if_false, alike]
  simp only [lookup, hcandidates]
  rfl

/-- A name means nothing exactly if no readable member is called by it, be it up to case. -/
theorem candidates_eq_nil_iff : s.candidates name = [] ↔
    ∀ f ∈ s.fields, f.readable = true → Text.sameFold f.name name = false := by
  constructor
  · intro h f hf hreadable
    have hfolded : s.alike name = [] := by
      unfold candidates at h
      split at h
      · split at h
        · cases h
        · exact h
      · exact h
    simpa [hreadable] using List.filter_eq_nil_iff.1 hfolded f hf
  · intro h
    cases hfound : s.candidates name with
    | nil => rfl
    | cons f fs =>
      obtain ⟨hf, hreadable, hname⟩ := mem_of_mem_candidates (hfound ▸ List.mem_cons_self)
      cases hname.symm.trans (h f hf hreadable)

/-- Among members that can all be read, lookups are as they are meant to be. -/
theorem lookup_of_all_readable (h : ∀ f ∈ s.fields, f.readable = true) :
    s.lookup name = s.intended name := by
  cases hget : s.get? name with
  | some f =>
    have hreadable := h f (List.mem_of_find?_eq_some hget)
    rw [lookup_of_readable hget hreadable, intended, exactMatch?_of_get? hget hreadable]
  | none =>
    have hexact : s.exactMatch? name = none := by
      cases hexact : s.exactMatch? name with
      | none => rfl
      | some f =>
        obtain ⟨-, -, g, hg⟩ := exists_get?_of_exactMatch? hexact
        cases hget.symm.trans hg
    rw [lookup_of_not_readable (by simp [hget]), intended, hexact]

/-- What a name is meant to mean does not depend on the members that cannot be read. -/
theorem intended_visible (s : Schema) (name : String) :
    s.visible.intended name = s.intended name := by
  have hexact : s.visible.exactMatch? name = s.exactMatch? name := by
    rw [exactMatch?, visible, List.find?_filter, exactMatch?]
    congr 1
    funext f
    cases f.readable <;> simp [Bool.beq_eq_decide_eq]
  have halike : s.visible.alike name = s.alike name := by
    rw [alike, visible, List.filter_filter, alike]
    congr 1
    funext f
    cases f.readable <;> simp
  simp only [intended, hexact, firstAlike, halike]
  rfl

/-- A member that is found as the first of several up to case is found with a warning. -/
theorem firstAlike_eq_pure_iff (hf : f ∈ s.alike name) :
    s.firstAlike name = pure (some f) ↔ s.alike name = [f] := by
  have hpure : (pure (some f) : Outcome (Option Field)) = ⟨[], [], .ok (some f)⟩ := rfl
  rw [hpure, firstAlike]
  cases halike : s.alike name with
  | nil => simp [halike] at hf
  | cons g gs => cases gs <;> simp

/-- **Lookups follow their rule unless an unreadable member comes first.** A lookup is as it is
meant to be exactly if the readable member of the name, if there is one, is the first member of the
name, or the only readable one up to case. Otherwise it is looked up like a name that no member has
exactly. The rule is what a lookup among the readable members gives; what is found can be read and
is called by the name up to case, and something is found if any member is like that. -/
theorem lookup_eq_intended_iff (s : Schema) (name : String) :
    (s.lookup name = s.intended name ↔
      ∀ f, s.exactMatch? name = some f → s.get? name = some f ∨ s.alike name = [f]) ∧
    (∀ f, s.exactMatch? name = some f → s.get? name ≠ some f → s.lookup name = s.firstAlike name) ∧
    s.visible.lookup name = s.intended name ∧
    (∀ f, (s.lookup name).result = .ok (some f) →
      f ∈ s.fields ∧ f.readable = true ∧ Text.sameFold f.name name = true) ∧
    ((s.lookup name).result = .ok none ↔
      ∀ f ∈ s.fields, f.readable = true → Text.sameFold f.name name = false) := by
  have hhidden : ∀ f, s.exactMatch? name = some f → s.get? name ≠ some f →
      s.lookup name = s.firstAlike name := by
    refine fun f hexact hne => lookup_of_not_readable fun g hg => ?_
    cases hreadable : g.readable with
    | false => rfl
    | true =>
      cases hexact.symm.trans (exactMatch?_of_get? hg hreadable)
      exact absurd hg hne
  refine ⟨?_, hhidden, ?_, fun f hf => ?_, ?_⟩
  · cases hexact : s.exactMatch? name with
    | none =>
      refine ⟨nofun, fun _ => ?_⟩
      rw [intended, hexact]
      refine lookup_of_not_readable fun g hg => ?_
      cases hreadable : g.readable with
      | false => rfl
      | true => cases hexact.symm.trans (exactMatch?_of_get? hg hreadable)
    | some f =>
      obtain ⟨hreadable, hf, -⟩ := exists_get?_of_exactMatch? hexact
      simp only [intended, hexact, Option.some.injEq, forall_eq']
      by_cases hget : s.get? name = some f
      · exact iff_of_true (lookup_of_readable hget hreadable) (.inl hget)
      · rw [hhidden f hexact hget, firstAlike_eq_pure_iff hf, or_iff_right hget]
  · rw [lookup_of_all_readable fun f hf => (List.mem_filter.1 hf).2, intended_visible]
  · exact mem_of_mem_candidates (List.mem_of_head? (Except.ok.inj hf))
  · rw [← candidates_eq_nil_iff, ← List.head?_eq_none_iff, lookup, Except.ok.injEq]

/-- A gate with a member that cannot be read and one that can, both called by the same name, and a
third one between them whose name differs in case only. -/
private def gate : Schema where
  key := .declared "Gate"
  name := "Gate"
  fields := [{ name := "a", readable := false }, { name := "A" }, { name := "a" }]

/-- The readable member of the name is passed over for one that only agrees up to case. -/
theorem lookup_hidden_member :
    ∃ f g, gate.exactMatch? "a" = some f ∧ f.name = "a" ∧ (gate.lookup "a").result = .ok (some g) ∧
      g.name = "A" ∧ (gate.lookup "a").warnings = [ambiguityWarning "Gate" "a" ["A", "a"]] ∧
      gate.lookup "a" ≠ gate.intended "a" := by
  refine ⟨_, _, rfl, rfl, rfl, rfl, rfl, fun h => ?_⟩
  cases congrArg (·.warnings) h

end RecordQuery.Schema
