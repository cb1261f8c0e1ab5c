import RecordQuery.Proofs.SharedSchemas
import RecordQuery.Session

/-!
# Answers do not depend on what is remembered

What a session remembers is what it would find again (`Session.Keeps`), and each call keeps this up
(`Session.Keeps.perform`, `Session.Keeps.run`). So a call is answered alike in any two sessions over
the same declared types (`Session.Keeps.perform_alike`), in particular after other calls and alone
(`Session.answer_alike`). Two things are seen of the calls before (`Session.answer_seen_before`): a
type without members goes by the name that it was first asked for under, and a projection into such
a type is warned about only when its plan is made.
-/

namespace RecordQuery

variable {catalog : Catalog} {ts : List TypeExpr}

/-! ### Chains that are asked for -/

namespace Directory

variable {d d' : Directory} {s s' : Schema} {names : String → String → Prop} {chain : ChainRequest}

theorem resolveChain_alike (chain : ChainRequest) (hcatalog : d.catalog = d'.catalog)
    (hs : s.Twin s') (hname : s = s' ∨ names s.name s'.name)
    (hasked : ∀ t ∈ (d.resolveChain s chain).described,
      names (d.schemaOf t).name (d'.schemaOf t).name) :
    Outcome.Alike names (· = ·) (d.resolveChain s chain) (d'.resolveChain s' chain) := by
  cases chain with
  | text written => exact resolve_alike hcatalog hs hname hasked
  | values parts => exact resolveValues_alike hcatalog hs hname hasked

theorem forM_checkKey_of_names {values : List Value} {names : List String}
    (h : values.mapM name? = some names) :
    (values.forM fun v => (v.checkKey d.catalog : Outcome Unit)) = pure () := by
  induction values generalizing names with
  | nil => rfl
  | cons v values ih =>
    rw [List.mapM_cons] at h
    obtain ⟨name, hname, h⟩ := Option.bind_eq_some_iff.1 h
    obtain ⟨rest, hrest, -⟩ := Option.bind_eq_some_iff.1 h
    cases v <;> cases hname
    rw [List.forM, ih hrest]
    rfl

/-- A chain of names is resolved like the names. -/
theorem resolveChain_eq {names : List String} (h : chain.names? = some names) (hne : names ≠ []) :
    d.resolveChain s chain = d.resolveNames s names := by
  cases chain with
  | text written =>
    cases h
    rw [resolveChain, resolve]
    split
    · exact absurd ‹_› hne
    · rfl
  | values parts =>
    have hparts : parts.mapM name? = some names := h
    rw [resolveChain, resolveValues, hparts, forM_checkKey_of_names hparts, Outcome.pure_bind]

theorem ne_nil_of_resolveChain {names : List String} {a : Accessor} (h : chain.names? = some names)
    (hresult : (d.resolveChain s chain).result = .ok a) : names ≠ [] := by
  rintro rfl
  cases chain with
  | text written =>
    rw [resolveChain, resolve, Option.some.inj h] at hresult
    cases hresult
  | values parts =>
    cases parts with
    | nil => cases hresult
    | cons v parts =>
      have hparts : (v :: parts).mapM name? = some [] := h
      rw [List.mapM_cons] at hparts
      obtain ⟨name, -, hparts⟩ := Option.bind_eq_some_iff.1 hparts
      obtain ⟨rest, -, hparts⟩ := Option.bind_eq_some_iff.1 hparts
      cases hparts

end Directory

/-! ### Names of equal types -/

/-- The types share a schema. -/
def TypeExpr.Shares (u t : TypeExpr) : Prop :=
  u = t ∨ u.sameKey t = true

/-- Both are names of schemas that one of the types may get, if the others are asked for, too. -/
def Spellings (catalog : Catalog) (ts : List TypeExpr) (o o' : String) : Prop :=
  ∃ t ∈ ts, ∃ u ∈ ts, ∃ u' ∈ ts, u.Shares t ∧ u'.Shares t ∧
    o = (catalog.schemaOf u).name ∧ o' = (catalog.schemaOf u').name

/-- Types that share a schema have the same name. -/
def OneSpelling (ts : List TypeExpr) : Prop :=
  ∀ t ∈ ts, ∀ u ∈ ts, u.sameKey t = true → u.name = t.name

theorem OneSpelling.name_schemaOf (h : OneSpelling ts) {t u : TypeExpr} (ht : t ∈ ts) (hu : u ∈ ts)
    (hshares : u.Shares t) : (catalog.schemaOf u).name = (catalog.schemaOf t).name := by
  rcases hshares with rfl | hsame
  · rfl
  · rcases catalog.schemaOf_of_same (TypeExpr.same_of_sameKey hsame) with heq | ⟨-, -, hu', ht'⟩
    · rw [heq]
    · rw [hu', ht', h t ht u hu hsame]

theorem OneSpelling.eq_of_spellings (h : OneSpelling ts) {o o' : String}
    (hspellings : Spellings catalog ts o o') : o = o' := by
  obtain ⟨t, ht, u, hu, u', hu', hshares, hshares', rfl, rfl⟩ := hspellings
  rw [h.name_schemaOf ht hu hshares, h.name_schemaOf ht hu' hshares']

theorem Directory.exists_shares {d : Directory} (hcatalog : d.catalog = catalog)
    (hdescribed : d.described ⊆ ts) {t : TypeExpr} (ht : t ∈ ts) :
    ∃ u ∈ ts, u.Shares t ∧ d.schemaOf t = catalog.schemaOf u := by
  rw [schemaOf, hcatalog]
  rcases d.spelling_cases t with h | ⟨hmem, h⟩
  · exact ⟨t, ht, .inl rfl, by rw [h]⟩
  · exact ⟨_, hdescribed hmem, .inr h, rfl⟩

/-! ### What is remembered -/

theorem Directory.catalog_describe (d : Directory) (t : TypeExpr) :
    (d.describe t).catalog = d.catalog := by
  unfold describe
  split <;> rfl

theorem Directory.described_describe (d : Directory) (t : TypeExpr) :
    (d.describe t).described ⊆ t :: d.described := by
  unfold describe
  split
  · exact List.subset_cons_self t d.described
  · intro u hu
    simpa [or_comm] using hu

theorem ProjectionPlan.bindings_between_congr {source source' target target' : Schema}
    (hsource : source.Twin source') (htarget : target.Twin target') :
    (between source target).bindings = (between source' target').bindings := by
  have hget (f : Field) : Binding.ofTarget? source f = Binding.ofTarget? source' f := by
    rw [Binding.ofTarget?, Binding.ofTarget?, Schema.get?, Schema.get?, hsource.fields_eq]
  rw [between, between, htarget.fields_eq, funext hget]

namespace Session

/-- A session over declared types in which only some types were asked for, and which remembers what
it would find again. -/
structure Keeps (s : Session) (catalog : Catalog) (ts : List TypeExpr) : Prop where
  catalog_eq : s.directory.catalog = catalog
  described : s.directory.described ⊆ ts
  resolved : ∀ r ∈ s.resolved, ∃ (d : Directory) (t : TypeExpr), d.catalog = catalog ∧
    r.root = (catalog.schemaOf t).key ∧
    (d.resolveNames (catalog.schemaOf t) r.names).result = .ok r.accessor ∧
    (d.resolveNames (catalog.schemaOf t) r.names).warnings = r.warnings
  planned : ∀ p ∈ s.planned, ∃ a b : TypeExpr, p.source = (catalog.schemaOf a).key ∧
    p.target = (catalog.schemaOf b).key ∧
    p.plan = .between (catalog.schemaOf a) (catalog.schemaOf b)

namespace Keeps

variable {s s' : Session} {t u u' : TypeExpr} {root source target : Schema} {chain : ChainRequest}

theorem describe (h : s.Keeps catalog ts) (ht : t ∈ ts) :
    (s.describing t).Keeps catalog ts where
  catalog_eq := (s.directory.catalog_describe t).trans h.catalog_eq
  described := fun _ hu => (List.mem_cons.1 (s.directory.described_describe t hu)).elim
    (fun heq => heq ▸ ht) fun hmem => h.described hmem
  resolved := h.resolved
  planned := h.planned

theorem noting {α : Type} (h : s.Keeps catalog ts) {x : Outcome α} (hx : x.described ⊆ ts) :
    (s.noting x).Keeps catalog ts := by
  obtain ⟨ws, described, result⟩ := x
  change described ⊆ ts at hx
  induction described generalizing s with
  | nil => exact h
  | cons t described ih =>
    rw [List.cons_subset] at hx
    exact ih (h.describe hx.1) hx.2

/-- What was resolved before is what would be resolved now. -/
theorem resolve_eq (h : s.Keeps catalog ts) (hroot : root = catalog.schemaOf u)
    (chain : ChainRequest) :
    (s.resolve root chain).1.warnings = (s.directory.resolveChain root chain).warnings ∧
      (s.resolve root chain).1.result = (s.directory.resolveChain root chain).result := by
  unfold resolve
  split
  · rename_i r hr
    obtain ⟨names, hnames, hr⟩ := Option.bind_eq_some_iff.1 hr
    have hkey := List.find?_some hr
    obtain ⟨d, t, hcatalog, hr_root, hresult, hwarnings⟩ :=
      h.resolved r (List.mem_of_find?_eq_some hr)
    simp only [Bool.and_eq_true, beq_iff_eq] at hkey
    rw [hr_root, hroot] at hkey
    rw [hkey.2] at hresult hwarnings
    have hne : names ≠ [] := by
      rintro rfl
      cases hresult
    have halike : Outcome.Alike (fun _ _ => True) (· = ·)
        (d.resolveNames (catalog.schemaOf t) names)
        (s.directory.resolveNames (catalog.schemaOf u) names) :=
      Directory.resolveNames_alike (hcatalog.trans h.catalog_eq.symm)
        (catalog.twin_of_key_same hkey.1) (.inr trivial) fun _ _ => trivial
    have hresult' := halike.result
    rw [hresult] at hresult'
    rw [Directory.resolveChain_eq hnames hne, hroot, ← halike.warnings, hwarnings]
    generalize (s.directory.resolveNames (catalog.schemaOf u) names).result = x at hresult'
    cases hresult' with
    | ok heq => exact ⟨rfl, by rw [heq]⟩
  · exact ⟨rfl, rfl⟩

theorem keeping (h : s.Keeps catalog ts) {d : Directory} (hcatalog : d.catalog = catalog)
    (hroot : root = catalog.schemaOf u) :
    (s.keeping root chain (d.resolveChain root chain)).Keeps catalog ts := by
  unfold Session.keeping
  split
  · rename_i names a hnames hresult
    have heq : d.resolveChain root chain = d.resolveNames root names :=
      Directory.resolveChain_eq hnames (Directory.ne_nil_of_resolveChain hnames hresult)
    rw [heq] at hresult ⊢
    refine ⟨h.catalog_eq, h.described, ?_, h.planned⟩
    intro r hr
    rcases List.mem_cons.1 hr with rfl | hr
    · exact ⟨d, u, hcatalog, by rw [hroot], by rw [← hroot]; exact hresult, by rw [← hroot]⟩
    · exact h.resolved r hr
  · exact h

theorem resolve (h : s.Keeps catalog ts) (hroot : root = catalog.schemaOf u)
    (hasked : (s.directory.resolveChain root chain).described ⊆ ts) :
    (s.resolve root chain).2.Keeps catalog ts := by
  unfold Session.resolve
  split
  · exact h
  · exact (h.noting hasked).keeping h.catalog_eq hroot

theorem plan (h : s.Keeps catalog ts) (hsource : source = catalog.schemaOf u)
    (htarget : target = catalog.schemaOf u') : (s.plan source target).2.Keeps catalog ts := by
  unfold Session.plan
  split
  · exact h
  · refine ⟨h.catalog_eq, h.described, h.resolved, ?_⟩
    intro p hp
    rcases List.mem_cons.1 hp with rfl | hp
    · exact ⟨u, u', by rw [hsource], by rw [htarget], by rw [hsource, htarget]⟩
    · exact h.planned p hp

/-- A plan that was made before copies what a plan would copy now. -/
theorem plan_eq (h : s.Keeps catalog ts) (hsource : source = catalog.schemaOf u)
    (htarget : target = catalog.schemaOf u') :
    (∃ p, (s.plan source target).1.result = .ok p ∧
      p.bindings = (ProjectionPlan.between source target).bindings) ∧
    (s.plan source target).1.warnings =
      if (s.planned? source target).isSome then [] else ProjectionPlan.warnings target := by
  unfold Session.plan
  cases hp : s.planned? source target with
  | none => exact ⟨⟨_, rfl, rfl⟩, rfl⟩
  | some p =>
    refine ⟨⟨_, rfl, ?_⟩, rfl⟩
    have hkey := List.find?_some hp
    obtain ⟨a, b, ha, hb, hplan⟩ := h.planned p (List.mem_of_find?_eq_some hp)
    rw [Bool.and_eq_true, ha, hb, hsource, htarget] at hkey
    rw [hplan, hsource, htarget]
    exact ProjectionPlan.bindings_between_congr (catalog.twin_of_key_same hkey.1)
      (catalog.twin_of_key_same hkey.2)

end Keeps
end Session

/-! ### Calls -/

/-- The types whose schemas a call asks for. -/
def Call.asks (catalog : Catalog) : Call → List TypeExpr
  | .getSchema t => [t]
  | .resolve root chain =>
    root :: (({ catalog } : Directory).resolveChain (catalog.schemaOf root) chain).described
  | .synthesize source target => [source, target]

/-- The call asks for a plan into a type without members. -/
def Call.ProjectsIntoNothing (catalog : Catalog) : Call → Prop
  | .synthesize _ target => (catalog.schemaOf target).fields = []
  | _ => False

/-- What a call returns is the same but for names of types without members, which may differ as
`names` says: the same schema up to its name, the same chain, the same bindings. -/
inductive Reply.Alike (names : String → String → Prop) : Reply → Reply → Prop
  | schema {s s' : Schema} (hs : s.fields = s'.fields)
    (hname : s.name = s'.name ∨ (s.fields = [] ∧ names s.name s'.name)) :
    Alike names (.schema s) (.schema s')
  | accessor (a : Accessor) : Alike names (.accessor a) (.accessor a)
  | plan {p p' : ProjectionPlan} (h : p.bindings = p'.bindings) : Alike names (.plan p) (.plan p')

theorem Reply.Alike.mono {names names' : String → String → Prop} {r r' : Reply}
    (h : Alike names r r') (hnames : ∀ o o', names o o' → names' o o') : Alike names' r r' := by
  cases h with
  | schema hs hname => exact .schema hs (hname.imp_right fun h => ⟨h.1, hnames _ _ h.2⟩)
  | accessor a => exact .accessor a
  | plan h => exact .plan h

/-- The types whose schemas calls ask for. -/
def asked (catalog : Catalog) (calls : List Call) : List TypeExpr :=
  calls.flatMap (Call.asks catalog)

theorem asks_subset_asked {c : Call} {calls : List Call} (hc : c ∈ calls) :
    c.asks catalog ⊆ asked catalog calls :=
  fun _ ht => List.mem_flatMap.2 ⟨c, hc, ht⟩

namespace Session

/-- Was the plan that a call asks for made before? -/
def remembers (s : Session) : Call → Bool
  | .synthesize source target =>
    (s.planned? (s.directory.schemaOf source)
      ((s.directory.describe source).schemaOf target)).isSome
  | _ => false

namespace Keeps

variable {s s' : Session} {t : TypeExpr} {c : Call}

section

variable {α : Type} {next : Session → Schema → Outcome α × Session}

theorem withSchema_of_error (h : s.Keeps catalog ts) {e : Error}
    (hcheck : catalog.checkDescribable t = .error e) : s.withSchema t next = (throw e, s) := by
  rw [withSchema, schemaOf, h.catalog_eq, hcheck]
  rfl

theorem withSchema_of_ok (h : s.Keeps catalog ts) (hcheck : catalog.checkDescribable t = .ok ()) :
    s.withSchema t next = next (s.describing t) (s.directory.schemaOf t) := by
  rw [withSchema, schemaOf, h.catalog_eq, hcheck]
  rfl

end

theorem exists_shares (h : s.Keeps catalog ts) (ht : t ∈ ts) :
    ∃ u ∈ ts, u.Shares t ∧ s.directory.schemaOf t = catalog.schemaOf u :=
  Directory.exists_shares h.catalog_eq h.described ht

theorem twin_schemaOf (h : s.Keeps catalog ts) (t : TypeExpr) :
    (s.directory.schemaOf t).Twin (catalog.schemaOf t) :=
  h.catalog_eq ▸ s.directory.twin_spelling t

theorem spellings (h : s.Keeps catalog ts) (h' : s'.Keeps catalog ts) (ht : t ∈ ts) :
    Spellings catalog ts (s.directory.schemaOf t).name (s'.directory.schemaOf t).name := by
  obtain ⟨u, hu, hshares, heq⟩ := h.exists_shares ht
  obtain ⟨u', hu', hshares', heq'⟩ := h'.exists_shares ht
  exact ⟨t, ht, u, hu, u', hu', hshares, hshares', by rw [heq], by rw [heq']⟩

/-- The same types are asked for on the way, whatever the session remembers. -/
theorem described_resolveChain (h : s.Keeps catalog ts) (root : TypeExpr) {schema : Schema}
    (hschema : schema.Twin (catalog.schemaOf root)) (chain : ChainRequest) :
    (s.directory.resolveChain schema chain).described =
      (({ catalog } : Directory).resolveChain (catalog.schemaOf root) chain).described := by
  have halike : Outcome.Alike (fun _ _ => True) (· = ·) (s.directory.resolveChain schema chain)
      (({ catalog } : Directory).resolveChain (catalog.schemaOf root) chain) :=
    Directory.resolveChain_alike chain h.catalog_eq hschema (.inr trivial) fun _ _ => trivial
  exact halike.described

/-- A call that asks for some of the types keeps all this up. -/
theorem perform (h : s.Keeps catalog ts) (hasks : c.asks catalog ⊆ ts) :
    (s.perform c).2.Keeps catalog ts := by
  cases c with
  | getSchema t =>
    rw [Session.perform]
    cases hcheck : catalog.checkDescribable t with
    | error e => rw [h.withSchema_of_error hcheck]; exact h
    | ok u => rw [h.withSchema_of_ok hcheck]; exact h.describe (hasks List.mem_cons_self)
  | resolve root chain =>
    rw [Session.perform]
    cases hcheck : catalog.checkDescribable root with
    | error e => rw [h.withSchema_of_error hcheck]; exact h
    | ok u =>
      rw [h.withSchema_of_ok hcheck]
      obtain ⟨hroot, hasked⟩ := List.cons_subset.1 hasks
      obtain ⟨u, -, -, heq⟩ := h.exists_shares hroot
      have h₁ := h.describe hroot
      refine h₁.resolve heq ?_
      rw [h₁.described_resolveChain root (h.twin_schemaOf root) chain]
      exact hasked
  | synthesize source target =>
    rw [Session.perform]
    obtain ⟨hsource, htarget⟩ := List.cons_subset.1 hasks
    have htarget := htarget List.mem_cons_self
    cases hcheck : catalog.checkDescribable source with
    | error e => rw [h.withSchema_of_error hcheck]; exact h
    | ok _ =>
      rw [h.withSchema_of_ok hcheck]
      have h₁ := h.describe hsource
      cases hcheck' : catalog.checkDescribable target with
      | error e => rw [h₁.withSchema_of_error hcheck']; exact h₁
      | ok _ =>
        rw [h₁.withSchema_of_ok hcheck']
        obtain ⟨u, -, -, heq⟩ := h.exists_shares hsource
        obtain ⟨u', -, -, heq'⟩ := h₁.exists_shares htarget
        exact (h₁.describe htarget).plan heq heq'

theorem run (h : s.Keeps catalog ts) {calls : List Call}
    (hasks : ∀ c ∈ calls, c.asks catalog ⊆ ts) : (s.run calls).Keeps catalog ts := by
  induction calls generalizing s with
  | nil => exact h
  | cons c calls ih =>
    rw [List.forall_mem_cons] at hasks
    exact ih (h.perform hasks.1) hasks.2

theorem start (catalog : Catalog) (ts : List TypeExpr) :
    ({ directory := { catalog } } : Session).Keeps catalog ts where
  catalog_eq := rfl
  described := List.nil_subset ts
  resolved := fun _ hr => absurd hr List.not_mem_nil
  planned := fun _ hp => absurd hp List.not_mem_nil

/-- A plan comes with the warnings of its target, unless the session remembers it. -/
theorem warnings_synthesize (h : s.Keeps catalog ts) {source target : TypeExpr}
    (hsource : source ∈ ts) (htarget : target ∈ ts) :
    (s.perform (.synthesize source target)).1.warnings =
      if s.remembers (.synthesize source target) then []
      else if (catalog.checkDescribable source).isOk && (catalog.checkDescribable target).isOk then
        ProjectionPlan.warnings ((s.directory.describe source).schemaOf target)
      else [] := by
  rw [Session.perform]
  cases hcheck : catalog.checkDescribable source with
  | error e =>
    rw [h.withSchema_of_error hcheck]
    exact (ite_self _).symm
  | ok _ =>
    rw [h.withSchema_of_ok hcheck]
    have h₁ := h.describe hsource
    cases hcheck' : catalog.checkDescribable target with
    | error e =>
      rw [h₁.withSchema_of_error hcheck']
      exact (ite_self _).symm
    | ok _ =>
      rw [h₁.withSchema_of_ok hcheck', Outcome.warnings_map]
      obtain ⟨u, -, -, heq⟩ := h.exists_shares hsource
      obtain ⟨u', -, -, heq'⟩ := h₁.exists_shares htarget
      exact ((h₁.describe htarget).plan_eq heq heq').2

variable (h : s.Keeps catalog ts) (h' : s'.Keeps catalog ts)
include h h'

theorem getSchema_alike (ht : t ∈ ts) :
    ResultsAlike (Spellings catalog ts) (Reply.Alike (Spellings catalog ts))
        (s.perform (.getSchema t)).1.result (s'.perform (.getSchema t)).1.result ∧
      (s.perform (.getSchema t)).1.warnings = (s'.perform (.getSchema t)).1.warnings := by
  rw [Session.perform, Session.perform]
  cases hcheck : catalog.checkDescribable t with
  | error e =>
    rw [h.withSchema_of_error hcheck, h'.withSchema_of_error hcheck]
    exact ⟨.error e, rfl⟩
  | ok _ =>
    rw [h.withSchema_of_ok hcheck, h'.withSchema_of_ok hcheck]
    have htwin := (h.twin_schemaOf t).trans (h'.twin_schemaOf t).symm
    refine ⟨.ok (.schema htwin.fields_eq ?_), rfl⟩
    rcases htwin with heq | ⟨hnil, -⟩
    · exact .inl (by rw [heq])
    · exact .inr ⟨hnil, h.spellings h' ht⟩

theorem resolve_alike {root : TypeExpr} {chain : ChainRequest}
    (hasks : (Call.resolve root chain).asks catalog ⊆ ts) :
    ResultsAlike (Spellings catalog ts) (Reply.Alike (Spellings catalog ts))
        (s.perform (.resolve root chain)).1.result (s'.perform (.resolve root chain)).1.result ∧
      (s.perform (.resolve root chain)).1.warnings =
        (s'.perform (.resolve root chain)).1.warnings := by
  rw [Session.perform, Session.perform]
  cases hcheck : catalog.checkDescribable root with
  | error e =>
    rw [h.withSchema_of_error hcheck, h'.withSchema_of_error hcheck]
    exact ⟨.error e, rfl⟩
  | ok _ =>
    rw [h.withSchema_of_ok hcheck, h'.withSchema_of_ok hcheck]
    obtain ⟨hroot, hasked⟩ := List.cons_subset.1 hasks
    obtain ⟨u, -, -, heq⟩ := h.exists_shares hroot
    obtain ⟨u', -, -, heq'⟩ := h'.exists_shares hroot
    have h₁ := h.describe hroot
    have h₁' := h'.describe hroot
    obtain ⟨hwarnings, hresult⟩ := h₁.resolve_eq heq chain
    obtain ⟨hwarnings', hresult'⟩ := h₁'.resolve_eq heq' chain
    have hasked' : ((s.describing root).directory.resolveChain (s.directory.schemaOf root)
        chain).described ⊆ ts := by
      rw [h₁.described_resolveChain root (h.twin_schemaOf root) chain]
      exact hasked
    have halike := Directory.resolveChain_alike chain (h₁.catalog_eq.trans h₁'.catalog_eq.symm)
      ((h.twin_schemaOf root).trans (h'.twin_schemaOf root).symm)
      (.inr (h.spellings h' hroot)) fun t ht => h₁.spellings h₁' (hasked' ht)
    simp only [Outcome.result_map, Outcome.warnings_map, hwarnings, hwarnings', hresult, hresult']
    exact ⟨halike.result.map fun a _ heq => heq ▸ .accessor a, halike.warnings⟩

/-- Both make plans that copy alike. -/
theorem synthesize_alike {source target : TypeExpr} (hsource : source ∈ ts)
    (htarget : target ∈ ts) :
    ResultsAlike (Spellings catalog ts) (Reply.Alike (Spellings catalog ts))
      (s.perform (.synthesize source target)).1.result
      (s'.perform (.synthesize source target)).1.result := by
  rw [Session.perform, Session.perform]
  cases hcheck : catalog.checkDescribable source with
  | error e =>
    rw [h.withSchema_of_error hcheck, h'.withSchema_of_error hcheck]
    exact .error e
  | ok _ =>
    rw [h.withSchema_of_ok hcheck, h'.withSchema_of_ok hcheck]
    have h₁ := h.describe hsource
    have h₁' := h'.describe hsource
    cases hcheck' : catalog.checkDescribable target with
    | error e =>
      rw [h₁.withSchema_of_error hcheck', h₁'.withSchema_of_error hcheck']
      exact .error e
    | ok _ =>
      rw [h₁.withSchema_of_ok hcheck', h₁'.withSchema_of_ok hcheck']
      obtain ⟨u, -, -, heq⟩ := h.exists_shares hsource
      obtain ⟨v, -, -, heq₁⟩ := h₁.exists_shares htarget
      obtain ⟨u', -, -, heq'⟩ := h'.exists_shares hsource
      obtain ⟨v', -, -, heq₁'⟩ := h₁'.exists_shares htarget
      obtain ⟨⟨p, hp, hbindings⟩, -⟩ := (h₁.describe htarget).plan_eq heq heq₁
      obtain ⟨⟨p', hp', hbindings'⟩, -⟩ := (h₁'.describe htarget).plan_eq heq' heq₁'
      simp only [Outcome.result_map, hp, hp']
      refine .ok (.plan ?_)
      rw [hbindings, hbindings']
      exact ProjectionPlan.bindings_between_congr
        ((h.twin_schemaOf source).trans (h'.twin_schemaOf source).symm)
        ((h₁.twin_schemaOf target).trans (h₁'.twin_schemaOf target).symm)

/-- Two sessions over the same declared types answer a call alike. -/
theorem perform_alike (hasks : c.asks catalog ⊆ ts) :
    ResultsAlike (Spellings catalog ts) (Reply.Alike (Spellings catalog ts))
      (s.perform c).1.result (s'.perform c).1.result := by
  cases c with
  | getSchema t => exact (h.getSchema_alike h' (hasks List.mem_cons_self)).1
  | resolve root chain => exact (h.resolve_alike h' hasks).1
  | synthesize source target =>
    obtain ⟨hsource, htarget⟩ := List.cons_subset.1 hasks
    exact h.synthesize_alike h' hsource (htarget List.mem_cons_self)

/-- They give the same warnings, except for those that go with making a plan. -/
theorem warnings_eq (hasks : c.asks catalog ⊆ ts) (hinto : ¬ c.ProjectsIntoNothing catalog) :
    (s.perform c).1.warnings = (s'.perform c).1.warnings := by
  cases c with
  | getSchema t => exact (h.getSchema_alike h' (hasks List.mem_cons_self)).2
  | resolve root chain => exact (h.resolve_alike h' hasks).2
  | synthesize source target =>
    obtain ⟨hsource, htarget⟩ := List.cons_subset.1 hasks
    have htarget := htarget List.mem_cons_self
    have hnone {s : Session} (h : s.Keeps catalog ts) :
        ProjectionPlan.warnings ((s.directory.describe source).schemaOf target) = [] := by
      have htwin := (h.describe hsource).twin_schemaOf target
      have hfields : ((s.directory.describe source).schemaOf target).fields ≠ [] := by
        rw [show ((s.directory.describe source).schemaOf target).fields = _ from htwin.fields_eq]
        exact hinto
      rw [ProjectionPlan.warnings, if_neg (by simpa using hfields)]
    rw [h.warnings_synthesize hsource htarget, h'.warnings_synthesize hsource htarget, hnone h,
      hnone h']
    simp

/-- If no two names stand for one type, a session gives no warning where it remembers the plan. -/
theorem warnings_eq_of_oneSpelling (hasks : c.asks catalog ⊆ ts) (hone : OneSpelling ts)
    (hnew : s'.remembers c = false) :
    (s.perform c).1.warnings = if s.remembers c then [] else (s'.perform c).1.warnings := by
  cases c with
  | getSchema t => exact (h.getSchema_alike h' (hasks List.mem_cons_self)).2
  | resolve root chain => exact (h.resolve_alike h' hasks).2
  | synthesize source target =>
    obtain ⟨hsource, htarget⟩ := List.cons_subset.1 hasks
    have htarget := htarget List.mem_cons_self
    have h₁ := h.describe hsource
    have h₁' := h'.describe hsource
    have hwarnings : ProjectionPlan.warnings ((s.describing source).directory.schemaOf target) =
        ProjectionPlan.warnings ((s'.describing source).directory.schemaOf target) := by
      rw [ProjectionPlan.warnings, ProjectionPlan.warnings,
        ((h₁.twin_schemaOf target).trans (h₁'.twin_schemaOf target).symm).fields_eq,
        hone.eq_of_spellings (h₁.spellings h₁' htarget)]
    rw [h.warnings_synthesize hsource htarget, h'.warnings_synthesize hsource htarget, hnew]
    exact congrArg _ (congrArg (ite _ · _) hwarnings)

end Keeps

/-! ### Plans that were made before -/

section

variable {s : Session} {c : Call}

theorem planned_noting {α : Type} (s : Session) (x : Outcome α) :
    (s.noting x).planned = s.planned :=
  rfl

theorem planned_keeping (s : Session) (root : Schema) (chain : ChainRequest)
    (found : Outcome Accessor) : (s.keeping root chain found).planned = s.planned := by
  unfold keeping
  split <;> rfl

theorem planned_resolve (s : Session) (root : Schema) (chain : ChainRequest) :
    (s.resolve root chain).2.planned = s.planned := by
  unfold resolve
  split
  · rfl
  · rw [planned_keeping, planned_noting]

theorem planned_withSchema {α : Type} {t : TypeExpr} {next : Session → Schema → Outcome α × Session}
    (h : ∀ schema, (next (s.describing t) schema).2.planned = s.planned) :
    (s.withSchema t next).2.planned = s.planned := by
  rw [withSchema, schemaOf]
  cases s.directory.catalog.checkDescribable t with
  | error e => rfl
  | ok _ => exact h _

theorem planned_perform (hc : ∀ a b, c ≠ .synthesize a b) :
    (s.perform c).2.planned = s.planned := by
  cases c with
  | getSchema t => exact planned_withSchema fun _ => rfl
  | resolve root chain => exact planned_withSchema fun _ => planned_resolve _ _ _
  | synthesize a b => exact absurd rfl (hc a b)

theorem planned_run {calls : List Call} (h : ∀ a b, Call.synthesize a b ∉ calls) :
    (s.run calls).planned = s.planned := by
  induction calls generalizing s with
  | nil => rfl
  | cons c calls ih =>
    rw [run, List.foldl_cons]
    refine (ih fun a b hmem => h a b (List.mem_cons_of_mem c hmem)).trans (planned_perform ?_)
    rintro a b rfl
    exact h a b List.mem_cons_self

end

theorem remembers_of_planned_nil {s : Session} (h : s.planned = []) (c : Call) :
    s.remembers c = false := by
  cases c <;> simp [remembers, planned?, h]

/-- A plan is remembered only if one was asked for. -/
theorem exists_synthesize_of_remembers {before : List Call} {c : Call}
    (h : (after catalog before).remembers c = true) : ∃ a b, Call.synthesize a b ∈ before := by
  by_contra hnone
  push Not at hnone
  have hplanned : (after catalog before).planned = [] := planned_run hnone
  rw [remembers_of_planned_nil hplanned] at h
  cases h

/-! ### Answers -/

/-- **Calls after others.** A call gives the answer that it gives alone, up to the names of types
without members, and the warnings that it gives alone, unless it projects into such a type. If no
type is asked for under two names, then the answer is the same outright, and so are the warnings
unless the plan was made before. -/
theorem answer_alike (catalog : Catalog) (before : List Call) (c : Call) :
    (ResultsAlike (Spellings catalog (asked catalog (before ++ [c])))
        (Reply.Alike (Spellings catalog (asked catalog (before ++ [c]))))
        (answer catalog before c).result (answer catalog [] c).result ∧
      (¬ c.ProjectsIntoNothing catalog →
        (answer catalog before c).warnings = (answer catalog [] c).warnings)) ∧
    (OneSpelling (asked catalog (before ++ [c])) →
      ResultsAlike (· = ·) (Reply.Alike (· = ·)) (answer catalog before c).result
          (answer catalog [] c).result ∧
        (answer catalog before c).warnings =
          if (after catalog before).remembers c then [] else (answer catalog [] c).warnings) := by
  have hstart : (after catalog []).Keeps catalog (asked catalog (before ++ [c])) :=
    Keeps.start catalog _
  have hasks : c.asks catalog ⊆ asked catalog (before ++ [c]) :=
    asks_subset_asked (by simp)
  have hbefore : (after catalog before).Keeps catalog (asked catalog (before ++ [c])) :=
    hstart.run fun c' hc' => asks_subset_asked (List.mem_append_left _ hc')
  have halike := hbefore.perform_alike hstart hasks
  refine ⟨⟨halike, hbefore.warnings_eq hstart hasks⟩, fun hone => ⟨?_, ?_⟩⟩
  · have heq (o o' : String) (h : Spellings catalog (asked catalog (before ++ [c])) o o') :
        o = o' := hone.eq_of_spellings h
    exact halike.mono heq fun _ _ h => h.mono heq
  · exact hbefore.warnings_eq_of_oneSpelling hstart hasks hone (remembers_of_planned_nil rfl c)

private def nameField : FieldDecl where
  name := "name"
  type := .builtin .str

/-- Users, cards with their names, and tags, which have no members. -/
private def shop : Catalog where
  classes := [
    { name := "User", kind := .data false false, fields := [nameField] },
    { name := "Card", kind := .data false false, fields := [nameField] },
    { name := "Tag", kind := .plain }]

private def toCards : Call := .synthesize (.record "User") (.record "Card")

private def toTags : Call := .synthesize (.record "User") (.record "Tag")

private theorem asked_shop : asked shop ([toTags, toCards] ++ [toCards]) =
    [.record "User", .record "Tag", .record "User", .record "Card", .record "User",
      .record "Card"] :=
  rfl

/-- Cards are made from users again as they were the first time. -/
theorem answer_alike_cards :
    ¬ toCards.ProjectsIntoNothing shop ∧ OneSpelling (asked shop ([toTags, toCards] ++ [toCards])) ∧
      (answer shop [toTags, toCards] toCards).warnings = (answer shop [] toCards).warnings ∧
      ResultsAlike (· = ·) (Reply.Alike (· = ·)) (answer shop [toTags, toCards] toCards).result
        (answer shop [] toCards).result := by
  have hinto : ¬ toCards.ProjectsIntoNothing shop := by
    intro h
    cases h
  have hone : OneSpelling (asked shop ([toTags, toCards] ++ [toCards])) := by
    rw [asked_shop, OneSpelling]
    decide
  obtain ⟨⟨-, hwarnings⟩, halike⟩ := answer_alike shop [toTags, toCards] toCards
  exact ⟨hinto, hone, hwarnings hinto, (halike hone).1⟩

private def intOrText : TypeExpr := .union .named [.builtin .int, .builtin .str]

private def textOrInt : TypeExpr := .union .named [.builtin .str, .builtin .int]

/-- What was asked before can be seen: the second projection into tags is not warned about, though
the first is, and a union goes by the name that it was first asked for under. -/
theorem answer_seen_before :
    ((answer shop [] toTags).warnings = ["Projection target 'Tag' exposes no members; " ++
        "every projected record will be empty"] ∧
      (answer shop [toTags] toTags).warnings = []) ∧
    ∃ alone after : Schema,
      (answer shop [] (.getSchema intOrText)).result = .ok (.schema alone) ∧
      (answer shop [.getSchema textOrInt] (.getSchema intOrText)).result = .ok (.schema after) ∧
      alone.name = "Union[int, str]" ∧ after.name = "Union[str, int]" :=
  ⟨⟨rfl, rfl⟩, _, _, rfl, rfl, rfl, rfl⟩

end Session
end RecordQuery
