import RecordQuery.Proofs.CapturedBody
import RecordQuery.Proofs.ChainComposition

/-!
# Chains written in lambda bodies

A chain of attributes on the stand-in for a row walks through the members that the chain of names
resolves to (`Param.reach_agrees`): where the names resolve, it makes the captured member of the
resolved chain with the same warnings, and where a name is unknown, it fails at that name, or makes
a captured call if there are no members to choose from.
-/

namespace RecordQuery

/-- The body that reads one attribute after the other. -/
def Term.path (x : Term) : List String → Term
  | [] => x
  | name :: names => path (.get x name) names

namespace Directory

/-- The names lead from a record into the record `owner`, on which a further name is looked up. -/
inductive LeadsTo (d : Directory) : Schema → List String → Schema → Prop
  | root (s : Schema) : LeadsTo d s [] s
  | step {s s' owner : Schema} {name : String} {names : List String} {f : Field} {fs : List Field}
    (hf : s.candidates name = f :: fs) (hs : (d.enter f).result = .ok s')
    (howner : LeadsTo d s' names owner) : LeadsTo d s (name :: names) owner

variable {d : Directory} {s owner : Schema} {position : Nat} {names : List String}

/-- Names lead into the record of the last member of their chain. -/
theorem LeadsTo.exists_follow (h : d.LeadsTo s names owner) (hnames : names ≠ [])
    (position : Nat) :
    ∃ found last, (d.follow s position names).result = .ok found ∧
      found.fields.getLast? = some last ∧ (d.enter last).result = .ok owner := by
  induction h generalizing position with
  | root s => exact absurd rfl hnames
  | @step s s' owner name names f fs hf hs howner ih =>
    cases names with
    | nil =>
      cases howner
      exact ⟨_, f, by rw [follow_last hf]; rfl, rfl, hs⟩
    | cons name' names =>
      obtain ⟨found, last, hfound, hlast, hentered⟩ :=
        ih (List.cons_ne_nil name' names) (position + 1)
      refine ⟨⟨f :: found.fields, s.ambiguities name (f :: fs) ++ found.warnings⟩, last, ?_, ?_,
        hentered⟩
      · rw [result_follow_step hf (List.cons_ne_nil name' names), hs, Except.ok_bind, hfound]
        rfl
      · rw [List.getLast?_cons, hlast]
        rfl

/-- An unknown member is looked up where the names before it lead. -/
theorem split_of_follow_error {type member : String} {i : Nat}
    (h : (d.follow s position names).result = .error (.unknownMember type member i)) :
    ∃ before after owner, names = before ++ member :: after ∧ i = position + before.length ∧
      d.LeadsTo s before owner ∧ owner.name = type ∧ owner.candidates member = [] := by
  induction names generalizing s position with
  | nil => cases h
  | cons name names ih =>
    cases hfound : s.candidates name with
    | nil =>
      rw [follow_of_candidates_nil hfound] at h
      cases h
      exact ⟨[], names, s, rfl, rfl, .root s, rfl, hfound⟩
    | cons f fs =>
      cases names with
      | nil =>
        rw [follow_last hfound] at h
        cases h
      | cons name' names =>
        rw [result_follow_step hfound (List.cons_ne_nil name' names)] at h
        cases howner : (d.enter f).result with
        | error e =>
          obtain ⟨fault, rfl⟩ := fault_of_enter howner
          rw [howner] at h
          cases h
        | ok owner =>
          rw [howner, Except.ok_bind] at h
          cases hrest : (d.follow owner (position + 1) (name' :: names)).result with
          | ok rest =>
            rw [hrest] at h
            cases h
          | error e =>
            rw [hrest] at h
            cases h
            obtain ⟨before, after, owner', hnames, hi, hleads, htype, hnone⟩ := ih hrest
            refine ⟨name :: before, after, owner', by rw [hnames]; rfl, ?_,
              .step hfound howner hleads, htype, hnone⟩
            rw [hi, List.length_cons]
            omega

end Directory

namespace Member

/-- The value that attributes reach, read one after the other. -/
def walk (d : Directory) : Value → List String → Outcome Value
  | v, [] => pure v
  | v, name :: names => do walk d (← of d v name).toValue names

section

variable {d : Directory} {env : Env}

theorem run_path (x : Term) (names : List String) :
    (x.path names).run d env = x.run d env >>= fun v => walk d v names := by
  induction names generalizing x with
  | nil => exact (Outcome.bind_pure _).symm
  | cons name names ih =>
    rw [Term.path, ih, Term.run]
    simp only [Outcome.bind_assoc, Outcome.pure_bind, walk]

end

section

variable {d : Directory} {p : Param} {s owner : Schema} {name : String} {f last : Field}
  {fs front : List Field}

theorem ofProxy_of_candidates (hp : p.schema = some s) (h : s.candidates name = f :: fs) :
    (ofProxy p name).result = .ok (.value (.expr (.member p ⟨s, [f]⟩))) ∧
      (ofProxy p name).warnings = s.ambiguities name (f :: fs) := by
  have hs : p.recordSchema = s := by simp [Param.recordSchema, hp]
  have hlookup : (s.lookup name).result = .ok (some f) := by simp [Schema.lookup, h]
  simp only [ofProxy, hs, Outcome.result_bind_ok hlookup, Outcome.warnings_bind_ok hlookup]
  refine ⟨rfl, ?_⟩
  simp only [Schema.lookup, h]
  exact List.append_nil _

theorem ofProxy_of_candidates_nil (hp : p.schema = some s) (h : s.candidates name = []) :
    (ofProxy p name).result = .error (.unknownMember s.name name 0) := by
  have hs : p.recordSchema = s := by simp [Param.recordSchema, hp]
  have hlookup : (s.lookup name).result = .ok none := by simp [Schema.lookup, h]
  simp only [ofProxy, hs, Outcome.result_bind_ok hlookup]
  rfl

theorem ofMember_of_candidates (howner : (d.enter last).result = .ok owner)
    (h : owner.candidates name = f :: fs) (front : List Field) :
    (ofMember d p ⟨s, front ++ [last]⟩ name).result =
        .ok (.value (.expr (.member p ⟨s, front ++ [last] ++ [f]⟩))) ∧
      (ofMember d p ⟨s, front ++ [last]⟩ name).warnings = owner.ambiguities name (f :: fs) := by
  have hlookup : (owner.lookup name).result = .ok (some f) := by simp [Schema.lookup, h]
  simp only [ofMember, List.getLastD_concat, Outcome.result_bind_ok howner,
    Outcome.warnings_bind_ok howner, Outcome.result_bind_ok hlookup,
    Outcome.warnings_bind_ok hlookup]
  refine ⟨rfl, ?_⟩
  simp only [Schema.lookup, h]
  exact List.append_nil _

theorem ofMember_of_candidates_nil (howner : (d.enter last).result = .ok owner)
    (h : owner.candidates name = []) :
    (ofMember d p ⟨s, front ++ [last]⟩ name).result =
      if owner.fields = [] then .ok (.captured name (.member p ⟨s, front ++ [last]⟩))
      else .error (.unknownMember owner.name name (front.length + 1)) := by
  have hlookup : (owner.lookup name).result = .ok none := by simp [Schema.lookup, h]
  simp only [ofMember, List.getLastD_concat, Outcome.result_bind_ok howner,
    Outcome.result_bind_ok hlookup, List.isEmpty_iff]
  split
  · rfl
  · rw [List.length_append, List.length_singleton]
    rfl

/-- From a captured member on, attributes walk through the members that their names lead to. -/
theorem walk_of_follow {names : List String} {position : Nat} {found : Resolution}
    (hnames : ∀ n ∈ names, n ∉ memberAttributes ∧ Catalog.isPrivate n = false)
    (howner : (d.enter last).result = .ok owner)
    (h : (d.follow owner position names).result = .ok found) (front : List Field) :
    (walk d (.expr (.member p ⟨s, front ++ [last]⟩)) names).result =
        .ok (.expr (.member p ⟨s, front ++ [last] ++ found.fields⟩)) ∧
      (walk d (.expr (.member p ⟨s, front ++ [last]⟩)) names).warnings = found.warnings := by
  induction names generalizing owner last front position found with
  | nil =>
    cases h
    rw [List.append_nil]
    exact ⟨rfl, rfl⟩
  | cons name names ih =>
    rw [List.forall_mem_cons] at hnames
    cases hfound : owner.candidates name with
    | nil =>
      rw [Directory.follow_of_candidates_nil hfound] at h
      cases h
    | cons f fs =>
      obtain ⟨hresult, hwarnings⟩ :=
        ofMember_of_candidates (p := p) (s := s) howner hfound front
      rw [walk, of_member hnames.1.1 hnames.1.2, Outcome.result_bind_ok hresult,
        Outcome.warnings_bind_ok hresult, hwarnings]
      cases names with
      | nil =>
        rw [Directory.follow_last hfound] at h
        cases h
        exact ⟨rfl, List.append_nil _⟩
      | cons name' names =>
        rw [Directory.follow_step hfound (List.cons_ne_nil name' names)] at h
        obtain ⟨owner', howner', h⟩ := Outcome.result_bind_eq_ok.1 h
        obtain ⟨rest, hrest, h⟩ := Outcome.result_bind_eq_ok.1 h
        cases h
        obtain ⟨hwalk, hwalk'⟩ := ih hnames.2 howner' hrest (front ++ [last])
        rw [toValue, hwalk, hwalk']
        simp

theorem walk_append (v : Value) (names more : List String) :
    walk d v (names ++ more) = walk d v names >>= fun w => walk d w more := by
  induction names generalizing v with
  | nil => exact (Outcome.pure_bind _ _).symm
  | cons name names ih =>
    rw [List.cons_append, walk, walk, Outcome.bind_assoc]
    exact Outcome.bind_congr fun m _ => ih m.toValue

/-- From a stand-in for a row on, attributes walk through the members that their names lead to. -/
theorem walk_proxy_of_follow (hp : p.schema = some s) {first : String} {rest : List String}
    (hfirst : first ∉ proxyAttributes ∧ Catalog.isPrivate first = false)
    (hrest : ∀ n ∈ rest, n ∉ memberAttributes ∧ Catalog.isPrivate n = false) {found : Resolution}
    (h : (d.follow s 0 (first :: rest)).result = .ok found) :
    (walk d (.proxy p) (first :: rest)).result = .ok (.expr (.member p ⟨s, found.fields⟩)) ∧
      (walk d (.proxy p) (first :: rest)).warnings = found.warnings := by
  cases hfound : s.candidates first with
  | nil =>
    rw [Directory.follow_of_candidates_nil hfound] at h
    cases h
  | cons f fs =>
    obtain ⟨hresult, hwarnings⟩ := ofProxy_of_candidates hp hfound
    rw [walk, of_proxy hfirst.1 hfirst.2, Outcome.result_bind_ok hresult,
      Outcome.warnings_bind_ok hresult, hwarnings]
    cases rest with
    | nil =>
      rw [Directory.follow_last hfound] at h
      cases h
      exact ⟨rfl, List.append_nil _⟩
    | cons name rest =>
      rw [Directory.follow_step hfound (List.cons_ne_nil name rest)] at h
      obtain ⟨owner, howner, h⟩ := Outcome.result_bind_eq_ok.1 h
      obtain ⟨more, hmore, h⟩ := Outcome.result_bind_eq_ok.1 h
      cases h
      obtain ⟨hwalk, hwalk'⟩ := walk_of_follow (p := p) (s := s) hrest howner hmore []
      rw [toValue]
      exact ⟨hwalk, by rw [← hwalk']; rfl⟩

end

end Member

/-- What a chain of attributes reaches from the stand-in for the rows that a parameter ranges
over. -/
def Param.reach (d : Directory) (p : Param) (names : List String) : Outcome Value :=
  ((Term.var p.name).path names).run d [(p.name, .proxy p)]

theorem Param.reach_eq (d : Directory) (p : Param) (names : List String) :
    p.reach d names = Member.walk d (.proxy p) names := by
  have hvar : (Term.var p.name).run d [(p.name, .proxy p)] = pure (.proxy p) := by
    simp [Term.run, Env.value]
    rfl
  rw [reach, Member.run_path, hvar, Outcome.pure_bind]

/-- Where names lead into a record without a further one, they are captured, and the further one is
unknown, or a method call if the record has no members. -/
theorem Member.of_unknown {d : Directory} {p : Param} {s owner : Schema} {first member : String}
    {before : List String} (hp : p.schema = some s)
    (hfirst : first ∉ proxyAttributes ∧ Catalog.isPrivate first = false)
    (hrest : ∀ n ∈ before ++ [member], n ∉ memberAttributes ∧ Catalog.isPrivate n = false)
    (hleads : d.LeadsTo s (first :: before) owner) (hnone : owner.candidates member = []) :
    ∃ a, (d.resolveNames s (first :: before)).result = .ok a ∧
      (walk d (.proxy p) (first :: before)).result = .ok (.expr (.member p a)) ∧
      (of d (.expr (.member p a)) member).result =
        if owner.fields = [] then .ok (.captured member (.member p a))
        else .error (.unknownMember owner.name member (first :: before).length) := by
  have hne : first :: before ≠ [] := List.cons_ne_nil first before
  rw [List.forall_mem_append, List.forall_mem_singleton] at hrest
  obtain ⟨hbefore, hmember, hvisible⟩ := hrest
  obtain ⟨found, last, hfound, hlast, hentered⟩ := hleads.exists_follow hne 0
  obtain ⟨front, hfields⟩ := List.getLast?_eq_some_iff.1 hlast
  refine ⟨_, (Directory.resolveNames_of_follow_ok hne hfound).1,
    (walk_proxy_of_follow hp hfirst hbefore hfound).1, ?_⟩
  rw [of_member hmember hvisible, ← Directory.length_of_follow hfound, hfields,
    ofMember_of_candidates_nil hentered hnone, List.length_append, List.length_singleton]

/-- **Stand-ins and the resolver agree.** A chain of attributes on the stand-in for the rows of a
schema makes the member that the resolver resolves the chain to, with the same warnings, and it
evaluates to what the resolved chain reads. Where the resolver meets an unknown member, the
attribute after the names before it is the same unknown member; but if these names lead into a
record without any members, it is a method call that will be captured. -/
theorem Param.reach_agrees (d : Directory) (p : Param) (s : Schema) {first : String}
    {rest : List String} (hp : p.schema = some s) (hfirst : first ∉ Member.proxyAttributes)
    (hrest : ∀ n ∈ rest, n ∉ Member.memberAttributes)
    (hvisible : ∀ n ∈ first :: rest, Catalog.isPrivate n = false) :
    (∀ a, (d.resolveNames s (first :: rest)).result = .ok a →
      (p.reach d (first :: rest)).result = .ok (.expr (.member p a)) ∧
      (p.reach d (first :: rest)).warnings = (d.resolveNames s (first :: rest)).warnings ∧
      ∀ env row, Env.value env p.name = .ok row →
        (Expr.member p a).evaluate d env = a.read d.catalog row) ∧
    ∀ type member i, (d.resolveNames s (first :: rest)).result =
        .error (.unknownMember type member i) →
      ∃ before after owner v, first :: rest = before ++ member :: after ∧ before.length = i ∧
        d.LeadsTo s before owner ∧ owner.name = type ∧ (p.reach d before).result = .ok v ∧
        ((i = 0 ∨ owner.fields ≠ []) →
          (Member.of d v member).result = .error (.unknownMember type member i) ∧
          (p.reach d (first :: rest)).result = .error (.unknownMember type member i)) ∧
        (i ≠ 0 → owner.fields = [] → ∃ a, (d.resolveNames s before).result = .ok a ∧
          v = .expr (.member p a) ∧
          (Member.of d v member).result = .ok (.captured member (.member p a))) := by
  have hne : first :: rest ≠ [] := List.cons_ne_nil first rest
  have hfirst' : first ∉ Member.proxyAttributes ∧ Catalog.isPrivate first = false :=
    ⟨hfirst, hvisible first List.mem_cons_self⟩
  have hrest' : ∀ n ∈ rest, n ∉ Member.memberAttributes ∧ Catalog.isPrivate n = false :=
    fun n hn => ⟨hrest n hn, hvisible n (List.mem_cons_of_mem _ hn)⟩
  cases hfound : (d.follow s 0 (first :: rest)).result with
  | ok found =>
    obtain ⟨hresult, hwarnings⟩ := Directory.resolveNames_of_follow_ok hne hfound
    refine ⟨fun a ha => ?_, fun type member i he => ?_⟩
    case refine_2 => cases hresult.symm.trans he
    cases hresult.symm.trans ha
    obtain ⟨hwalk, hwalk'⟩ := Member.walk_proxy_of_follow hp hfirst' hrest' hfound
    rw [reach_eq, hwalk, hwalk', hwarnings]
    refine ⟨rfl, rfl, fun env row hrow => ?_⟩
    rw [Expr.evaluate, hrow, Except.ok_bind]
  | error e =>
    obtain ⟨hresult, -⟩ := Directory.resolveNames_of_follow_error hne hfound
    refine ⟨fun a ha => ?_, fun type member i he => ?_⟩
    case refine_1 => cases hresult.symm.trans ha
    cases hresult.symm.trans he
    obtain ⟨before, after, owner, hnames, hi, hleads, rfl, hnone⟩ :=
      Directory.split_of_follow_error hfound
    rw [Nat.zero_add] at hi
    cases before with
    | nil =>
      cases hleads
      cases hnames
      have hmember : (Member.of d (.proxy p) first).result =
          .error (.unknownMember s.name first 0) := by
        rw [Member.of_proxy hfirst'.1 hfirst'.2, Member.ofProxy_of_candidates_nil hp hnone]
      cases hi
      refine ⟨[], rest, s, .proxy p, rfl, rfl, .root s, rfl, ?_, fun _ => ⟨hmember, ?_⟩,
        fun h => absurd rfl h⟩
      · rw [reach_eq]
        rfl
      · rw [reach_eq, Member.walk, Outcome.bind_error hmember]
        rfl
    | cons name before =>
      obtain ⟨rfl, rfl⟩ := List.cons.inj hnames
      rw [List.append_eq, List.append_cons, List.forall_mem_append] at hrest'
      obtain ⟨a, hresolve, hwalk, hmember⟩ :=
        Member.of_unknown hp hfirst' hrest'.1 hleads hnone
      refine ⟨first :: before, after, owner, .expr (.member p a), rfl, hi.symm, hleads, rfl,
        by rw [reach_eq, hwalk], fun howner => ?_, fun _ howner => ⟨a, hresolve, rfl, ?_⟩⟩
      · have howner : owner.fields ≠ [] := by
          rcases howner with rfl | howner
          · cases hi
          · exact howner
        rw [if_neg howner, ← hi] at hmember
        refine ⟨hmember, ?_⟩
        rw [reach_eq, List.append_eq, ← List.cons_append, Member.walk_append,
          Outcome.result_bind_ok hwalk, Member.walk, Outcome.bind_error hmember]
      · rw [hmember, if_pos howner]

namespace Param

/-- Persons, who rent a place in a city. -/
private def tenancies : Directory where
  catalog.classes := [
    { name := "Tenant", kind := .data false false,
      fields := [{ name := "home", type := .record "Flat" }] },
    { name := "Flat", kind := .data false false,
      fields := [{ name := "city", type := .builtin .str }] }]

private def tenant : Param where
  key := 0
  name := "r"
  index := 0
  schema := some (tenancies.schemaOf (.record "Tenant"))

/-- A chain that resolves, one with an unknown member, and one that goes on from a text, which has
no members. -/
theorem reach_home_city :
    "home" ∉ Member.proxyAttributes ∧
      (∀ n ∈ ["City", "street", "upper"], n ∉ Member.memberAttributes) ∧
      (∀ n ∈ ["home", "City", "street", "upper"], Catalog.isPrivate n = false) ∧
      ∃ a, a.chain = ["home", "city"] ∧
        (tenant.reach tenancies ["home", "City"]).result = .ok (.expr (.member tenant a)) ∧
        (tenant.reach tenancies ["home", "street"]).result =
          .error (.unknownMember "Flat" "street" 1) ∧
        (Member.of tenancies (.expr (.member tenant a)) "upper").result =
          .ok (.captured "upper" (.member tenant a)) := by
  have hfirst : "home" ∉ Member.proxyAttributes := by decide
  have hrest : ∀ n ∈ ["City", "street", "upper"], n ∉ Member.memberAttributes := by decide
  have hvisible : ∀ n ∈ ["home", "City", "street", "upper"], Catalog.isPrivate n = false := by
    decide +kernel
  have hagrees (rest : List String) (h : rest ⊆ ["City", "street", "upper"]) :=
    reach_agrees tenancies tenant _ rfl hfirst (fun n hn => hrest n (h hn))
      fun n hn => hvisible n (List.cons_subset_cons "home" h hn)
  refine ⟨hfirst, hrest, hvisible, _, ?_, ((hagrees ["City"] (by simp)).1 _ rfl).1, ?_, ?_⟩
  · rfl
  · obtain ⟨before, after, owner, v, hnames, hlength, hleads, -, -, hreach, -⟩ :=
      (hagrees ["street"] (by simp)).2 "Flat" "street" 1 rfl
    obtain ⟨name, rfl⟩ := List.length_eq_one_iff.1 hlength
    cases hnames
    cases hleads with | step hf hs howner
    cases hf
    cases hs
    cases howner
    exact (hreach (.inr (List.cons_ne_nil _ _))).2
  · obtain ⟨before, after, owner, v, hnames, hlength, hleads, -, -, -, hreach⟩ :=
      (hagrees ["City", "upper"] (by simp)).2 "str" "upper" 2 rfl
    obtain ⟨name, name', rfl⟩ := List.length_eq_two.1 hlength
    cases hnames
    cases hleads with | step hf hs howner
    cases hf
    cases hs
    cases howner with | step hf hs howner
    cases hf
    cases hs
    cases howner
    obtain ⟨a, ha, rfl, hcaptured⟩ := hreach (by decide) rfl
    cases ha
    exact hcaptured

end Param
end RecordQuery
