import RecordQuery.Accessor
import RecordQuery.Proofs.Success

/-!
# Chains put together

Resolving a chain that is made of two chains is resolving the first one, entering the member that it
ends in, and resolving the second one there (`Directory.follow_append`), with the position of an
unknown member counted on. Reading along the whole chain is reading along its two parts
(`Accessor.readFields_append`). `Directory.resolveNames_append` says both of resolved chains.
-/

namespace RecordQuery

namespace Outcome

variable {α β γ : Type}

theorem bind_assoc (x : Outcome α) (f : α → Outcome β) (g : β → Outcome γ) :
    x >>= f >>= g = x >>= fun a => f a >>= g := by
  change Outcome.bind (Outcome.bind x f) g = Outcome.bind x fun a => Outcome.bind (f a) g
  obtain ⟨ws, ts, _ | a⟩ := x
  · rfl
  · cases h : (f a).result <;> simp [Outcome.bind, before, h]

theorem bind_pure (x : Outcome α) : x >>= pure = x := by
  change Outcome.bind x (fun a => ofExcept (.ok a)) = x
  obtain ⟨ws, ts, _ | a⟩ := x <;> simp [Outcome.bind, before, ofExcept]

theorem pure_bind (a : α) (f : α → Outcome β) : pure a >>= f = f a := by
  change Outcome.bind (ofExcept (.ok a)) f = f a
  simp [Outcome.bind, ofExcept, before]

/-- What follows an outcome matters only for the value that it has. -/
theorem bind_congr {x : Outcome α} {f g : α → Outcome β} (h : ∀ a, x.result = .ok a → f a = g a) :
    x >>= f = x >>= g := by
  cases hx : x.result with
  | error e => rw [bind_error hx, bind_error hx]
  | ok a =>
    change Outcome.bind x f = Outcome.bind x g
    simp only [Outcome.bind, hx, h a hx]

theorem warnings_bind_eq_nil {x : Outcome α} {f : α → Outcome β} (hx : x.warnings = [])
    (hf : ∀ a, (f a).warnings = []) : (x >>= f).warnings = [] := by
  cases h : x.result with
  | error e => rw [bind_error h, hx]
  | ok a => rw [warnings_bind_ok h, hx, hf a, List.append_nil]

/-- The outcome with its error put differently. -/
def mapError (f : Error → Error) (x : Outcome α) : Outcome α :=
  { x with result := x.result.mapError f }

theorem mapError_bind (g : Error → Error) (x : Outcome α) (f : α → Outcome β) :
    (x >>= f).mapError g = x.mapError g >>= fun a => (f a).mapError g := by
  change (Outcome.bind x f).mapError g = Outcome.bind (x.mapError g) fun a => (f a).mapError g
  obtain ⟨ws, ts, _ | a⟩ := x <;> rfl

end Outcome

/-- The error of a chain as that of a longer one that begins `count` names earlier: an unknown
member stands so much further on. -/
def Error.shift (count : Nat) : Error → Error
  | .unknownMember owner name position => .unknownMember owner name (position + count)
  | e => e

namespace Directory

variable {d : Directory} {s : Schema} {position : Nat} {name : String} {names more : List String}
  {f : Field} {fs : List Field}

theorem follow_of_candidates_nil (h : s.candidates name = []) :
    d.follow s position (name :: names) = throw (.unknownMember s.name name position) := by
  rw [follow, h]

/-- The last name of a chain leads to a member, which is not entered. -/
theorem follow_last (h : s.candidates name = f :: fs) :
    d.follow s position [name] = pure ⟨[f], s.ambiguities name (f :: fs)⟩ := by
  rw [follow, h]
  simp only [List.isEmpty_nil, if_true, follow, Outcome.pure_bind, List.append_nil]

/-- Any other name leads into the record of its member. -/
theorem follow_step (h : s.candidates name = f :: fs) (hnames : names ≠ []) :
    d.follow s position (name :: names) = do
      let owner ← d.enter f
      let rest ← d.follow owner (position + 1) names
      return ⟨f :: rest.fields, s.ambiguities name (f :: fs) ++ rest.warnings⟩ := by
  rw [follow, h]
  simp only [List.isEmpty_iff, if_neg hnames]

/-- Warnings are given for a chain as a whole, not on the way. -/
theorem warnings_follow : (d.follow s position names).warnings = [] := by
  induction names generalizing s position with
  | nil => rfl
  | cons name names ih =>
    cases hfound : s.candidates name with
    | nil => rw [follow_of_candidates_nil hfound]; rfl
    | cons f fs =>
      cases names with
      | nil => rw [follow_last hfound]; rfl
      | cons name' names =>
        rw [follow_step hfound (List.cons_ne_nil name' names)]
        refine Outcome.warnings_bind_eq_nil rfl fun owner => ?_
        exact Outcome.warnings_bind_eq_nil ih fun rest => rfl

/-- What keeps a member from being entered is a fault of its declared type. -/
theorem fault_of_enter {e : Error} (h : (d.enter f).result = .error e) :
    ∃ fault, e = .fault fault := by
  have hcheck : d.checkMember f = .error e := by
    cases hc : d.checkMember f with
    | error e' =>
      simp only [enter, hc, Except.error_bind] at h
      cases h
      rfl
    | ok u =>
      simp only [enter, hc, Except.ok_bind] at h
      cases h
  unfold checkMember at hcheck
  split at hcheck
  · unfold Catalog.checkDescribable at hcheck
    split at hcheck
    · split at hcheck <;> cases hcheck
      exact ⟨_, rfl⟩
    · cases hcheck
  · cases hcheck

theorem shift_enter (count : Nat) : (d.enter f).mapError (Error.shift count) = d.enter f := by
  cases h : (d.enter f).result with
  | ok owner => simp only [Outcome.mapError, h, Except.mapError]; rw [← h]
  | error e =>
    obtain ⟨fault, rfl⟩ := fault_of_enter h
    simp only [Outcome.mapError, h, Except.mapError, Error.shift]
    rw [← h]

/-- The position of an unknown member is counted from that of the first name. -/
theorem follow_add (count : Nat) : d.follow s (position + count) names =
    (d.follow s position names).mapError (Error.shift count) := by
  induction names generalizing s position with
  | nil => rfl
  | cons name names ih =>
    cases hfound : s.candidates name with
    | nil => rw [follow_of_candidates_nil hfound, follow_of_candidates_nil hfound]; rfl
    | cons f fs =>
      cases names with
      | nil => rw [follow_last hfound, follow_last hfound]; rfl
      | cons name' names =>
        rw [follow_step hfound (List.cons_ne_nil name' names),
          follow_step hfound (List.cons_ne_nil name' names), Outcome.mapError_bind, shift_enter]
        refine Outcome.bind_congr fun owner _ => ?_
        rw [Outcome.mapError_bind, Nat.add_right_comm, ih]
        rfl

theorem result_follow_step (h : s.candidates name = f :: fs) (hnames : names ≠ []) :
    (d.follow s position (name :: names)).result = do
      let owner ← (d.enter f).result
      let rest ← (d.follow owner (position + 1) names).result
      return ⟨f :: rest.fields, s.ambiguities name (f :: fs) ++ rest.warnings⟩ := by
  rw [follow_step h hnames]
  simp only [Outcome.result_bind, Outcome.result_pure]
  rfl

/-- A chain leads through one member for each of its names. -/
theorem length_of_follow {found : Resolution}
    (h : (d.follow s position names).result = .ok found) : found.fields.length = names.length := by
  induction names generalizing s position found with
  | nil => cases h; rfl
  | cons name names ih =>
    cases hfound : s.candidates name with
    | nil =>
      rw [follow_of_candidates_nil hfound] at h
      cases h
    | cons f fs =>
      cases names with
      | nil =>
        rw [follow_last hfound] at h
        cases h
        rfl
      | cons name' names =>
        rw [result_follow_step hfound (List.cons_ne_nil name' names)] at h
        obtain ⟨owner, -, h⟩ := Except.bind_eq_ok.1 h
        obtain ⟨rest, hrest, h⟩ := Except.bind_eq_ok.1 h
        cases h
        simp [ih hrest]

/-- Following two chains one after the other. -/
theorem follow_append (hnames : names ≠ []) (hmore : more ≠ []) :
    d.follow s position (names ++ more) = do
      let front ← d.follow s position names
      let owner ← d.enter (front.fields.getLastD default)
      let back ← d.follow owner (position + names.length) more
      return ⟨front.fields ++ back.fields, front.warnings ++ back.warnings⟩ := by
  induction names generalizing s position with
  | nil => exact absurd rfl hnames
  | cons name names ih =>
    rw [List.cons_append]
    cases h : s.candidates name with
    | nil =>
      rw [follow_of_candidates_nil h, follow_of_candidates_nil h]
      rfl
    | cons f fs =>
      rw [follow_step h (List.append_ne_nil_of_right_ne_nil names hmore)]
      cases names with
      | nil =>
        rw [follow_last h, Outcome.pure_bind]
        rfl
      | cons name' names =>
        rw [follow_step h (List.cons_ne_nil name' names)]
        simp only [Outcome.bind_assoc, Outcome.pure_bind]
        refine Outcome.bind_congr fun owner _ => ?_
        rw [ih (List.cons_ne_nil name' names)]
        simp only [Outcome.bind_assoc, Outcome.pure_bind]
        refine Outcome.bind_congr fun rest hrest => ?_
        have hlength := length_of_follow hrest
        have hlast : (f :: rest.fields).getLastD default = rest.fields.getLastD default := by
          cases hfields : rest.fields with
          | nil => simp [hfields] at hlength
          | cons g gs => simp
        rw [hlast]
        simp only [List.length_cons, List.append_assoc, List.cons_append, Nat.add_assoc,
          Nat.add_comm 1]

/-- A chain that is not empty ends in a member. -/
theorem exists_last_of_follow (hnames : names ≠ []) {found : Resolution}
    (h : (d.follow s position names).result = .ok found) :
    ∃ last, found.fields.getLast? = some last := by
  have hlength := length_of_follow h
  cases hfields : found.fields with
  | nil =>
    rw [hfields, List.length_nil, eq_comm, List.length_eq_zero_iff] at hlength
    exact absurd hlength hnames
  | cons g gs => exact ⟨_, List.getLast?_eq_some_getLast (List.cons_ne_nil g gs)⟩

/-- What a chain of two parts leads to, where the first one leads to `front`. -/
theorem result_follow_append (hnames : names ≠ []) (hmore : more ≠ []) {front : Resolution}
    (hfront : (d.follow s position names).result = .ok front) {last : Field}
    (hlast : front.fields.getLast? = some last) :
    (d.follow s position (names ++ more)).result = do
      let owner ← (d.enter last).result
      let back ← (d.follow owner (position + names.length) more).result
      return ⟨front.fields ++ back.fields, front.warnings ++ back.warnings⟩ := by
  rw [follow_append hnames hmore, Outcome.result_bind_ok hfront, List.getLastD_eq_getLast?, hlast,
    Option.getD_some, Outcome.result_bind]
  simp only [Outcome.result_bind, Outcome.result_pure]
  rfl

/-- Resolving names is following them, with the warnings given at the end. -/
theorem resolveNames_eq (hnames : names ≠ []) :
    d.resolveNames s names = d.follow s 0 names >>= fun found =>
      { warnings := found.warnings, result := .ok { root := s, fields := found.fields } } := by
  cases names with
  | nil => exact absurd rfl hnames
  | cons name names => rfl

theorem resolveNames_of_follow_ok (hnames : names ≠ []) {found : Resolution}
    (h : (d.follow s 0 names).result = .ok found) :
    (d.resolveNames s names).result = .ok ⟨s, found.fields⟩ ∧
      (d.resolveNames s names).warnings = found.warnings := by
  rw [resolveNames_eq hnames, Outcome.result_bind_ok h, Outcome.warnings_bind_ok h,
    warnings_follow]
  exact ⟨rfl, rfl⟩

theorem resolveNames_of_follow_error (hnames : names ≠ []) {e : Error}
    (h : (d.follow s 0 names).result = .error e) :
    (d.resolveNames s names).result = .error e ∧ (d.resolveNames s names).warnings = [] := by
  rw [resolveNames_eq hnames, Outcome.bind_error h]
  exact ⟨rfl, warnings_follow⟩

end Directory

namespace Accessor

variable {catalog : Catalog}

/-- Null is read as null along every chain. -/
theorem readFields_null (fields : List Field) : readFields catalog fields .null = .ok .null := by
  cases fields with
  | nil => rfl
  | cons f fields => simp [readFields, Value.isNull]

/-- Reading along two chains one after the other. -/
theorem readFields_append (fields more : List Field) (v : Value) :
    readFields catalog (fields ++ more) v =
      readFields catalog fields v >>= readFields catalog more := by
  induction fields generalizing v with
  | nil => rfl
  | cons f fields ih =>
    rw [List.cons_append, readFields, readFields]
    by_cases hv : v.isNull = true
    · rw [if_pos hv, if_pos hv, Except.ok_bind, readFields_null]
    · rw [if_neg hv, if_neg hv]
      cases f.read catalog v with
      | error e => rfl
      | ok w => exact ih w

end Accessor

/-- **Resolution is compositional.** A chain whose first part does not resolve fails like that part.
Otherwise the second part is resolved on the record of the member that the first one ends in: its
unknown member is that of the whole chain, with its position counted on, and nothing is warned of.
If it resolves too, the whole chain leads through the members of both parts, gives the warnings of
both in their order, and reads a value by reading along the first part and then along the second;
null on the way makes it null. -/
theorem Directory.resolveNames_append (d : Directory) (s : Schema) {c₁ c₂ : List String}
    (h₁ : c₁ ≠ []) (h₂ : c₂ ≠ []) :
    (∀ e, (d.resolveNames s c₁).result = .error e →
      d.resolveNames s (c₁ ++ c₂) = d.resolveNames s c₁) ∧
    ∀ a₁, (d.resolveNames s c₁).result = .ok a₁ → ∃ last, a₁.fields.getLast? = some last ∧
      (∀ e, (d.enter last).result = .error e →
        (d.resolveNames s (c₁ ++ c₂)).result = .error e ∧
        (d.resolveNames s (c₁ ++ c₂)).warnings = []) ∧
      ∀ owner, (d.enter last).result = .ok owner →
        (∀ type member p, (d.resolveNames owner c₂).result = .error (.unknownMember type member p) →
          (d.resolveNames s (c₁ ++ c₂)).result =
            .error (.unknownMember type member (p + c₁.length)) ∧
          (d.resolveNames s (c₁ ++ c₂)).warnings = []) ∧
        (∀ fault, (d.resolveNames owner c₂).result = .error (.fault fault) →
          (d.resolveNames s (c₁ ++ c₂)).result = .error (.fault fault) ∧
          (d.resolveNames s (c₁ ++ c₂)).warnings = []) ∧
        ∀ a₂, (d.resolveNames owner c₂).result = .ok a₂ →
          ∃ a, (d.resolveNames s (c₁ ++ c₂)).result = .ok a ∧ a.root = s ∧
            a.fields = a₁.fields ++ a₂.fields ∧ a.resultType = a₂.resultType ∧
            (d.resolveNames s (c₁ ++ c₂)).warnings =
              (d.resolveNames s c₁).warnings ++ (d.resolveNames owner c₂).warnings ∧
            ∀ x, a.read d.catalog x = (do a₂.read d.catalog (← a₁.read d.catalog x)) ∧
              ∀ front back, a.fields = front ++ back →
                Accessor.readFields d.catalog front x = .ok .null →
                a.read d.catalog x = .ok .null := by
  have h : c₁ ++ c₂ ≠ [] := List.append_ne_nil_of_left_ne_nil h₁ c₂
  cases hfront : (d.follow s 0 c₁).result with
  | error e =>
    obtain ⟨hresult, -⟩ := resolveNames_of_follow_error h₁ hfront
    refine ⟨fun _ _ => ?_, fun a₁ ha₁ => ?_⟩
    case refine_2 => cases hresult.symm.trans ha₁
    rw [resolveNames_eq h, follow_append h₁ h₂, resolveNames_eq h₁, Outcome.bind_error hfront,
      Outcome.bind_error hfront]
    rfl
  | ok front =>
    obtain ⟨hresult, hwarnings⟩ := resolveNames_of_follow_ok h₁ hfront
    obtain ⟨last, hlast⟩ := exists_last_of_follow h₁ hfront
    have hwhole := result_follow_append h₁ h₂ hfront hlast
    refine ⟨fun e he => ?_, fun a₁ ha₁ => ?_⟩
    case refine_1 => cases hresult.symm.trans he
    cases hresult.symm.trans ha₁
    refine ⟨last, hlast, fun e he => ?_, fun owner howner => ?_⟩
    · rw [he] at hwhole
      exact resolveNames_of_follow_error h hwhole
    rw [howner, Except.ok_bind, follow_add] at hwhole
    cases hback : (d.follow owner 0 c₂).result with
    | error e =>
      obtain ⟨hresult', -⟩ := resolveNames_of_follow_error h₂ hback
      simp only [Outcome.mapError, hback, Except.mapError, Except.error_bind] at hwhole
      refine ⟨fun type member p he => ?_, fun fault he => ?_, fun a₂ ha₂ => ?_⟩
      · cases hresult'.symm.trans he
        exact resolveNames_of_follow_error h hwhole
      · cases hresult'.symm.trans he
        exact resolveNames_of_follow_error h hwhole
      · cases hresult'.symm.trans ha₂
    | ok back =>
      obtain ⟨hresult', hwarnings'⟩ := resolveNames_of_follow_ok h₂ hback
      simp only [Outcome.mapError, hback, Except.mapError, Except.ok_bind] at hwhole
      obtain ⟨hresult'', hwarnings''⟩ := resolveNames_of_follow_ok h hwhole
      refine ⟨fun _ _ _ he => ?_, fun _ he => ?_, fun a₂ ha₂ => ?_⟩
      case refine_1 | refine_2 => cases hresult'.symm.trans he
      cases hresult'.symm.trans ha₂
      obtain ⟨g, hg⟩ := exists_last_of_follow h₂ hback
      refine ⟨_, hresult'', rfl, rfl, ?_, ?_, fun x => ⟨?_, ?_⟩⟩
      · simp only [Accessor.resultType, List.getLast?_append, hg, Option.some_or]
      · rw [hwarnings'', hwarnings, hwarnings']
      · exact Accessor.readFields_append front.fields back.fields x
      · rintro before after hfields hnull
        rw [Accessor.read, hfields, Accessor.readFields_append, hnull, Except.ok_bind,
          Accessor.readFields_null]

namespace Directory

/-- Persons with two members that differ in case only, each of them an address. -/
private def residents : Directory where
  catalog.classes := [
    { name := "Resident", kind := .data false false,
      fields := [{ name := "home", type := .record "Place" },
        { name := "HOME", type := .record "Place" }] },
    { name := "Place", kind := .data false false,
      fields := [{ name := "city", type := .builtin .str }] }]

private def resident : Schema := residents.schemaOf (.record "Resident")

private def place : Schema := residents.schemaOf (.record "Place")

private def homeless : Value :=
  .record "Resident" 1 [("home", .null), ("HOME", .null)]

/-- The first name agrees with two members, of which the first one is taken. -/
theorem resolveNames_home_city :
    (["Home"] : List String) ≠ [] ∧ (["city"] : List String) ≠ [] ∧
      ∃ a, (residents.resolveNames resident ["Home", "city"]).result = .ok a ∧
        a.chain = ["home", "city"] ∧ a.resultType.name = "str" ∧
        (residents.resolveNames resident ["Home", "city"]).warnings =
          [ambiguityWarning "Resident" "Home" ["home", "HOME"]] ∧
        a.read residents.catalog homeless = .ok .null := by
  have hhome : (["Home"] : List String) ≠ [] := List.cons_ne_nil _ _
  have hcity : (["city"] : List String) ≠ [] := List.cons_ne_nil _ _
  obtain ⟨last, hlast, -, h⟩ := (resolveNames_append residents resident hhome hcity).2 _ rfl
  cases hlast
  obtain ⟨a, ha, -, hfields, htype, hwarnings, hread⟩ := (h place rfl).2.2 _ rfl
  refine ⟨hhome, hcity, a, ha, ?_, ?_, hwarnings, ?_⟩
  · rw [Accessor.chain, hfields]
    rfl
  · rw [htype]
    rfl
  · exact (hread homeless).2 [{ name := "home", type := .record "Place" }] _ hfields rfl

end Directory
end RecordQuery
