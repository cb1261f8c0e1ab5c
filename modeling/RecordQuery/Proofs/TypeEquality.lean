import RecordQuery.Coercion
import RecordQuery.Proofs.ColumnValue
import RecordQuery.Proofs.OptionalTypes

/-!
# Equality of types

A type equals itself (`TypeExpr.same_refl`), and unions that differ in the order of their members
are equal (`TypeExpr.same_union_of_perm`). Among types that are made in the usual way equality is
symmetric and transitive (`TypeExpr.same_symm`, `TypeExpr.same_trans`): the members of their unions
are distinct, and no word in them stands for a column type (`TypeExpr.IsProper`). Such a word equals
the column type, but no other word for it.

Two computations may do the same with types that are equal but written differently. Their outcomes
are the same then, up to the types that a failed conversion reports (`Respelled`).
-/

namespace RecordQuery

/-! ### Equal types -/

namespace ColumnType

mutual

theorem same_refl : ∀ a : ColumnType, a.same a = true
  | .list a => same_refl a
  | .struct fields => sameFields_refl fields
  | .other kind text words => by simp [same]
  | .null | .bool | .int8 | .int16 | .int32 | .int64 | .uint8 | .uint16 | .uint32 | .uint64
  | .float32 | .float64 | .string | .binary => rfl

theorem sameFields_refl : ∀ fields : List (String × ColumnType), sameFields fields fields = true
  | [] => rfl
  | (n, a) :: fields => by simp [sameFields, same_refl a, sameFields_refl fields]

end

end ColumnType

namespace TypeExpr

variable {a b c : TypeExpr} {as bs cs : List TypeExpr}

theorem sameAll_iff : sameAll as bs = true ↔ List.Forall₂ (fun a b => a.same b = true) as bs := by
  induction as generalizing bs with
  | nil => cases bs <;> simp [sameAll]
  | cons a as ih => cases bs <;> simp [sameAll, ih]

mutual

theorem same_refl : ∀ a : TypeExpr, a.same a = true
  | .union _ members => by
    rw [same, within_iff.2 fun a ha => ⟨a, ha, same_refl_of_mem members a ha⟩]
    simp
  | .list item => same_refl item
  | .plain cls params => by
    rw [same, sameAll_iff.2 (List.forall₂_same.2 (same_refl_of_mem params))]
    simp
  | .dict key value => by simp [same, same_refl key, same_refl value]
  | .tuple items => sameAll_iff.2 (List.forall₂_same.2 (same_refl_of_mem items))
  | .classVar t => same_refl t
  | .column t => ColumnType.same_refl t
  | .any | .null | .nullType => rfl
  | .builtin _ | .record _ | .schema .. | .text _ | .forward .. | .literal _ | .thing .. => by
    simp [same]

theorem same_refl_of_mem : ∀ as : List TypeExpr, ∀ a ∈ as, a.same a = true
  | a :: as, b, hb =>
    (List.mem_cons.1 hb).elim (fun h => h ▸ same_refl a) (same_refl_of_mem as b)

end

/-- **Unions are equal in any order** and in both spellings. -/
theorem same_union_of_perm {style style' : UnionStyle} (h : as.Perm bs) :
    (union style as).same (union style' bs) = true := by
  simp only [same, h.length_eq, beq_self_eq_true, Bool.true_and]
  exact within_iff.2 fun a ha => ⟨a, h.mem_iff.1 ha, same_refl a⟩

mutual

/-- The types in a union are distinct, and no bare word stands for a column type. -/
def IsProper : TypeExpr → Prop
  | .text name => ∀ t : ColumnType, t.isNamed name = false
  | .union _ members => AllProper members ∧ members.Pairwise fun a b => a.same b = false
  | .list item => IsProper item
  | .plain _ params => AllProper params
  | .dict key value => IsProper key ∧ IsProper value
  | .tuple items => AllProper items
  | .classVar t => IsProper t
  | _ => True

def AllProper : List TypeExpr → Prop
  | [] => True
  | t :: ts => IsProper t ∧ AllProper ts

end

theorem allProper_iff : AllProper as ↔ ∀ a ∈ as, a.IsProper := by
  induction as with
  | nil => simp [AllProper]
  | cons a as ih => simp [AllProper, ih]

/-- The type's equality with proper types goes both ways and on to what these are equal to. -/
structure Exchanges (a : TypeExpr) : Prop where
  symm : ∀ b, b.IsProper → a.same b = true → b.same a = true
  trans : ∀ b c, b.IsProper → a.same b = true → b.same c = true → a.same c = true

namespace Exchanges

theorem list (h : a.Exchanges) : (TypeExpr.list a).Exchanges where
  symm b hb hab := by
    cases b with
    | list b => exact h.symm b hb hab
    | _ => cases hab
  trans b c hb hab hbc := by
    cases b with
    | list b =>
      cases c with
      | list c => exact h.trans b c hb hab hbc
      | _ => cases hbc
    | _ => cases hab

theorem classVar (h : a.Exchanges) : (TypeExpr.classVar a).Exchanges where
  symm b hb hab := by
    cases b with
    | classVar b => exact h.symm b hb hab
    | _ => cases hab
  trans b c hb hab hbc := by
    cases b with
    | classVar b =>
      cases c with
      | classVar c => exact h.trans b c hb hab hbc
      | _ => cases hbc
    | _ => cases hab

theorem dict (ha : a.Exchanges) (hb : b.Exchanges) : (TypeExpr.dict a b).Exchanges where
  symm t ht h := by
    cases t with
    | dict a' b' =>
      simp only [same, Bool.and_eq_true] at h ⊢
      exact ⟨ha.symm a' ht.1 h.1, hb.symm b' ht.2 h.2⟩
    | _ => cases h
  trans t u ht h h' := by
    cases t with
    | dict a' b' =>
      cases u with
      | dict a'' b'' =>
        simp only [same, Bool.and_eq_true] at h h' ⊢
        exact ⟨ha.trans a' a'' ht.1 h.1 h'.1, hb.trans b' b'' ht.2 h.2 h'.2⟩
      | _ => cases h'
    | _ => cases h

theorem sameAll_symm (h : ∀ a ∈ as, a.Exchanges) (hbs : AllProper bs)
    (hsame : sameAll as bs = true) : sameAll bs as = true := by
  rw [sameAll_iff] at hsame ⊢
  induction hsame with
  | nil => exact .nil
  | @cons a b as bs hab _ ih =>
    exact .cons ((h a (by simp)).symm b hbs.1 hab)
      (ih (fun a ha => h a (List.mem_cons_of_mem _ ha)) hbs.2)

theorem sameAll_trans (h : ∀ a ∈ as, a.Exchanges) (hbs : AllProper bs)
    (hsame : sameAll as bs = true) (hsame' : sameAll bs cs = true) : sameAll as cs = true := by
  rw [sameAll_iff] at hsame hsame' ⊢
  induction hsame generalizing cs with
  | nil => cases hsame'; exact .nil
  | @cons a b as bs hab _ ih =>
    cases hsame' with
    | @cons _ c _ cs hbc hrest =>
      exact .cons ((h a (by simp)).trans b c hbs.1 hab hbc)
        (ih (fun a ha => h a (List.mem_cons_of_mem _ ha)) hbs.2 hrest)

theorem plain {cls : Builtin} (h : ∀ a ∈ as, a.Exchanges) : (TypeExpr.plain cls as).Exchanges where
  symm b hb hab := by
    cases b with
    | plain cls' bs =>
      simp only [same, Bool.and_eq_true, beq_iff_eq] at hab ⊢
      exact ⟨hab.1.symm, sameAll_symm h hb hab.2⟩
    | _ => cases hab
  trans b c hb hab hbc := by
    cases b with
    | plain cls' bs =>
      cases c with
      | plain cls'' cs =>
        simp only [same, Bool.and_eq_true, beq_iff_eq] at hab hbc ⊢
        exact ⟨hab.1.trans hbc.1, sameAll_trans h hb hab.2 hbc.2⟩
      | _ => cases hbc
    | _ => cases hab

theorem tuple (h : ∀ a ∈ as, a.Exchanges) : (TypeExpr.tuple as).Exchanges where
  symm b hb hab := by
    cases b with
    | tuple bs => exact sameAll_symm h hb hab
    | _ => cases hab
  trans b c hb hab hbc := by
    cases b with
    | tuple bs =>
      cases c with
      | tuple cs => exact sameAll_trans h hb hab hbc
      | _ => cases hbc
    | _ => cases hab

/-- Distinct types that all are among as many others leave none of these out. -/
theorem within_symm (h : ∀ a ∈ as, a.Exchanges) (hproper : ∀ a ∈ as, a.IsProper)
    (hbs : ∀ b ∈ bs, b.IsProper) (hpairs : as.Pairwise fun a b => a.same b = false)
    (hlength : as.length = bs.length) (hwithin : ∀ a ∈ as, ∃ b ∈ bs, a.same b = true) :
    ∀ b ∈ bs, ∃ a ∈ as, b.same a = true := by
  induction as generalizing bs with
  | nil =>
    cases List.length_eq_zero_iff.1 hlength.symm
    nofun
  | cons a as ih =>
    rw [List.forall_mem_cons] at h hproper hwithin
    obtain ⟨hnew, hpairs⟩ := List.pairwise_cons.1 hpairs
    obtain ⟨⟨b, hb, hab⟩, hwithin⟩ := hwithin
    obtain ⟨front, back, rfl⟩ := List.append_of_mem hb
    have hrest : ∀ t ∈ front ++ back, t ∈ front ++ b :: back := by
      intro t ht
      rw [List.mem_append, List.mem_cons]
      exact (List.mem_append.1 ht).imp_right .inr
    -- another type equal to `b` would be equal to `a`
    have hothers : ∀ a' ∈ as, ∃ b' ∈ front ++ back, a'.same b' = true := by
      intro a' ha'
      obtain ⟨b', hb', hab'⟩ := hwithin a' ha'
      rw [List.mem_append, List.mem_cons] at hb'
      rcases hb' with hb' | rfl | hb'
      · exact ⟨b', List.mem_append_left _ hb', hab'⟩
      · have hback := (h.2 a' ha').symm b' (hbs b' hb) hab'
        cases (hnew a' ha').symm.trans (h.1.trans b' a' (hbs b' hb) hab hback)
      · exact ⟨b', List.mem_append_right _ hb', hab'⟩
    have hlength : as.length = (front ++ back).length := by
      simp only [List.length_cons, List.length_append] at hlength ⊢
      omega
    have hfound := ih h.2 hproper.2 (fun t ht => hbs t (hrest t ht)) hpairs hlength hothers
    intro t ht
    rw [List.mem_append, List.mem_cons] at ht
    rcases ht with ht | rfl | ht
    · exact (hfound t (List.mem_append_left _ ht)).imp fun _ => .imp_left (List.mem_cons_of_mem _)
    · exact ⟨a, List.mem_cons_self, h.1.symm t (hbs t hb) hab⟩
    · exact (hfound t (List.mem_append_right _ ht)).imp fun _ => .imp_left (List.mem_cons_of_mem _)

theorem union {style : UnionStyle} (h : ∀ a ∈ as, a.Exchanges)
    (hproper : (TypeExpr.union style as).IsProper) : (TypeExpr.union style as).Exchanges where
  symm b hb hab := by
    cases b with
    | union style' bs =>
      simp only [same, Bool.and_eq_true, beq_iff_eq, within_iff] at hab ⊢
      exact ⟨hab.1.symm, within_symm h (allProper_iff.1 hproper.1) (allProper_iff.1 hb.1) hproper.2
        hab.1 hab.2⟩
    | _ => cases hab
  trans b c hb hab hbc := by
    cases b with
    | union style' bs =>
      cases c with
      | union style'' cs =>
        simp only [same, Bool.and_eq_true, beq_iff_eq, within_iff] at hab hbc ⊢
        refine ⟨hab.1.trans hbc.1, fun a ha => ?_⟩
        obtain ⟨b, hmem, hab⟩ := hab.2 a ha
        obtain ⟨c, hc, hbc⟩ := hbc.2 b hmem
        exact ⟨c, hc, (h a ha).trans b c (allProper_iff.1 hb.1 b hmem) hab hbc⟩
      | _ => cases hbc
    | _ => cases hab

theorem literal (values : List Constant) : (TypeExpr.literal values).Exchanges where
  symm b _ hab := by
    cases b with
    | literal others =>
      simp only [same, Bool.and_eq_true] at hab ⊢
      exact hab.symm
    | _ => cases hab
  trans b c _ hab hbc := by
    cases b with
    | literal others =>
      cases c with
      | literal more =>
        simp only [same, Bool.and_eq_true, List.all_eq_true, List.contains_iff_mem] at hab hbc ⊢
        exact ⟨fun x hx => hbc.1 x (hab.1 x hx), fun x hx => hab.2 x (hbc.2 x hx)⟩
      | _ => cases hbc
    | _ => cases hab

theorem schema (name : String) (members : List String) :
    (TypeExpr.schema name members).Exchanges where
  symm b _ hab := by
    cases b with
    | schema name' members' => exact beq_iff_eq.2 (beq_iff_eq.1 hab).symm
    | _ => cases hab
  trans b c _ hab hbc := by
    cases b with
    | schema name' members' =>
      cases c with
      | schema name'' members'' =>
        exact beq_iff_eq.2 ((beq_iff_eq.1 hab).trans (beq_iff_eq.1 hbc))
      | _ => cases hbc
    | _ => cases hab

/-- A type without parts that is compared with others as a whole. -/
theorem of_eq (h : ∀ b, b.IsProper → a.same b = true → a = b) : a.Exchanges where
  symm b hb hab := by
    rw [← h b hb hab]
    exact same_refl a
  trans b c hb hab hbc := by rwa [← h b hb hab] at hbc

end Exchanges

mutual

theorem exchanges : ∀ {a : TypeExpr}, a.IsProper → a.Exchanges
  | .union _ members, h => .union (exchanges_of_mem members h.1) h
  | .list item, h => (exchanges (a := item) h).list
  | .plain _ params, h => .plain (exchanges_of_mem params h)
  | .dict _ _, h => (exchanges h.1).dict (exchanges h.2)
  | .tuple items, h => .tuple (exchanges_of_mem items h)
  | .classVar t, h => (exchanges (a := t) h).classVar
  | .literal values, _ => .literal values
  | .text name, h => .of_eq fun b _ hab => by
    cases b with
    | text => simpa [same] using hab
    | column t => cases (h t).symm.trans hab
    | _ => cases hab
  | .column t, _ => .of_eq fun b hb hab => by
    cases b with
    | column t' => exact congrArg column (ColumnType.eq_of_same hab)
    | text name => cases (hb t).symm.trans hab
    | _ => cases hab
  | .schema name members, _ => .schema name members
  | .any, _ | .null, _ | .nullType, _ | .builtin _, _ | .record _, _ | .forward .., _
  | .thing .., _ => .of_eq fun b _ hab => by
    cases b <;> simp_all [same]

theorem exchanges_of_mem : ∀ as : List TypeExpr, AllProper as → ∀ a ∈ as, a.Exchanges
  | _ :: as, h, _, hb =>
    (List.mem_cons.1 hb).elim (fun heq => heq ▸ exchanges h.1) (exchanges_of_mem as h.2 _)

end

/-- **Equality of types is symmetric.** -/
theorem same_symm (ha : a.IsProper) (hb : b.IsProper) (h : a.same b = true) : b.same a = true :=
  (exchanges ha).symm b hb h

/-- **Equality of types is transitive.** -/
theorem same_trans (ha : a.IsProper) (hb : b.IsProper) (h : a.same b = true)
    (h' : b.same c = true) : a.same c = true :=
  (exchanges ha).trans b c hb h h'

/-- Equal types are equal to the same types. -/
theorem same_congr (ha : a.IsProper) (hb : b.IsProper) (h : a.same b = true) (c : TypeExpr) :
    a.same c = b.same c :=
  Bool.eq_iff_iff.2 ⟨same_trans hb ha (same_symm ha hb h), same_trans ha hb h⟩

end TypeExpr

/-! ### Outcomes up to the types in a report -/

/-- The outcomes are one and the same, or reports that one value failed to be converted, between
types that are related. -/
inductive Respelled {α : Type} (sources targets : TypeExpr → TypeExpr → Prop) :
    Except Error α → Except Error α → Prop
  | same (x : Except Error α) : Respelled sources targets x x
  | failure {s s' t t' : TypeExpr} (hs : sources s s') (ht : targets t t') (field : String)
    (v : Value) (shown : String) : Respelled sources targets
      (.error (.coercionFailure field s t v shown)) (.error (.coercionFailure field s' t' v shown))

namespace Respelled

variable {α β γ : Type} {sources targets : TypeExpr → TypeExpr → Prop} {x y : Except Error α}

theorem eq (h : Respelled (· = ·) (· = ·) x y) : x = y := by
  cases h with
  | same => rfl
  | failure hs ht => rw [hs, ht]

theorem eq_ok_iff (h : Respelled sources targets x y) {a : α} : x = .ok a ↔ y = .ok a := by
  cases h with
  | same => rfl
  | failure => exact iff_of_false nofun nofun

theorem bind {f g : α → Except Error β} (h : Respelled sources targets x y)
    (hnext : ∀ a, Respelled sources targets (f a) (g a)) :
    Respelled sources targets (x >>= f) (y >>= g) := by
  cases h with
  | same x =>
    cases x with
    | ok a => exact hnext a
    | error e => exact .same _
  | failure hs ht field v shown => exact .failure hs ht field v shown

theorem mapM {f g : γ → Except Error β} (h : ∀ c, Respelled sources targets (f c) (g c))
    (cs : List γ) : Respelled sources targets (cs.mapM f) (cs.mapM g) := by
  induction cs with
  | nil => exact .same _
  | cons c cs ih =>
    rw [List.mapM_cons, List.mapM_cons]
    exact (h c).bind fun b => ih.bind fun bs => .same _

end Respelled

/-- Coercions that convert a value alike give the same, or report the types that each has. -/
theorem Coercion.apply_respelled {catalog : Catalog} {c c' : Coercion} {v : Value}
    {sources targets : TypeExpr → TypeExpr → Prop} (hs : sources c.source c'.source)
    (ht : targets c.target c'.target)
    (hconvert : convert catalog c.target.unwrapOptional v =
      convert catalog c'.target.unwrapOptional v) (field : String) :
    Respelled sources targets (c.apply catalog field v) (c'.apply catalog field v) := by
  unfold apply
  rw [hconvert]
  split
  · exact .same _
  · split
    · exact .same _
    · split
      · exact (Respelled.same _).bind fun shown => .failure hs ht field v shown
      · exact .same _

end RecordQuery
