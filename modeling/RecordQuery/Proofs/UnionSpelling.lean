import RecordQuery.Proofs.TypeEquality
import RecordQuery.Proofs.TypedCoercion

/-!
# Unions in another order

A union passes a value on if one of its members takes it (`Coercion.Takes`). The members are tried
in order, and one of which no instance can be told ends the search (`Coercion.Untold`), so the value
passes exactly if a member that takes it stands before all of these (`Coercion.Reaches`). In any
other order the union gives the same, or reports the same failure, unless it has members of both
kinds (`Coercion.apply_union_perm`).
-/

namespace RecordQuery
namespace Coercion

variable {catalog : Catalog} {v : Value} {t : TypeExpr} {ts members members' : List TypeExpr}

/-! ### The members of a union -/

/-- Of no value it can be told whether it is an instance of the type. -/
def Untold (catalog : Catalog) (t : TypeExpr) : Prop :=
  t = .any ∨ ∃ name, t = .record name ∧ (catalog.lineage name).any (·.kind == .mapping) = true

/-- The value is an instance of the class of the type. -/
def Takes (catalog : Catalog) (v : Value) (t : TypeExpr) : Prop :=
  ∃ cls, originClass? t = some cls ∧ isInstance catalog cls v = .ok true

/-- A member that takes the value stands before all of which no instance can be told. -/
def Reaches (catalog : Catalog) (v : Value) (members : List TypeExpr) : Prop :=
  ∃ front t back, members = front ++ t :: back ∧ (∀ u ∈ front, ¬ Untold catalog u) ∧
    Takes catalog v t

/-- What trying one member of a union tells of the value. -/
def test (catalog : Catalog) (v : Value) (t : TypeExpr) : Except Error Bool :=
  match originClass? t with
  | some cls => isInstance catalog cls v
  | none => .ok false

theorem isMember_cons : isMember catalog v (t :: ts) =
    test catalog v t >>= fun p => if p then .ok true else isMember catalog v ts := by
  rw [isMember, test]
  cases originClass? t <;> rfl

theorem test_eq_ok_true_iff : test catalog v t = .ok true ↔ Takes catalog v t := by
  unfold test Takes
  cases originClass? t <;> simp

theorem test_of_untold (h : Untold catalog t) : test catalog v t = fail .wrongType := by
  rcases h with rfl | ⟨name, rfl, hmapping⟩
  · rfl
  · simp only [test, originClass?, isInstance, hmapping, if_true]

theorem test_of_not_untold (h : ¬ Untold catalog t) : ∃ p, test catalog v t = .ok p := by
  cases t with
  | any => exact absurd (.inl rfl) h
  | record name =>
    have hmapping : ¬ (catalog.lineage name).any (·.kind == .mapping) = true :=
      fun hmapping => h (.inr ⟨name, rfl, hmapping⟩)
    simp only [test, originClass?, isInstance, if_neg hmapping]
    split <;> exact ⟨_, rfl⟩
  | _ => exact ⟨_, rfl⟩

theorem not_takes_of_untold (h : Untold catalog t) : ¬ Takes catalog v t := fun htakes => by
  cases (test_of_untold h).symm.trans (test_eq_ok_true_iff.2 htakes)

/-! ### Reaching a member -/

theorem reaches_cons_iff : Reaches catalog v (t :: ts) ↔
    Takes catalog v t ∨ (¬ Untold catalog t ∧ Reaches catalog v ts) := by
  constructor
  · rintro ⟨front, u, back, hmembers, hfront, htakes⟩
    cases front with
    | nil =>
      cases hmembers
      exact .inl htakes
    | cons w front =>
      cases hmembers
      rw [List.forall_mem_cons] at hfront
      exact .inr ⟨hfront.1, front, u, back, rfl, hfront.2, htakes⟩
  · rintro (htakes | ⟨hfirst, front, u, back, rfl, hfront, htakes⟩)
    · exact ⟨[], t, ts, rfl, nofun, htakes⟩
    · exact ⟨t :: front, u, back, rfl, List.forall_mem_cons.2 ⟨hfirst, hfront⟩, htakes⟩

/-- **The search for a member** finds one exactly if it is not ended before. -/
theorem isMember_eq_ok_true_iff :
    isMember catalog v members = .ok true ↔ Reaches catalog v members := by
  induction members with
  | nil => simp [isMember, Reaches]
  | cons t ts ih =>
    rw [isMember_cons, reaches_cons_iff, ← ih]
    by_cases huntold : Untold catalog t
    · simp [test_of_untold huntold, huntold, not_takes_of_untold huntold, fail]
    · obtain ⟨p, hp⟩ := test_of_not_untold (v := v) huntold
      rw [← test_eq_ok_true_iff, hp]
      cases p <;> simp [huntold]

/-- A search that finds nothing fails like a value that is not found. -/
theorem isMember_bind_of_not_reaches (h : ¬ Reaches catalog v members) :
    (isMember catalog v members >>= fun p => if p then .ok v else fail .wrongType) =
      (fail .wrongType : Except Error Value) := by
  induction members with
  | nil => rfl
  | cons t ts ih =>
    rw [isMember_cons]
    rw [reaches_cons_iff] at h
    by_cases huntold : Untold catalog t
    · rw [test_of_untold huntold]
      rfl
    · obtain ⟨p, hp⟩ := test_of_not_untold (v := v) huntold
      cases p with
      | true => exact absurd (.inl (test_eq_ok_true_iff.1 hp)) h
      | false =>
        rw [hp]
        exact ih fun hreaches => h (.inr ⟨huntold, hreaches⟩)

theorem convert_union_of_reaches (style : UnionStyle) (h : Reaches catalog v members) :
    convert catalog (.union style members) v = .ok v :=
  convert_of_accepts (.union (isMember_eq_ok_true_iff.2 h))

theorem convert_union_of_not_reaches (style : UnionStyle) (h : ¬ Reaches catalog v members) :
    convert catalog (.union style members) v = fail .wrongType :=
  isMember_bind_of_not_reaches h

theorem reaches_iff_exists (h : ∀ t ∈ members, ¬ Untold catalog t) :
    Reaches catalog v members ↔ ∃ t ∈ members, Takes catalog v t := by
  induction members with
  | nil => simp [Reaches]
  | cons t ts ih =>
    rw [List.forall_mem_cons] at h
    simp [reaches_cons_iff, ih h.2, h.1]

theorem not_reaches (h : ∀ t ∈ members, ¬ Takes catalog v t) : ¬ Reaches catalog v members := by
  rintro ⟨front, t, back, rfl, -, htakes⟩
  exact h t (by simp) htakes

/-- Reordering the members does not matter to a union that lacks members of one of the two kinds. -/
theorem reaches_perm (hperm : members'.Perm members)
    (h : (∀ t ∈ members, ¬ Untold catalog t) ∨ ∀ t ∈ members, ¬ Takes catalog v t) :
    Reaches catalog v members' ↔ Reaches catalog v members := by
  rcases h with h | h
  · rw [reaches_iff_exists h, reaches_iff_exists fun t ht => h t (hperm.mem_iff.1 ht)]
    simp [hperm.mem_iff]
  · exact iff_of_false (not_reaches fun t ht => h t (hperm.mem_iff.1 ht)) (not_reaches h)

/-! ### Coercions to a union -/

variable {style style' : UnionStyle} {source : TypeExpr} {field : String} {u : TypeExpr}

/-- A union stands for its one member that is not null, if there is one, and else for itself. -/
theorem unwrapOptional_cases (style : UnionStyle) (members : List TypeExpr) :
    (∃ x, members.filter (fun m => !m.same .nullType) = [x] ∧
      (TypeExpr.union style members).unwrapOptional = x) ∨
    ((∀ x, members.filter (fun m => !m.same .nullType) ≠ [x]) ∧
      (TypeExpr.union style members).unwrapOptional = .union style members) := by
  rw [TypeExpr.unwrapOptional]
  split
  · exact .inl ⟨_, ‹_›, rfl⟩
  · exact .inr ⟨‹_›, rfl⟩

theorem mem_filter_not_null (hu : u ∈ members) (hnull : u ≠ .nullType) :
    u ∈ members.filter fun m => !m.same .nullType := by
  have hnot : u.same .nullType = false :=
    Bool.eq_false_iff.2 fun h => hnull (TypeExpr.same_nullType.1 h)
  exact List.mem_filter.2 ⟨hu, by rw [hnot]; rfl⟩

theorem ne_nullType_of_takes (hv : v.isNull = false) (h : Takes catalog v t) : t ≠ .nullType := by
  rintro rfl
  obtain ⟨cls, hcls, h⟩ := h
  cases hcls
  simp [isInstance, hv] at h

theorem ne_nullType_of_untold (h : Untold catalog t) : t ≠ .nullType := by
  rintro rfl
  rcases h with h | ⟨name, h, -⟩ <;> cases h

/-- A member of either kind leaves a union what it is. -/
theorem unwrapOptional_of_both (hv : v.isNull = false) (hu : u ∈ members)
    (huntold : Untold catalog u) (ht : t ∈ members) (htakes : Takes catalog v t) :
    (TypeExpr.union style members).unwrapOptional = .union style members := by
  rcases unwrapOptional_cases style members with ⟨x, hx, -⟩ | ⟨-, h⟩
  · have hux := mem_filter_not_null hu (ne_nullType_of_untold huntold)
    have htx := mem_filter_not_null ht (ne_nullType_of_takes hv htakes)
    rw [hx, List.mem_singleton] at hux htx
    rw [htx, ← hux] at htakes
    exact absurd htakes (not_takes_of_untold huntold)
  · exact h

theorem convert_unwrapOptional_of_reaches (hv : v.isNull = false)
    (h : Reaches catalog v members) :
    convert catalog (TypeExpr.union style members).unwrapOptional v = .ok v := by
  rcases unwrapOptional_cases style members with ⟨x, hx, hunwrap⟩ | ⟨-, hunwrap⟩
  · obtain ⟨front, t, back, rfl, -, htakes⟩ := h
    have ht : t ∈ front ++ t :: back := List.mem_append_right front List.mem_cons_self
    have htx := mem_filter_not_null ht (ne_nullType_of_takes hv htakes)
    rw [hx, List.mem_singleton] at htx
    obtain ⟨cls, hcls, hinstance⟩ := htakes
    rw [hunwrap, ← htx]
    exact convert_of_accepts (.origin hcls hinstance)
  · rw [hunwrap]
    exact convert_union_of_reaches style h

/-- A union whose members lack one of the two kinds converts a value in the same way in any
order. -/
theorem convert_unwrapOptional_perm (hperm : members'.Perm members)
    (h : (∀ t ∈ members, ¬ Untold catalog t) ∨ ∀ t ∈ members, ¬ Takes catalog v t) :
    convert catalog (TypeExpr.union style' members').unwrapOptional v =
      convert catalog (TypeExpr.union style members).unwrapOptional v := by
  have hfilter := hperm.filter fun m => !m.same .nullType
  rcases unwrapOptional_cases style members with ⟨x, hx, hunwrap⟩ | ⟨hnone, hunwrap⟩ <;>
    rcases unwrapOptional_cases style' members' with ⟨x', hx', hunwrap'⟩ | ⟨hnone', hunwrap'⟩
  · rw [hx, hx', List.singleton_perm_singleton] at hfilter
    rw [hunwrap, hunwrap', hfilter]
  · rw [hx] at hfilter
    exact absurd (List.perm_singleton.1 hfilter) (hnone' x)
  · rw [hx'] at hfilter
    exact absurd (List.perm_singleton.1 hfilter.symm) (hnone x')
  · rw [hunwrap, hunwrap']
    by_cases hreaches : Reaches catalog v members
    · rw [convert_union_of_reaches style hreaches,
        convert_union_of_reaches style' ((reaches_perm hperm h).2 hreaches)]
    · rw [convert_union_of_not_reaches style hreaches,
        convert_union_of_not_reaches style' (mt (reaches_perm hperm h).1 hreaches)]

/-- A value that no member is reached for is reported, although a member would take it. -/
theorem apply_union_of_not_reaches (hv : v.isNull = false) (ht : t ∈ members)
    (htakes : Takes catalog v t) (h : ¬ Reaches catalog v members) :
    Coercion.apply catalog ⟨source, .union style members⟩ field v =
      v.text catalog >>= fun shown =>
        .error (.coercionFailure field source (.union style members) v shown) := by
  have huntold : ∃ u ∈ members, Untold catalog u := by
    by_contra hnone
    push Not at hnone
    exact h ((reaches_iff_exists hnone).2 ⟨t, ht, htakes⟩)
  obtain ⟨u, hu, huntold⟩ := huntold
  have hconvert : convert catalog (TypeExpr.union style members).unwrapOptional v =
      fail .wrongType := by
    rw [unwrapOptional_of_both hv hu huntold ht htakes]
    exact convert_union_of_not_reaches style h
  exact apply_of_misfit hv hconvert rfl

theorem apply_of_isNull {c : Coercion} (hv : v.isNull = true) :
    c.apply catalog field v = .ok v := by
  cases v with
  | null => rfl
  | _ => cases hv

theorem apply_of_reaches (h : v.isNull = true ∨ Reaches catalog v members) :
    Coercion.apply catalog ⟨source, .union style members⟩ field v = .ok v := by
  cases hv : v.isNull with
  | true => exact apply_of_isNull hv
  | false =>
    rw [hv] at h
    exact apply_of_convert hv (convert_unwrapOptional_of_reaches hv (h.resolve_left nofun))

/-- With members of both kinds a value passes one order and not another. -/
theorem exists_perm_of_both (hu : u ∈ members) (huntold : Untold catalog u) (ht : t ∈ members)
    (htakes : Takes catalog v t) :
    (∃ members', members'.Perm members ∧ Reaches catalog v members') ∧
      ∃ members', members'.Perm members ∧ ¬ Reaches catalog v members' := by
  constructor
  · obtain ⟨front, back, rfl⟩ := List.append_of_mem ht
    exact ⟨t :: (front ++ back), List.perm_middle.symm, reaches_cons_iff.2 (.inl htakes)⟩
  · obtain ⟨front, back, rfl⟩ := List.append_of_mem hu
    refine ⟨u :: (front ++ back), List.perm_middle.symm, fun h => ?_⟩
    rcases reaches_cons_iff.1 h with h | ⟨h, -⟩
    · exact not_takes_of_untold huntold h
    · exact h huntold

/-- **Coercions to a union.** In another order of its members, and in the other spelling, the union
gives the same value or reports the same failure, with its own type in the report. This holds of all
orders exactly if the value is null, or no member is such that no instance of it can be told, or no
member takes the value. A value that a member takes is given back if such a member stands before
those of which no instance can be told, and is reported otherwise. -/
theorem apply_union_perm (catalog : Catalog) (source : TypeExpr) (style : UnionStyle)
    (members : List TypeExpr) (field : String) (v : Value) :
    ((∀ style' members', members'.Perm members →
      Respelled (· = ·) (fun a b => a.same b = true)
        (Coercion.apply catalog ⟨source, .union style' members'⟩ field v)
        (Coercion.apply catalog ⟨source, .union style members⟩ field v)) ↔
      v.isNull = true ∨ (∀ t ∈ members, ¬ Untold catalog t) ∨
        ∀ t ∈ members, ¬ Takes catalog v t) ∧
    (v.isNull = true ∨ Reaches catalog v members →
      Coercion.apply catalog ⟨source, .union style members⟩ field v = .ok v) ∧
    (v.isNull = false → (∃ t ∈ members, Takes catalog v t) → ¬ Reaches catalog v members →
      Coercion.apply catalog ⟨source, .union style members⟩ field v =
        v.text catalog >>= fun shown =>
          .error (.coercionFailure field source (.union style members) v shown)) := by
  refine ⟨⟨fun hall => ?_, fun h style' members' hperm => ?_⟩, apply_of_reaches,
    fun hv ⟨t, ht, htakes⟩ h => apply_union_of_not_reaches hv ht htakes h⟩
  · by_contra hnot
    push Not at hnot
    obtain ⟨hnull, ⟨u, hu, huntold⟩, t, ht, htakes⟩ := hnot
    have hv : v.isNull = false := Bool.eq_false_iff.2 hnull
    obtain ⟨⟨first, hfirst, hreaches⟩, last, hlast, hmissed⟩ :=
      exists_perm_of_both hu huntold ht htakes
    -- the value passes the one order, so the union as it is, and so the other order
    have hpass := (hall style first hfirst).eq_ok_iff.1 (apply_of_reaches (.inr hreaches))
    have hpass := (hall style last hlast).eq_ok_iff.2 hpass
    rw [apply_union_of_not_reaches hv (hlast.mem_iff.2 ht) htakes hmissed] at hpass
    obtain ⟨shown, -, hpass⟩ := Except.bind_eq_ok.1 hpass
    cases hpass
  · cases hv : v.isNull with
    | true =>
      rw [apply_of_isNull hv, apply_of_isNull hv]
      exact .same _
    | false =>
      rw [hv] at h
      exact @apply_respelled catalog ⟨source, .union style' members'⟩
        ⟨source, .union style members⟩ v _ _ rfl (TypeExpr.same_union_of_perm hperm)
        (convert_unwrapOptional_perm hperm (h.resolve_left nofun)) field

/-- Points are mappings. -/
private def gridCatalog : Catalog where
  classes := [
    { name := "Point", kind := .mapping, fields := [{ name := "x", type := .builtin .int }] }]

/-- Neither a text nor a point takes a number, so it is reported in any order; a text passes if it
is looked for first. -/
theorem apply_text_or_point :
    (∀ style' members', members'.Perm [.builtin .str, .record "Point"] →
      Respelled (· = ·) (fun a b => a.same b = true)
        (Coercion.apply gridCatalog ⟨.any, .union style' members'⟩ "spot" (.int 5))
        (Coercion.apply gridCatalog ⟨.any, .union .named [.builtin .str, .record "Point"]⟩ "spot"
          (.int 5))) ∧
    Coercion.apply gridCatalog ⟨.any, .union .named [.builtin .str, .record "Point"]⟩ "spot"
      (.str "a") = .ok (.str "a") := by
  refine ⟨(apply_union_perm gridCatalog .any .named _ "spot" (.int 5)).1.2 (.inr (.inr ?_)),
    (apply_union_perm gridCatalog .any .named _ "spot" (.str "a")).2.1 (.inr ?_)⟩
  · simp only [List.forall_mem_cons]
    refine ⟨?_, ?_, nofun⟩
    · rintro ⟨cls, hcls, h⟩
      cases hcls
      cases h
    · rintro ⟨cls, hcls, h⟩
      cases hcls
      cases h
  · exact ⟨[], .builtin .str, [.record "Point"], rfl, nofun, .builtin .str, rfl, rfl⟩

/-- A text passes a union of texts and points, and is reported by the equal union that looks for a
point first. -/
theorem apply_point_or_text :
    [TypeExpr.record "Point", .builtin .str].Perm [.builtin .str, .record "Point"] ∧
      Coercion.apply gridCatalog ⟨.any, .union .named [.builtin .str, .record "Point"]⟩ "spot"
        (.str "a") = .ok (.str "a") ∧
      Coercion.apply gridCatalog ⟨.any, .union .named [.record "Point", .builtin .str]⟩ "spot"
        (.str "a") =
          .error (.coercionFailure "spot" .any (.union .named [.record "Point", .builtin .str])
            (.str "a") "'a'") :=
  ⟨.swap _ _ _, rfl, rfl⟩

end Coercion
end RecordQuery
