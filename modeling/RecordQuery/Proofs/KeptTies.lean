import Mathlib.Data.List.Basic
import Mathlib.Order.Lattice
import RecordQuery.Proofs.StableOrder

/-!
# Lists that keep ties

Rearranging a list keeps the ties of a ranking if the items of each rank are still the same ones in
the same order (`KeepsTies`). Items of different ranks may change places, so the relation also holds
of lists that are only sorted in part, and it can be carried from step to step. A list that keeps
the ties and ascends is in stable order (`Sorts.stablyOrdered`).
-/

namespace RecordQuery

variable {α β : Type} [LinearOrder β] {rank : α → β}

/-- The items of each rank are the same ones in the same order. -/
def KeepsTies (rank : α → β) (items out : List α) : Prop :=
  ∀ r, out.filter (fun a => decide (rank a = r)) = items.filter fun a => decide (rank a = r)

/-- No item ranks lower than one in front of it. -/
def Ascends (rank : α → β) (items : List α) : Prop :=
  items.Pairwise fun a b => rank a ≤ rank b

theorem Ascends.head_le {items : List α} {first : α} (h : Ascends rank (first :: items)) :
    ∀ x ∈ first :: items, rank first ≤ rank x :=
  List.forall_mem_cons.2 ⟨le_rfl, (List.pairwise_cons.1 h).1⟩

theorem Ascends.le_getLast {items : List α} {last : α} (h : Ascends rank items)
    (hlast : items.getLast? = some last) : ∀ a ∈ items, rank a ≤ rank last := by
  obtain ⟨front, rfl⟩ := List.getLast?_eq_some_iff.1 hlast
  intro a ha
  rcases List.mem_append.1 ha with ha | ha
  · exact (List.pairwise_append.1 h).2.2 a ha last (List.mem_singleton_self last)
  · exact (congrArg rank (List.mem_singleton.1 ha)).le

/-- The items in ascending order, with the ties kept. -/
structure Sorts (rank : α → β) (items out : List α) : Prop where
  ascends : Ascends rank out
  ties : KeepsTies rank items out

namespace KeepsTies

variable {items mid out xs ys xs' ys' : List α} {a : α}

theorem refl (items : List α) : KeepsTies rank items items :=
  fun _ => rfl

theorem trans (h : KeepsTies rank items mid) (h' : KeepsTies rank mid out) :
    KeepsTies rank items out :=
  fun r => (h' r).trans (h r)

theorem append (h : KeepsTies rank xs xs') (h' : KeepsTies rank ys ys') :
    KeepsTies rank (xs ++ ys) (xs' ++ ys') := by
  intro r
  rw [List.filter_append, List.filter_append, h r, h' r]

theorem append_left (xs : List α) (h : KeepsTies rank ys ys') :
    KeepsTies rank (xs ++ ys) (xs ++ ys') :=
  (refl xs).append h

theorem append_right (ys : List α) (h : KeepsTies rank xs xs') :
    KeepsTies rank (xs ++ ys) (xs' ++ ys) :=
  h.append (refl ys)

/-- Items of different ranks change places. -/
theorem swap (h : ∀ a ∈ xs, ∀ b ∈ ys, rank a ≠ rank b) :
    KeepsTies rank (xs ++ ys) (ys ++ xs) := by
  intro r
  rw [List.filter_append, List.filter_append]
  by_cases hxs : xs.filter (fun a => decide (rank a = r)) = []
  · rw [hxs, List.append_nil, List.nil_append]
  · obtain ⟨a, ha⟩ := List.exists_mem_of_ne_nil _ hxs
    rw [List.mem_filter, decide_eq_true_eq] at ha
    have hys : ys.filter (fun b => decide (rank b = r)) = [] := by
      refine List.filter_eq_nil_iff.2 fun b hb => ?_
      rw [decide_eq_true_eq, ← ha.2]
      exact (h a ha.1 b hb).symm
    rw [hys, List.append_nil, List.nil_append]

theorem mem_iff (h : KeepsTies rank items out) : a ∈ out ↔ a ∈ items := by
  have hmem (xs : List α) : a ∈ xs ↔ a ∈ xs.filter fun b => decide (rank b = rank a) := by simp
  rw [hmem out, h, ← hmem]

/-- The ties are the same for the ranks the other way round. -/
theorem reverse (h : KeepsTies (OrderDual.toDual ∘ rank) items out) :
    KeepsTies rank items.reverse out.reverse := by
  intro r
  rw [List.filter_reverse, List.filter_reverse]
  exact congrArg List.reverse (h (OrderDual.toDual r))

/-- Items each of which ranks lower than all earlier ones can be turned round. -/
theorem reverse_of_descending (h : items.Pairwise fun a b => rank b < rank a) :
    KeepsTies rank items items.reverse := by
  induction items with
  | nil => exact refl []
  | cons a items ih =>
    rw [List.pairwise_cons] at h
    have hswap : KeepsTies rank ([a] ++ items) (items ++ [a]) := by
      refine swap ?_
      simp only [List.forall_mem_singleton]
      exact fun b hb => (h.1 b hb).ne'
    rw [List.reverse_cons]
    exact hswap.trans ((ih h.2).append_right [a])

/-- Two ascending lists that keep the ties of one list are the same. -/
theorem eq_of_ascends (h : KeepsTies rank xs ys) (hxs : Ascends rank xs) (hys : Ascends rank ys) :
    xs = ys := by
  induction xs generalizing ys with
  | nil =>
    cases ys with
    | nil => rfl
    | cons y ys => exact absurd (h.mem_iff.1 List.mem_cons_self) List.not_mem_nil
  | cons x xs ih =>
    cases ys with
    | nil => exact absurd (h.mem_iff.2 List.mem_cons_self) List.not_mem_nil
    | cons y ys =>
      rw [Ascends, List.pairwise_cons] at hxs hys
      -- both lists start with the first one of the items of the least rank
      have hxy : rank x ≤ rank y := by
        rcases List.mem_cons.1 (h.mem_iff.1 List.mem_cons_self) with rfl | hy
        · exact le_rfl
        · exact hxs.1 y hy
      have hyx : rank y ≤ rank x := by
        rcases List.mem_cons.1 (h.mem_iff.2 List.mem_cons_self) with rfl | hx
        · exact le_rfl
        · exact hys.1 x hx
      have hrank := le_antisymm hyx hxy
      have hhead := h (rank x)
      rw [List.filter_cons_of_pos (by simpa using hrank),
        List.filter_cons_of_pos (by simp)] at hhead
      obtain ⟨rfl, -⟩ := List.cons.inj hhead
      have htail : KeepsTies rank xs ys := by
        intro r
        have h := h r
        by_cases hr : rank y = r
        · simpa [hr] using h
        · simpa [hr] using h
      rw [ih htail hxs.2 hys.2]

end KeepsTies

theorem StablyOrdered.keepsTies {items out : List α}
    (h : StablyOrdered (fun a b => rank a < rank b) items out) : KeepsTies rank items out := by
  intro r
  refine (h.filter fun a => decide (rank a = r)).unique (fun _ _ => lt_asymm) (.of_pairwise ?_)
  refine List.pairwise_filter.2 (List.pairwise_of_forall fun a b ha hb => ?_)
  rw [of_decide_eq_true ha, of_decide_eq_true hb]
  exact lt_irrefl r

namespace Sorts

variable {items items' out : List α}

theorem of_ascends (h : Ascends rank items) : Sorts rank items items :=
  ⟨h, .refl items⟩

theorem mem_iff (h : Sorts rank items out) {a : α} : a ∈ out ↔ a ∈ items :=
  h.ties.mem_iff

/-- Lists of which one stands below the other are sorted apart. -/
theorem append {more more' : List α} (h : Sorts rank items out) (h' : Sorts rank more more')
    (hle : ∀ a ∈ items, ∀ b ∈ more, rank a ≤ rank b) :
    Sorts rank (items ++ more) (out ++ more') := by
  refine ⟨List.pairwise_append.2 ⟨h.ascends, h'.ascends, fun a ha b hb => ?_⟩,
    h.ties.append h'.ties⟩
  exact hle a (h.mem_iff.1 ha) b (h'.mem_iff.1 hb)

/-- Sorting the items from the last to the first against the ranks. -/
theorem reverse (h : Sorts (OrderDual.toDual ∘ rank) items out) :
    Sorts rank items.reverse out.reverse :=
  ⟨List.pairwise_reverse.2 h.ascends, h.ties.reverse⟩

/-- An ascending list that keeps the ties is in stable order. -/
theorem stablyOrdered (h : Sorts rank items out) :
    StablyOrdered (fun a b => rank a < rank b) items out := by
  have hmerged : StablyOrdered (fun a b => rank a < rank b) items
      (items.mergeSort fun a b => decide (rank a ≤ rank b)) :=
    .of_mergeSort _ (fun _ _ => lt_asymm)
      (fun a b c hac => (lt_or_ge (rank a) (rank b)).imp_right fun hba => lt_of_le_of_lt hba hac)
      fun a b => by rw [decide_eq_true_eq, not_lt]
  have hascends : Ascends rank (items.mergeSort fun a b => decide (rank a ≤ rank b)) :=
    (hmerged.pairwise fun _ _ => lt_asymm).imp not_lt.1
  have hties : KeepsTies rank (items.mergeSort fun a b => decide (rank a ≤ rank b)) out :=
    fun r => (h.ties r).trans (hmerged.keepsTies r).symm
  rwa [hties.eq_of_ascends hascends h.ascends] at hmerged

end Sorts
end RecordQuery
