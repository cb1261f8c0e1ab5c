import Mathlib.Data.List.Perm.Basic

/-!
# Stable orders

`StablyOrdered lt items out` says that `out` holds the items of `items` in the order `lt`, and that
items of which neither comes before the other keep their order. The items are told apart by their
positions in `items`, so the statement is exact for items that occur several times. An asymmetric
order leaves no choice (`StablyOrdered.unique`), and ordering stably by one order and then by
another is ordering by the second one first and by the first one among its ties
(`StablyOrdered.then`). `Lexicographic` combines any number of orders in that way.
-/

namespace RecordQuery

variable {α β : Type}

/-- Of two items with their positions, the first comes before the second in the order, or is a tie
with it and stood in front of it. -/
def ComesFirst (lt : α → α → Prop) (a b : α × Nat) : Prop :=
  lt a.1 b.1 ∨ ¬ lt b.1 a.1 ∧ a.2 < b.2

/-- `out` is `items` in the order `lt`, with ties in the order in which they stood. -/
def StablyOrdered (lt : α → α → Prop) (items out : List α) : Prop :=
  ∃ placed : List (α × Nat), placed.Perm items.zipIdx ∧ placed.map Prod.fst = out ∧
    placed.Pairwise (ComesFirst lt)

/-- One order, and another one among its ties. -/
def ThenBy (first second : α → α → Prop) (a b : α) : Prop :=
  first a b ∨ ¬ first b a ∧ second a b

theorem ComesFirst.asymm {lt : α → α → Prop} (hlt : ∀ a b, lt a b → ¬ lt b a) {a b : α × Nat}
    (hab : ComesFirst lt a b) : ¬ ComesFirst lt b a := by
  rintro (hba | ⟨hab', hba⟩)
  · rcases hab with hab | ⟨hba', -⟩
    · exact hlt _ _ hab hba
    · exact hba' hba
  · rcases hab with hab | ⟨-, hab⟩
    · exact hab' hab
    · omega

theorem pairwise_zipIdx (items : List α) (n : Nat) :
    (items.zipIdx n).Pairwise fun a b => a.2 < b.2 := by
  induction items generalizing n with
  | nil => exact .nil
  | cons a items ih =>
    rw [List.zipIdx_cons, List.pairwise_cons]
    exact ⟨fun b hb => Nat.lt_of_succ_le (List.le_snd_of_mem_zipIdx hb), ih (n + 1)⟩

theorem zipIdx_reverse (items : List α) :
    items.reverse.zipIdx.map (fun a => (a.1, items.length - 1 - a.2)) = items.zipIdx.reverse := by
  refine List.ext_getElem (by simp) fun i h1 h2 => ?_
  simp

/-- What holds of the items of a list pairwise holds of two items, one behind the other. -/
theorem rel_of_mem_zipIdx {R : α → α → Prop} {items : List α} (h : items.Pairwise R)
    {a b : α × Nat} (ha : a ∈ items.zipIdx) (hb : b ∈ items.zipIdx) (hab : a.2 < b.2) :
    R a.1 b.1 := by
  obtain ⟨-, ha, ha'⟩ := List.mem_zipIdx ha
  obtain ⟨-, hb, hb'⟩ := List.mem_zipIdx hb
  rw [ha', hb']
  exact List.pairwise_iff_getElem.1 h _ _ _ _ (by simpa using hab)

/-- Items none of which comes before an earlier one are in order where they stand. -/
theorem pairwise_comesFirst_zipIdx {lt : α → α → Prop} {items : List α}
    (h : items.Pairwise fun a b => ¬ lt b a) : items.zipIdx.Pairwise (ComesFirst lt) := by
  rw [← List.zipIdx_map_fst 0 items, List.pairwise_map] at h
  exact h.imp₂ (fun a b htie hpos => .inr ⟨htie, hpos⟩) (pairwise_zipIdx items 0)

theorem getD_of_mem_zipIdx {items : List α} (default : α) {a : α × Nat}
    (ha : a ∈ items.zipIdx) : a.2 < items.length ∧ items.getD a.2 default = a.1 := by
  obtain ⟨-, hlt, heq⟩ := List.mem_zipIdx ha
  rw [Nat.zero_add] at hlt
  exact ⟨hlt, by simp [heq, hlt]⟩

/-- Positions of items that are in order come from items that are. -/
theorem exists_placed {lt : α → α → Prop} {items : List α} {positions : List Nat} (default : α)
    (hperm : positions.Perm (List.range items.length))
    (hordered : positions.Pairwise fun i j =>
      ComesFirst lt (items.getD i default, i) (items.getD j default, j)) :
    ∃ placed : List (α × Nat), placed.Perm items.zipIdx ∧ placed.Pairwise (ComesFirst lt) ∧
      placed.map Prod.snd = positions ∧
      placed.map Prod.fst = positions.map fun i => items.getD i default := by
  have hall : (List.range items.length).map (fun i => (items.getD i default, i)) = items.zipIdx :=
    List.ext_getElem (by simp) fun i hi hi' => by
      rw [List.length_zipIdx] at hi'
      simp [hi']
  refine ⟨positions.map fun i => (items.getD i default, i), hall ▸ hperm.map _, ?_, ?_, ?_⟩
  · exact List.pairwise_map.2 hordered
  · simp [Function.comp_def]
  · simp [Function.comp_def]

/-! ### Several orders -/

/-- The first of several orders that tells two items apart puts the first one before the second
one. -/
def Lexicographic {κ : Type} (before : κ → α → α → Prop) (keys : List κ) (a b : α) : Prop :=
  ∃ front key back, keys = front ++ key :: back ∧
    (∀ k ∈ front, ¬ before k a b ∧ ¬ before k b a) ∧ before key a b

namespace Lexicographic

variable {κ : Type} {before before' : κ → α → α → Prop} {key : κ} {keys more : List κ} {a b c : α}

theorem not_nil : ¬ Lexicographic before [] a b := by
  rintro ⟨front, key, back, h, -⟩
  simp at h

theorem cons_iff : Lexicographic before (key :: keys) a b ↔
    ThenBy (before key) (Lexicographic before keys) a b := by
  constructor
  · rintro ⟨_ | ⟨k, front⟩, key', back, h, hfront, hbefore⟩
    · cases h
      exact .inl hbefore
    · cases h
      rw [List.forall_mem_cons] at hfront
      exact .inr ⟨hfront.1.2, front, key', back, rfl, hfront.2, hbefore⟩
  · rintro (hbefore | ⟨hba, front, key', back, rfl, hfront, hbefore⟩)
    · exact ⟨[], key, keys, rfl, by simp, hbefore⟩
    · by_cases hab : before key a b
      · exact ⟨[], key, _, rfl, by simp, hab⟩
      · exact ⟨key :: front, key', back, rfl, List.forall_mem_cons.2 ⟨⟨hab, hba⟩, hfront⟩, hbefore⟩

/-- Further orders decide among the ties of the ones before. -/
theorem append_iff : Lexicographic before (keys ++ more) a b ↔
    ThenBy (Lexicographic before keys) (Lexicographic before more) a b := by
  induction keys with
  | nil => simp [ThenBy, not_nil]
  | cons key keys ih =>
    rw [List.cons_append, cons_iff, ThenBy, ThenBy, ih, cons_iff, cons_iff]
    unfold ThenBy
    tauto

/-- Two items of which neither comes before the other one are ties in all orders. -/
theorem ties_iff : (∀ k ∈ keys, ¬ before k a b ∧ ¬ before k b a) ↔
    ¬ Lexicographic before keys a b ∧ ¬ Lexicographic before keys b a := by
  induction keys with
  | nil => simp [not_nil]
  | cons key keys ih =>
    rw [List.forall_mem_cons, ih, cons_iff, cons_iff]
    unfold ThenBy
    tauto

theorem asymm (hbefore : ∀ k a b, before k a b → ¬ before k b a)
    (h : Lexicographic before keys a b) : ¬ Lexicographic before keys b a := by
  induction keys with
  | nil => exact absurd h not_nil
  | cons key keys ih =>
    rw [cons_iff] at h ⊢
    rintro (hba | ⟨hab, hba⟩)
    · exact h.elim (fun hab => hbefore key a b hab hba) fun h => h.1 hba
    · exact h.elim hab fun h => ih h.2 hba

/-- Of two items in order, a third one stands behind the first or before the second. -/
theorem or (hbefore : ∀ k a b c, before k a c → before k a b ∨ before k b c)
    (h : Lexicographic before keys a c) (b : α) :
    Lexicographic before keys a b ∨ Lexicographic before keys b c := by
  induction keys with
  | nil => exact absurd h not_nil
  | cons key keys ih =>
    rw [cons_iff, cons_iff]
    rcases cons_iff.1 h with hac | ⟨hca, hac⟩
    · exact (hbefore key a b c hac).imp .inl .inl
    · by_cases hab : before key a b
      · exact .inl (.inl hab)
      · by_cases hbc : before key b c
        · exact .inr (.inl hbc)
        · have hba : ¬ before key b a := fun hba => (hbefore key b c a hba).elim hbc hca
          have hcb : ¬ before key c b := fun hcb => (hbefore key c a b hcb).elim hca hab
          exact (ih hac).imp (fun h => .inr ⟨hba, h⟩) fun h => .inr ⟨hcb, h⟩

theorem congr (hab : ∀ k ∈ keys, before k a b ↔ before' k a b)
    (hba : ∀ k ∈ keys, before k b a ↔ before' k b a) :
    Lexicographic before keys a b ↔ Lexicographic before' keys a b := by
  induction keys with
  | nil => simp [not_nil]
  | cons key keys ih =>
    rw [List.forall_mem_cons] at hab hba
    rw [cons_iff, cons_iff, ThenBy, ThenBy, hab.1, hba.1, ih hab.2 hba.2]

end Lexicographic

/-! ### Lists in order -/

namespace StablyOrdered

variable {lt lt' : α → α → Prop} {items mid out : List α}

theorem perm (h : StablyOrdered lt items out) : out.Perm items := by
  obtain ⟨placed, hperm, rfl, -⟩ := h
  simpa using hperm.map Prod.fst

/-- Items none of which comes before an earlier one are in order. -/
theorem of_pairwise (h : items.Pairwise fun a b => ¬ lt b a) : StablyOrdered lt items items :=
  ⟨items.zipIdx, .rfl, by simp, pairwise_comesFirst_zipIdx h⟩

/-- No item comes before an earlier one of the outcome. -/
theorem pairwise (hlt : ∀ a b, lt a b → ¬ lt b a) (h : StablyOrdered lt items out) :
    out.Pairwise fun a b => ¬ lt b a := by
  obtain ⟨placed, -, rfl, hordered⟩ := h
  rw [List.pairwise_map]
  exact hordered.imp fun hab => hab.elim (hlt _ _) fun htie => htie.1

theorem unique (hlt : ∀ a b, lt a b → ¬ lt b a) {out' : List α} (h : StablyOrdered lt items out)
    (h' : StablyOrdered lt items out') : out = out' := by
  obtain ⟨placed, hperm, rfl, hordered⟩ := h
  obtain ⟨placed', hperm', rfl, hordered'⟩ := h'
  rw [List.Perm.eq_of_pairwise (fun a b _ _ hab hba => absurd hba (hab.asymm hlt))
    hordered hordered' (hperm.trans hperm'.symm)]

/-- The order of the items in the list is all that matters. -/
theorem congr (h : StablyOrdered lt items out)
    (hlt : ∀ a ∈ items, ∀ b ∈ items, lt a b ↔ lt' a b) : StablyOrdered lt' items out := by
  obtain ⟨placed, hperm, rfl, hordered⟩ := h
  refine ⟨placed, hperm, rfl, hordered.imp_of_mem ?_⟩
  intro a b ha hb hab
  have ha' := List.fst_mem_of_mem_zipIdx (hperm.subset ha)
  have hb' := List.fst_mem_of_mem_zipIdx (hperm.subset hb)
  simpa only [ComesFirst, hlt _ ha' _ hb', hlt _ hb' _ ha'] using hab

/-- Items are ordered like what they are mapped to. -/
theorem map {lt' : β → β → Prop} (f : α → β) (h : StablyOrdered lt items out)
    (hlt : ∀ a ∈ items, ∀ b ∈ items, lt a b ↔ lt' (f a) (f b)) :
    StablyOrdered lt' (items.map f) (out.map f) := by
  obtain ⟨placed, hperm, rfl, hordered⟩ := h.congr hlt
  refine ⟨placed.map (Prod.map f id), ?_, by simp, ?_⟩
  · rw [List.zipIdx_map]
    exact hperm.map _
  · rw [List.pairwise_map]
    exact hordered.imp fun hab => hab

/-- Ordering the reversed items and reversing the outcome turns the order round and keeps ties. -/
theorem reverse (h : StablyOrdered lt items.reverse out) :
    StablyOrdered (fun a b => lt b a) items out.reverse := by
  obtain ⟨placed, hperm, rfl, hordered⟩ := h
  refine ⟨(placed.map fun a => (a.1, items.length - 1 - a.2)).reverse, ?_, ?_, ?_⟩
  · have := hperm.map fun a => (a.1, items.length - 1 - a.2)
    rw [zipIdx_reverse] at this
    exact ((List.reverse_perm _).trans this).trans (List.reverse_perm _)
  · simp [List.map_reverse, Function.comp_def]
  · rw [List.pairwise_reverse, List.pairwise_map]
    refine hordered.imp_of_mem ?_
    intro a b ha hb hab
    have hb' := List.snd_lt_of_mem_zipIdx (hperm.subset hb)
    rw [List.length_reverse] at hb'
    exact hab.imp_right fun ⟨htie, hlt⟩ => ⟨htie, by simp only; omega⟩

/-- Merge sort puts items stably in the order of which it is given the comparison. -/
theorem of_mergeSort (le : α → α → Bool) (hlt : ∀ a b, lt a b → ¬ lt b a)
    (hor : ∀ a b c, lt a c → lt a b ∨ lt b c) (hle : ∀ a b, le a b = true ↔ ¬ lt b a) :
    StablyOrdered lt items (items.mergeSort le) := by
  have htrans : ∀ a b c, le a b = true → le b c = true → le a c = true := by
    intro a b c hab hbc
    rw [hle] at *
    exact fun hca => (hor c b a hca).elim hbc hab
  have htotal : ∀ a b, (le a b || le b a) = true := by
    intro a b
    rw [Bool.or_eq_true, hle, hle]
    exact or_iff_not_imp_left.2 fun hba => hlt b a (not_not.1 hba)
  have hperm := List.mergeSort_perm items.zipIdx (List.zipIdxLE le)
  have hsorted := List.pairwise_mergeSort (List.zipIdxLE_trans htrans)
    (List.zipIdxLE_total htotal) items.zipIdx
  have hdistinct : (items.zipIdx.mergeSort (List.zipIdxLE le)).Pairwise fun a b => a.2 ≠ b.2 :=
    (hperm.pairwise_iff Ne.symm).2 ((pairwise_zipIdx items 0).imp Nat.ne_of_lt)
  refine ⟨_, hperm, List.mergeSort_zipIdx, (hsorted.and hdistinct).imp ?_⟩
  rintro a b ⟨hab, hne⟩
  by_cases hba : le b.1 a.1 = true
  · have hab : le a.1 b.1 = true ∧ a.2 ≤ b.2 := by
      simpa [List.zipIdxLE, hba] using hab
    exact .inr ⟨(hle _ _).1 hab.1, Nat.lt_of_le_of_ne hab.2 hne⟩
  · exact .inl (not_not.1 fun h => hba ((hle _ _).2 h))

/-- Ordering by a further order keeps the one before among its ties. -/
theorem «then» {first second : α → α → Prop} (h : StablyOrdered second items mid)
    (h' : StablyOrdered first mid out) : StablyOrdered (ThenBy first second) items out := by
  obtain ⟨placed, hperm, rfl, hordered⟩ := h
  obtain ⟨placed', hperm', rfl, hordered'⟩ := h'
  rw [List.zipIdx_map] at hperm'
  -- the outcome of the second pass, with the positions that the items had before the first one
  obtain ⟨traced, rfl, htraced⟩ := (congrFun₂ (List.eq_map_comp_perm _) _ _).mpr hperm'
  refine ⟨traced.map Prod.fst, ?_, by simp [Function.comp_def], ?_⟩
  · have := htraced.map Prod.fst
    rw [List.zipIdx_map_fst] at this
    exact this.trans hperm
  · rw [List.pairwise_map] at hordered' ⊢
    refine hordered'.imp_of_mem ?_
    intro a b ha hb hab
    rcases hab with hab | ⟨htie, hpos⟩
    · exact .inl (.inl hab)
    · rcases rel_of_mem_zipIdx hordered (htraced.subset ha) (htraced.subset hb) hpos with
        hsecond | ⟨htie', hpos'⟩
      · by_cases hfirst : first a.1.1 b.1.1
        · exact .inl (.inl hfirst)
        · exact .inl (.inr ⟨htie, hsecond⟩)
      · by_cases hfirst : first a.1.1 b.1.1
        · exact .inl (.inl hfirst)
        · exact .inr ⟨by rintro (hba | ⟨-, hba⟩) <;> contradiction, hpos'⟩

/-- Some of the items come in the order in which they come among all items. -/
theorem filter (h : StablyOrdered lt items out) (p : α → Bool) :
    StablyOrdered lt (items.filter p) (out.filter p) := by
  obtain ⟨placed, hperm, rfl, hordered⟩ := h
  have hitems : (items.zipIdx.filter fun a => p a.1).map Prod.fst = items.filter p := by
    rw [← List.zipIdx_map_fst 0 items, List.filter_map, List.zipIdx_map_fst]
    rfl
  have hmarked := (pairwise_zipIdx items 0).filter fun a => p a.1
  have hkept := hperm.filter fun a => p a.1
  generalize (items.zipIdx.filter fun a => p a.1) = marked at hitems hmarked hkept
  -- the items that are kept, with their positions among all items and among themselves
  rw [← List.zipIdx_map_fst 0 marked] at hkept
  obtain ⟨traced, htraced, hsub⟩ := (congrFun₂ (List.eq_map_comp_perm _) _ _).mpr hkept
  refine ⟨traced.map (Prod.map Prod.fst id), ?_, ?_, ?_⟩
  · rw [← hitems, List.zipIdx_map]
    exact hsub.map _
  · rw [List.filter_map, List.map_map]
    change traced.map (Prod.fst ∘ Prod.fst) = _
    rw [← List.map_map, ← htraced]
    rfl
  · have hordered := hordered.filter fun a => p a.1
    rw [htraced, List.pairwise_map] at hordered
    rw [List.pairwise_map]
    refine hordered.imp_of_mem ?_
    intro a b ha hb hab
    refine hab.imp_right fun ⟨htie, hpos⟩ => ⟨htie, ?_⟩
    have ha' := hsub.subset ha
    have hb' := hsub.subset hb
    rcases Nat.lt_trichotomy a.2 b.2 with hlt | heq | hlt
    · exact hlt
    · -- items at one position are the same
      obtain ⟨-, ha', haa⟩ := List.mem_zipIdx ha'
      obtain ⟨-, hb', hbb⟩ := List.mem_zipIdx hb'
      rw [haa, hbb] at hpos
      simp only [heq] at hpos
      exact absurd hpos (Nat.lt_irrefl _)
    · exact absurd (rel_of_mem_zipIdx hmarked hb' ha' hlt) (Nat.lt_asymm hpos)

end StablyOrdered
end RecordQuery
