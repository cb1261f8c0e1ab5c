import Mathlib.Order.OrderDual
import RecordQuery.Proofs.KeptTies
import RecordQuery.Proofs.Success
import RecordQuery.Query.RunMerge

/-!
# Merging two runs

A merge keeps two promises (`RunMerge.IsMerging`): the items that are taken and what is left of both
runs, one behind the other, have the ties of the two runs, and taking what is left of either run
leaves the items ascending. A run that is searched shows how many of its items leave
(`RunMerge.gives_stretch`), every step keeps the promises and takes something, and so the merge of
two runs is the sorted list of their items (`gives_mergeRuns`). A comparison may fail, and then the
merge fails like it. A merge from the back is one from the front in which all is the other way
round.
-/

namespace RecordQuery

variable {γ δ : Type}

/-- The computation gives a value with the property, or fails in one of the ways. -/
def Gives (fails : Error → Prop) (P : γ → Prop) : Except Error γ → Prop
  | .ok c => P c
  | .error e => fails e

namespace Gives

variable {fails : Error → Prop} {P P' : γ → Prop} {Q : δ → Prop} {x : Except Error γ}
  {f : γ → Except Error δ}

theorem of_eq {c : γ} (h : x = .ok c) (hc : P c) : Gives fails P x :=
  h ▸ hc

theorem mono (h : Gives fails P x) (himp : ∀ c, P c → P' c) : Gives fails P' x := by
  cases x with
  | ok c => exact himp c h
  | error e => exact h

theorem bind (h : Gives fails P x) (hf : ∀ c, P c → Gives fails Q (f c)) :
    Gives fails Q (x >>= f) := by
  cases x with
  | ok c => exact hf c h
  | error e => exact h

/-- What cannot fail succeeds. -/
theorem exists_ok (h : Gives (fun _ => False) P x) : ∃ c, x = .ok c ∧ P c := by
  cases x with
  | ok c => exact ⟨c, rfl, h⟩
  | error e => exact h.elim

/-- A test that says the contrary of another one. -/
theorem not {x : Except Error Bool} {c d : Prop} [Decidable c] [Decidable d]
    (h : Gives fails (· = decide c) x) (hcd : ¬ c ↔ d) :
    Gives fails (· = decide d) (do return !(← x)) := by
  refine h.bind ?_
  rintro _ rfl
  change (!decide c) = decide d
  rw [← decide_not, decide_eq_decide, hcd]

end Gives

/-- A merge gives a value with the property whatever its patience, or fails in one of the ways. -/
def Merging.Gives (fails : Error → Prop) (P : γ → Prop) (x : Merging γ) : Prop :=
  ∀ patience, RecordQuery.Gives fails (fun r => P r.1) (x.run patience)

namespace Merging.Gives

variable {fails : Error → Prop} {P : γ → Prop} {Q : δ → Prop} {x : Merging γ}
  {f : γ → Merging δ}

theorem pure {c : γ} (h : P c) : Merging.Gives fails P (pure c : Merging γ) :=
  fun _ => h

theorem lift {x : Except Error γ} (h : RecordQuery.Gives fails P x) :
    Merging.Gives fails P (liftM x : Merging γ) :=
  fun _ => h.bind fun _ hc => hc

theorem bind (h : Merging.Gives fails P x) (hf : ∀ c, P c → Merging.Gives fails Q (f c)) :
    Merging.Gives fails Q (x >>= f) :=
  fun patience => (h patience).bind fun c hc => hf c.1 hc c.2

theorem ite {c : Prop} [Decidable c] {y : Merging γ} (hx : Merging.Gives fails P x)
    (hy : Merging.Gives fails P y) : Merging.Gives fails P (if c then x else y) := by
  split
  · exact hx
  · exact hy

theorem map {f : γ → δ} (h : Merging.Gives fails P x) (hf : ∀ c, P c → Q (f c)) :
    Merging.Gives fails Q (f <$> x) :=
  fun patience => (h patience).bind fun c hc => hf c.1 hc

end Merging.Gives

theorem Merging.gives_get (fails : Error → Prop) :
    Merging.Gives fails (fun _ => True) (get : Merging Nat) :=
  fun _ => trivial

theorem Merging.gives_modify (fails : Error → Prop) (f : Nat → Nat) :
    Merging.Gives fails (fun _ => True) (modify f : Merging PUnit) :=
  fun _ => trivial

namespace RunMerge

variable {α β : Type} [LinearOrder β] {rank : α → β} {fails : Error → Prop}

/-! ### Searching -/

section Search

variable {leaves : Nat → Except Error Bool} {left : Nat → Prop} [DecidablePred left]
  {size low high : Nat}

/-- The search goes on from an item that leaves to one that does not, or to the end. -/
theorem gives_reach (hleaves : ∀ i, Gives fails (· = decide (left i)) (leaves i))
    (hsize : ∀ i, left i → i < size) (hlow : left low) (hlt : low < high) :
    Gives fails (fun r => left r.1 ∧ r.1 < r.2 ∧ ¬ left r.2) (reach leaves size low high) := by
  induction hn : size - high using Nat.strongRecOn generalizing low high with
  | ind n ih =>
    rw [reach]
    split
    · refine (hleaves high).bind ?_
      rintro _ rfl
      by_cases hhigh : left high
      · simp only [hhigh, decide_true, ↓reduceIte]
        exact ih _ (by omega) hhigh (by omega) rfl
      · simp only [hhigh, decide_false]
        exact ⟨hlow, hlt, hhigh⟩
    · exact ⟨hlow, hsize low hlow, fun h => absurd (hsize size h) (Nat.lt_irrefl size)⟩

/-- Halving finds the first item that does not leave. -/
theorem gives_narrow (e : MergeEnd) (hleaves : ∀ i, Gives fails (· = decide (left i)) (leaves i))
    (hmono : ∀ i j, i ≤ j → left j → left i) (hlow : ∀ i < low, left i) (hhigh : ¬ left high)
    (hle : low ≤ high) :
    Gives fails (fun n => ∀ i, left i ↔ i < n) (narrow e leaves low high) := by
  induction hn : high - low using Nat.strongRecOn generalizing low high with
  | ind n ih =>
    rw [narrow]
    split
    · rename_i hlt
      obtain ⟨hlow', hhigh'⟩ := e.middle_mem hlt
      refine (hleaves (e.middle low high)).bind ?_
      rintro _ rfl
      by_cases hleft : left (e.middle low high)
      · simp only [hleft, decide_true, ↓reduceIte]
        refine ih _ (by omega) (fun i hi => hmono i _ (by omega) hleft) hhigh (by omega) rfl
      · simp only [hleft, decide_false]
        exact ih _ (by omega) hlow hleft hlow' rfl
    · obtain rfl : low = high := by omega
      exact fun i => ⟨fun h => Nat.lt_of_not_le fun hi => hhigh (hmono low i hi h), hlow i⟩

end Search

/-- Items that leave before others of a run do are counted. -/
theorem gives_stretch (e : MergeEnd) (left : α → Prop) [DecidablePred left] {items : List α}
    {leaves : α → Except Error Bool}
    (hleaves : ∀ a ∈ items, Gives fails (· = decide (left a)) (leaves a))
    (hmono : items.Pairwise fun a b => left b → left a) :
    Gives fails (fun n => (∀ a ∈ items.take n, left a) ∧ ∀ a ∈ items.drop n, ¬ left a)
      (stretch e leaves items) := by
  have hat (i : Nat) : Gives fails (· = decide (∃ h : i < items.length, left items[i]))
      ((items[i]?.map leaves).getD (.ok false)) := by
    by_cases hi : i < items.length
    · simpa [hi] using hleaves _ (List.getElem_mem hi)
    · simp [hi, Gives]
  have hmono' (i j : Nat) (hij : i ≤ j) : (∃ h : j < items.length, left items[j]) →
      ∃ h : i < items.length, left items[i] := by
    rintro ⟨hj, hleft⟩
    rcases Nat.lt_or_eq_of_le hij with hij | rfl
    · exact ⟨by omega, List.pairwise_iff_getElem.1 hmono i j (by omega) hj hij hleft⟩
    · exact ⟨hj, hleft⟩
  have hcounted (n : Nat) (hn : ∀ i, (∃ h : i < items.length, left items[i]) ↔ i < n) :
      (∀ a ∈ items.take n, left a) ∧ ∀ a ∈ items.drop n, ¬ left a := by
    constructor
    · intro a ha
      obtain ⟨i, hi, rfl⟩ := List.mem_iff_getElem.1 ha
      rw [List.length_take] at hi
      rw [List.getElem_take]
      exact ((hn i).2 (by omega)).2
    · intro a ha hleft
      obtain ⟨i, hi, rfl⟩ := List.mem_iff_getElem.1 ha
      rw [List.length_drop] at hi
      rw [List.getElem_drop] at hleft
      have := (hn (n + i)).1 ⟨by omega, hleft⟩
      omega
  rw [stretch]
  refine (hat 0).bind ?_
  rintro _ rfl
  split
  · rename_i hfirst
    refine (gives_reach hat (fun i h => h.1) (of_decide_eq_true hfirst) Nat.zero_lt_one).bind ?_
    rintro ⟨low, high⟩ ⟨hlow, hlt, hhigh⟩
    refine (gives_narrow e hat hmono' (fun i hi => hmono' i low (by omega) hlow) hhigh
      hlt).mono hcounted
  · rename_i hfirst
    refine hcounted 0 fun i => ⟨fun h => ?_, fun h => absurd h (Nat.not_lt_zero i)⟩
    exact absurd (decide_eq_true (hmono' 0 i (Nat.zero_le i) h)) hfirst

/-! ### A merge under way -/

/-- How many items are left of both runs. -/
def remaining (m : RunMerge α) : Nat :=
  m.held.length + m.other.length

/-- What a merge of the items keeps to. Ties are kept if what is left of the shorter run comes
before what is left of the longer one, and the last one of the shorter run comes behind all of the
longer one. -/
structure IsMerging (rank : α → β) (items : List α) (m : RunMerge α) : Prop where
  ties : KeepsTies rank items (m.taken.reverse ++ (m.held ++ m.other))
  held : Ascends rank (m.taken.reverse ++ m.held)
  other : Ascends rank (m.taken.reverse ++ m.other)
  last : ∀ x ∈ m.held.getLast?, ∀ y ∈ m.other, rank y < rank x

variable {items rest : List α} {m m' : RunMerge α} {n : Nat}

theorem append_held_takeHeld (n : Nat) :
    (m.takeHeld n).taken.reverse ++ (m.takeHeld n).held = m.taken.reverse ++ m.held := by
  simp [takeHeld]

theorem append_other_takeOther (n : Nat) :
    (m.takeOther n).taken.reverse ++ (m.takeOther n).other = m.taken.reverse ++ m.other := by
  simp [takeOther]

theorem remaining_takeHeld_le (n : Nat) : (m.takeHeld n).remaining ≤ m.remaining := by
  simp only [remaining, takeHeld, List.length_drop]
  omega

theorem remaining_takeOther_le (n : Nat) : (m.takeOther n).remaining ≤ m.remaining := by
  simp only [remaining, takeOther, List.length_drop]
  omega

theorem remaining_takeHeld_lt (h : m.held ≠ []) : (m.takeHeld 1).remaining < m.remaining := by
  have := List.length_pos_iff.2 h
  simp only [remaining, takeHeld, List.length_drop]
  omega

theorem remaining_takeOther_lt (h : m.other ≠ []) : (m.takeOther 1).remaining < m.remaining := by
  have := List.length_pos_iff.2 h
  simp only [remaining, takeOther, List.length_drop]
  omega

/-- Nothing more is to be compared if a run is used up or the shorter one is down to one item. -/
theorem rest?_cases (m : RunMerge α) :
    (m.other = [] ∧ m.rest? = some m.held) ∨ (m.held = [] ∧ m.rest? = some m.other) ∨
      (∃ x, m.held = [x] ∧ m.rest? = some (m.other ++ [x])) ∨
      ((∃ x held, m.held = x :: held) ∧ (∃ y other, m.other = y :: other) ∧ m.rest? = none) := by
  obtain ⟨taken, held, other⟩ := m
  match held, other with
  | _, [] => exact .inl ⟨rfl, rfl⟩
  | [], _ :: _ => exact .inr (.inl ⟨rfl, rfl⟩)
  | [x], _ :: _ => exact .inr (.inr (.inl ⟨x, rfl, rfl⟩))
  | x :: _ :: _, y :: _ => exact .inr (.inr (.inr ⟨⟨x, _, rfl⟩, ⟨y, _, rfl⟩, rfl⟩))

/-- While something has to be compared, either run has items. -/
theorem exists_cons_of_rest? (h : ¬ m.rest?.isSome = true) :
    (∃ x held, m.held = x :: held) ∧ ∃ y other, m.other = y :: other := by
  rcases m.rest?_cases with ⟨-, h'⟩ | ⟨-, h'⟩ | ⟨x, -, h'⟩ | ⟨hheld, hother, -⟩
  · simp [h'] at h
  · simp [h'] at h
  · simp [h'] at h
  · exact ⟨hheld, hother⟩

namespace IsMerging

theorem ascends_held (h : IsMerging rank items m) : Ascends rank m.held :=
  (List.pairwise_append.1 h.held).2.1

theorem ascends_other (h : IsMerging rank items m) : Ascends rank m.other :=
  (List.pairwise_append.1 h.other).2.1

theorem mem_held (h : IsMerging rank items m) {x : α} (hx : x ∈ m.held) : x ∈ items :=
  h.ties.mem_iff.1 (by simp [hx])

theorem mem_other (h : IsMerging rank items m) {y : α} (hy : y ∈ m.other) : y ∈ items :=
  h.ties.mem_iff.1 (by simp [hy])

/-- Items of the shorter run leave that do not rank higher than those of the longer one. -/
theorem takeHeld (h : IsMerging rank items m)
    (hbefore : ∀ x ∈ m.held.take n, ∀ y ∈ m.other, rank x ≤ rank y) :
    IsMerging rank items (m.takeHeld n) := by
  have htaken : (m.takeHeld n).taken.reverse = m.taken.reverse ++ m.held.take n := by
    simp [RunMerge.takeHeld]
  have hother : (m.takeHeld n).other = m.other := rfl
  have hheld := h.held
  rw [← append_held_takeHeld n, htaken] at hheld
  refine ⟨?_, htaken ▸ hheld, ?_, ?_⟩
  · rw [← List.append_assoc, append_held_takeHeld, hother, List.append_assoc]
    exact h.ties
  · have hfront := (List.pairwise_append.1 hheld).1
    rw [htaken, hother]
    refine List.pairwise_append.2 ⟨hfront, h.ascends_other, fun x hx y hy => ?_⟩
    rcases List.mem_append.1 hx with hx | hx
    · exact (List.pairwise_append.1 h.other).2.2 x hx y hy
    · exact hbefore x hx y hy
  · intro x hx
    refine h.last x ?_
    simp only [RunMerge.takeHeld, List.getLast?_drop] at hx
    split at hx
    · cases hx
    · exact hx

/-- Items of the longer run leave that rank lower than those of the shorter one. -/
theorem takeOther (h : IsMerging rank items m)
    (hbefore : ∀ y ∈ m.other.take n, ∀ x ∈ m.held, rank y < rank x) :
    IsMerging rank items (m.takeOther n) := by
  have htaken : (m.takeOther n).taken.reverse = m.taken.reverse ++ m.other.take n := by
    simp [RunMerge.takeOther]
  have hheld : (m.takeOther n).held = m.held := rfl
  have hother := h.other
  rw [← append_other_takeOther n, htaken] at hother
  refine ⟨?_, ?_, htaken ▸ hother, ?_⟩
  · have hswap : KeepsTies rank (m.held ++ m.other.take n) (m.other.take n ++ m.held) :=
      .swap fun x hx y hy => (hbefore y hy x hx).ne'
    have hmoved := hswap.append_right (m.other.drop n)
    rw [List.append_assoc, List.take_append_drop, List.append_assoc] at hmoved
    rw [htaken, hheld, List.append_assoc]
    exact h.ties.trans (hmoved.append_left _)
  · have hfront := (List.pairwise_append.1 hother).1
    rw [htaken, hheld]
    refine List.pairwise_append.2 ⟨hfront, h.ascends_held, fun y hy x hx => ?_⟩
    rcases List.mem_append.1 hy with hy | hy
    · exact (List.pairwise_append.1 h.held).2.2 y hy x hx
    · exact (hbefore y hy x hx).le
  · exact fun x hx y hy => h.last x hx y (List.mem_of_mem_drop hy)

/-- What is left when no more is to be compared is in order. -/
theorem sorts_of_rest? (h : IsMerging rank items m) (hrest : m.rest? = some rest) :
    Sorts rank items (m.taken.reverse ++ rest) := by
  obtain ⟨hties, hheld, hother, hlast⟩ := h
  rcases m.rest?_cases with ⟨hnil, h⟩ | ⟨hnil, h⟩ | ⟨x, hsingle, h⟩ | ⟨-, -, h⟩
  · cases h.symm.trans hrest
    rw [hnil, List.append_nil] at hties
    exact ⟨hheld, hties⟩
  · cases h.symm.trans hrest
    rw [hnil, List.nil_append] at hties
    exact ⟨hother, hties⟩
  · cases h.symm.trans hrest
    rw [hsingle] at hties hheld hlast
    have hlast := hlast x rfl
    refine ⟨?_, hties.trans (.append_left _ (.swap ?_))⟩
    · rw [← List.append_assoc]
      refine List.pairwise_append.2 ⟨hother, List.pairwise_singleton _ _, fun y hy x' hx' => ?_⟩
      cases List.mem_singleton.1 hx'
      rcases List.mem_append.1 hy with hy | hy
      · exact (List.pairwise_append.1 hheld).2.2 y hy x (List.mem_singleton_self x)
      · exact (hlast y hy).le
    · intro x' hx' y hy
      cases List.mem_singleton.1 hx'
      exact (hlast y hy).ne'
  · cases h.symm.trans hrest

end IsMerging

/-! ### Steps -/

/-- The merge goes on, and nothing is left to be compared or less than before. -/
structure Advances (rank : α → β) (items : List α) (m m' : RunMerge α) : Prop where
  isMerging : IsMerging rank items m'
  le : m'.remaining ≤ m.remaining
  lt : m'.rest?.isSome = true ∨ m'.remaining < m.remaining

theorem Advances.of_le {m'' : RunMerge α} (h : Advances rank items m' m'')
    (hle : m'.remaining ≤ m.remaining) : Advances rank items m m'' :=
  ⟨h.isMerging, h.le.trans hle, h.lt.imp_right fun hlt => hlt.trans_le hle⟩

theorem Advances.trans {m'' : RunMerge α} (h : Advances rank items m m')
    (h' : Advances rank items m' m'') : Advances rank items m m'' :=
  h'.of_le h.le

/-- The next item of the shorter run leaves if nothing in the longer one ranks lower. -/
theorem IsMerging.advances_takeHeld {x : α} {held : List α} (h : IsMerging rank items m)
    (hheld : m.held = x :: held) (hle : ∀ y ∈ m.other, rank x ≤ rank y) :
    Advances rank items m (m.takeHeld 1) := by
  have hlt : (m.takeHeld 1).remaining < m.remaining :=
    remaining_takeHeld_lt (by rw [hheld]; exact List.cons_ne_nil _ _)
  refine ⟨h.takeHeld ?_, hlt.le, .inr hlt⟩
  simpa [hheld] using hle

/-- The next item of the longer run leaves if all in the shorter one rank higher. -/
theorem IsMerging.advances_takeOther {y : α} {other : List α} (h : IsMerging rank items m)
    (hother : m.other = y :: other) (hlt : ∀ x ∈ m.held, rank y < rank x) :
    Advances rank items m (m.takeOther 1) := by
  have hless : (m.takeOther 1).remaining < m.remaining :=
    remaining_takeOther_lt (by rw [hother]; exact List.cons_ne_nil _ _)
  refine ⟨h.takeOther ?_, hless.le, .inr hless⟩
  simpa [hother] using hlt

variable {lt : α → α → Except Error Bool} {e : MergeEnd}

/-- Which of two items leaves first can be told from their ranks. -/
def Tells (fails : Error → Prop) (lt : α → α → Except Error Bool) (e : MergeEnd) (rank : α → β)
    (items : List α) : Prop :=
  ∀ x ∈ items, ∀ y ∈ items, Gives fails (· = decide (rank y < rank x)) (otherFirst lt e x y)

theorem gives_searchHeld (htells : Tells fails lt e rank items) (h : IsMerging rank items m) :
    Gives fails (fun r => Advances rank items m r.2) (searchHeld lt e m) := by
  rw [searchHeld]
  split
  · rename_i y other hrest hother
    have hy : y ∈ m.other := by simp [hother]
    have hleast : ∀ y' ∈ m.other, rank y ≤ rank y' := by
      have hascends := h.ascends_other
      rw [hother] at hascends ⊢
      exact hascends.head_le
    -- those leave that do not rank higher than the next item of the longer run
    refine (gives_stretch e (fun x => rank x ≤ rank y) (fun x hx => ?_)
      (h.ascends_held.imp fun hab hb => hab.trans hb)).bind ?_
    · exact (htells x (h.mem_held hx) y (h.mem_other hy)).not not_lt
    · intro n ⟨hleave, hstay⟩
      have hmerging := h.takeHeld fun x hx y' hy' => (hleave x hx).trans (hleast y' hy')
      have hle : (m.takeHeld n).remaining ≤ m.remaining := remaining_takeHeld_le n
      by_cases hdone : (m.takeHeld n).rest?.isSome = true
      · simp only [hdone, ↓reduceIte]
        exact ⟨hmerging, hle, .inl hdone⟩
      · simp only [hdone]
        have hnext : (m.takeHeld n).other = y :: other := hother
        exact (hmerging.advances_takeOther hnext fun x hx => not_le.1 (hstay x hx)).of_le hle
  · rename_i hno
    have hdone : m.rest?.isSome = true := by
      by_contra hrest
      obtain ⟨y, other, hother⟩ := (exists_cons_of_rest? hrest).2
      exact hno y other (Option.not_isSome_iff_eq_none.1 hrest) hother
    exact ⟨h, le_rfl, .inl hdone⟩

theorem gives_searchOther (htells : Tells fails lt e rank items) (h : IsMerging rank items m) :
    Gives fails (fun r => Advances rank items m r.2) (searchOther lt e m) := by
  rw [searchOther]
  split
  · rename_i x held hrest hheld
    have hx : x ∈ m.held := by simp [hheld]
    have hleast : ∀ x' ∈ m.held, rank x ≤ rank x' := by
      have hascends := h.ascends_held
      rw [hheld] at hascends ⊢
      exact hascends.head_le
    -- those leave that rank lower than the next item of the shorter run
    refine (gives_stretch e (fun y => rank y < rank x) (fun y hy => ?_)
      (h.ascends_other.imp fun hab hb => hab.trans_lt hb)).bind ?_
    · exact htells x (h.mem_held hx) y (h.mem_other hy)
    · intro n ⟨hleave, hstay⟩
      have hmerging := h.takeOther fun y hy x' hx' => (hleave y hy).trans_le (hleast x' hx')
      have hle : (m.takeOther n).remaining ≤ m.remaining := remaining_takeOther_le n
      by_cases hdone : (m.takeOther n).rest?.isSome = true
      · simp only [hdone, ↓reduceIte]
        exact ⟨hmerging, hle, .inl hdone⟩
      · simp only [hdone]
        have hnext : (m.takeOther n).held = x :: held := hheld
        exact (hmerging.advances_takeHeld hnext fun y hy => not_lt.1 (hstay y hy)).of_le hle
  · rename_i hno
    have hdone : m.rest?.isSome = true := by
      by_contra hrest
      obtain ⟨x, held, hheld⟩ := (exists_cons_of_rest? hrest).1
      exact hno x held (Option.not_isSome_iff_eq_none.1 hrest) hheld
    exact ⟨h, le_rfl, .inl hdone⟩

theorem gives_searchBoth (htells : Tells fails lt e rank items) (h : IsMerging rank items m) :
    Gives fails (fun r => Advances rank items m r.2.2) (searchBoth lt e m) := by
  cases e with
  | front =>
    refine (gives_searchHeld htells h).bind fun r hr => ?_
    exact (gives_searchOther htells hr.isMerging).bind fun r' hr' => hr.trans hr'
  | back =>
    refine (gives_searchOther htells h).bind fun r hr => ?_
    exact (gives_searchHeld htells hr.isMerging).bind fun r' hr' => hr.trans hr'

/-- One item leaves the run whose next item ranks lower. -/
theorem advances_single {x y : α} {held other : List α} (h : IsMerging rank items m)
    (hheld : m.held = x :: held) (hother : m.other = y :: other) :
    Advances rank items m
      (if decide (rank y < rank x) = true then m.takeOther 1 else m.takeHeld 1) := by
  by_cases hlt : rank y < rank x
  · rw [if_pos (decide_eq_true hlt)]
    refine h.advances_takeOther hother ?_
    have hascends := h.ascends_held
    rw [hheld] at hascends ⊢
    exact fun x' hx' => hlt.trans_le (hascends.head_le x' hx')
  · rw [if_neg (mt of_decide_eq_true hlt)]
    refine h.advances_takeHeld hheld ?_
    have hascends := h.ascends_other
    rw [hother] at hascends ⊢
    exact fun y' hy' => (not_lt.1 hlt).trans (hascends.head_le y' hy')

/-- A step keeps the promises, and takes something or finds that nothing more is to be compared. -/
theorem gives_step (htells : Tells fails lt e rank items) (h : IsMerging rank items m)
    (pace : MergePace) :
    Merging.Gives fails (fun r => Advances rank items m r.2) (step lt e pace m) := by
  unfold step
  split
  · rename_i fromHeld fromOther x held y other hheld hother
    have hx : x ∈ m.held := by simp [hheld]
    have hy : y ∈ m.other := by simp [hother]
    refine (Merging.Gives.lift (htells x (h.mem_held hx) y (h.mem_other hy))).bind ?_
    rintro _ rfl
    have hadvances := advances_single h hheld hother
    refine .bind (Merging.gives_get fails) fun patience _ => .ite (.pure hadvances) ?_
    exact .bind (Merging.gives_modify fails _) fun _ _ => .pure hadvances
  · refine .bind (Merging.gives_modify fails _) fun _ _ => ?_
    refine (Merging.Gives.lift (gives_searchBoth htells h)).bind fun r hr => ?_
    refine .ite (.pure hr) ?_
    exact .bind (Merging.gives_modify fails _) fun _ _ => .pure hr

/-- Enough steps merge all items. -/
theorem gives_run (htells : Tells fails lt e rank items) (n : Nat) (h : IsMerging rank items m)
    (hn : m.remaining < n ∨ m.rest?.isSome = true ∧ 0 < n) (pace : MergePace) :
    Merging.Gives fails (Sorts rank items) (run lt e n pace m) := by
  induction n generalizing m pace with
  | zero => omega
  | succ n ih =>
    rw [run]
    split
    · rename_i rest hrest
      exact .pure (h.sorts_of_rest? hrest)
    · rename_i hrest
      have hsome : ¬ m.rest?.isSome = true := by simp [hrest]
      refine (gives_step htells h pace).bind fun r hr => ih hr.isMerging ?_ r.1
      -- two runs with items need more steps than one
      obtain ⟨⟨x, held, hheld⟩, -⟩ := exists_cons_of_rest? hsome
      have hpos : 0 < m.remaining := by simp only [remaining, hheld, List.length_cons]; omega
      have hlt := hn.resolve_right fun h => hsome h.1
      exact hr.lt.elim (fun hdone => .inr ⟨hdone, by omega⟩) fun hless => .inl (by omega)

/-- A run is merged with a longer one of which an item leaves first, and whose items leave before
the last one of the shorter run. -/
theorem gives_ofRuns {held other : List α} {y : α}
    (htells : Tells fails lt e rank (held ++ y :: other)) (hheld : Ascends rank held)
    (hother : Ascends rank (y :: other)) (hfirst : ∀ x ∈ held, rank y < rank x)
    (hlast : ∀ x ∈ held.getLast?, ∀ z ∈ y :: other, rank z < rank x) :
    Merging.Gives fails (Sorts rank (held ++ y :: other)) (ofRuns lt e held (y :: other)) := by
  have hstart : IsMerging rank (held ++ y :: other) ⟨[], held, y :: other⟩ :=
    ⟨.refl _, hheld, hother, hlast⟩
  refine gives_run htells _ (hstart.takeOther ?_) (.inl ?_) _
  · simpa using hfirst
  · refine Nat.lt_succ_of_le ((remaining_takeOther_le 1).trans ?_)
    exact le_rfl

end RunMerge

/-! ### Two runs -/

section

variable {α β : Type} [LinearOrder β] {rank : α → β} {fails : Error → Prop}
  {front back items : List α} {lt : α → α → Except Error Bool}

/-- The comparison of any two items tells whether the first one ranks lower, or fails in one of the
ways. -/
def Ranks (fails : Error → Prop) (lt : α → α → Except Error Bool) (rank : α → β)
    (items : List α) : Prop :=
  ∀ a ∈ items, ∀ b ∈ items, Gives fails (· = decide (rank a < rank b)) (lt a b)

theorem Ranks.mono {more : List α} (h : Ranks fails lt rank more) (hsub : items ⊆ more) :
    Ranks fails lt rank items :=
  fun a ha b hb => h a (hsub ha) b (hsub hb)

theorem Ranks.tells_front (h : Ranks fails lt rank items) :
    RunMerge.Tells fails lt .front rank items :=
  fun x hx y hy => h y hy x hx

theorem Ranks.tells_back (h : Ranks fails lt rank items) :
    RunMerge.Tells fails lt .back (OrderDual.toDual ∘ rank) items :=
  fun x hx y hy => h x hx y hy

/-- Two runs that overlap: the first item of the back one comes before all of the front one, and the
last item of the front one behind all of the back one. -/
theorem gives_mergeOverlap {last : α} (hranks : Ranks fails lt rank (front ++ back))
    (hfront : Ascends rank front) (hback : Ascends rank back)
    (hfirst : ∀ y ∈ back.head?, ∀ x ∈ front, rank y < rank x) (hlast : front.getLast? = some last)
    (hbefore : ∀ y ∈ back, rank y < rank last) :
    Merging.Gives fails (Sorts rank (front ++ back)) (mergeOverlap lt front back) := by
  cases back with
  | nil =>
    rw [List.append_nil]
    exact .pure (.of_ascends hfront)
  | cons first back =>
    have hspan := hfirst first rfl
    rw [mergeOverlap, List.isEmpty_cons, if_neg Bool.false_ne_true]
    refine .ite ?_ ?_
    · refine RunMerge.gives_ofRuns hranks.tells_front hfront hback hspan fun x hx => ?_
      cases hlast.symm.trans hx
      exact hbefore
    · -- from the back all is the other way round
      obtain ⟨front, rfl⟩ := List.getLast?_eq_some_iff.1 hlast
      have hreverse : (first :: back).reverse ++ (front ++ [last]).reverse =
          (front ++ [last] ++ first :: back).reverse := List.reverse_append.symm
      have hother : (front ++ [last]).reverse = last :: front.reverse := by simp
      have hranks' := hranks.mono (List.reverse_subset.2 (List.Subset.refl _))
      rw [← hreverse, hother] at hranks'
      have hmerged := RunMerge.gives_ofRuns hranks'.tells_back (List.pairwise_reverse.2 hback)
        (hother ▸ List.pairwise_reverse.2 hfront) (fun x hx => hbefore x (List.mem_reverse.1 hx))
        (fun x hx z hz => ?_)
      · rw [← hother, hreverse] at hmerged
        exact hmerged.map fun out hout => by simpa using hout.reverse
      · rw [List.getLast?_reverse] at hx
        cases hx
        rw [← hother, List.mem_reverse] at hz
        exact hspan z hz

theorem gives_mergeUpTo {first last : α} (hranks : Ranks fails lt rank (front ++ first :: back))
    (hfront : Ascends rank front) (hback : Ascends rank (first :: back))
    (hfirst : ∀ x ∈ front, rank first < rank x) (hlast : front.getLast? = some last) :
    Merging.Gives fails (Sorts rank (front ++ first :: back))
      (mergeUpTo lt front last (first :: back)) := by
  have hmem : last ∈ front := List.mem_of_getLast? hlast
  rw [mergeUpTo]
  -- the items of the back run that stay where they are
  refine .bind (.lift (RunMerge.gives_stretch .back (fun x => rank last ≤ rank x)
    (fun x hx => (hranks x (List.mem_append_right _ (List.mem_reverse.1 hx)) last
      (List.mem_append_left _ hmem)).not not_lt)
    (List.pairwise_reverse.2 (hback.imp fun hab ha => ha.trans hab)))) fun n hn => ?_
  obtain ⟨hbehind, hbefore⟩ := hn
  rw [List.take_reverse] at hbehind
  rw [List.drop_reverse] at hbefore
  simp only [List.mem_reverse, List.splitAt_eq] at hbehind hbefore ⊢
  have hsplit := List.take_append_drop ((first :: back).length - n) (first :: back)
  generalize hshort : (first :: back).take ((first :: back).length - n) = short at *
  generalize (first :: back).drop ((first :: back).length - n) = behind at *
  have hfirst' : ∀ y ∈ short.head?, ∀ x ∈ front, rank y < rank x := by
    intro y hy
    obtain rfl : first = y := by
      rw [← hshort, List.head?_take] at hy
      split at hy
      · cases hy
      · exact Option.some.inj hy
    exact hfirst
  rw [← hsplit] at hranks hback
  rw [← hsplit, ← List.append_assoc]
  obtain ⟨hshort', hbehind', hacross⟩ := List.pairwise_append.1 hback
  refine (gives_mergeOverlap (hranks.mono (by grind)) hfront hshort' hfirst' hlast
    fun y hy => not_le.1 (hbefore y hy)).bind fun merged hmerged => ?_
  refine .pure (hmerged.append (.of_ascends hbehind') fun x hx y hy => ?_)
  rcases List.mem_append.1 hx with hx | hx
  · exact (hfront.le_getLast hlast x hx).trans (hbehind y hy)
  · exact hacross x hx y hy

/-- **Two ascending runs are merged stably.** -/
theorem gives_mergeRuns (hranks : Ranks fails lt rank (front ++ back)) (hfront : Ascends rank front)
    (hback : Ascends rank back) :
    Merging.Gives fails (Sorts rank (front ++ back)) (mergeRuns lt front back) := by
  cases back with
  | nil =>
    rw [List.append_nil]
    exact .pure (.of_ascends hfront)
  | cons first back =>
    rw [mergeRuns]
    -- the items of the front run that stay where they are
    refine .bind (.lift (RunMerge.gives_stretch .front (fun x => rank x ≤ rank first)
      (fun x hx => (hranks first (by simp) x (by simp [hx])).not not_lt)
      (hfront.imp fun hab hb => hab.trans hb))) fun n hn => ?_
    obtain ⟨hkept, hlater⟩ := hn
    simp only [List.splitAt_eq]
    have hsplit := List.take_append_drop n front
    generalize front.take n = kept at hkept hsplit ⊢
    generalize front.drop n = later at hlater hsplit ⊢
    subst hsplit
    obtain ⟨hkept', hlater', hacross⟩ := List.pairwise_append.1 hfront
    have hback' : ∀ x ∈ kept, ∀ y ∈ first :: back, rank x ≤ rank y := fun x hx =>
      List.forall_mem_cons.2
        ⟨hkept x hx, fun y hy => (hkept x hx).trans ((List.pairwise_cons.1 hback).1 y hy)⟩
    cases hlast : later.getLast? with
    | none =>
      rw [List.getLast?_eq_none_iff] at hlast
      subst hlast
      rw [List.append_nil]
      exact .pure ((Sorts.of_ascends hkept').append (.of_ascends hback) hback')
    | some last =>
      rw [List.append_assoc]
      refine (gives_mergeUpTo (hranks.mono (by grind)) hlater' hback
        (fun x hx => not_le.1 (hlater x hx)) hlast).bind fun merged hmerged => ?_
      refine .pure ((Sorts.of_ascends hkept').append hmerged fun x hx y hy => ?_)
      exact (List.mem_append.1 hy).elim (hacross x hx y) (hback' x hx y)

end
end RecordQuery
