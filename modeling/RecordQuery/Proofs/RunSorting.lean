import RecordQuery.Proofs.RunMerging
import RecordQuery.Query.RunSort

/-!
# Sorting by runs is correct

If the comparison of any two items either tells which of them ranks lower or fails in a known way,
then sorting gives the items in the stable order of their ranks or fails in that way
(`RunSort.gives_sort`), and so does sorting in either direction (`RunSort.gives_sortIn`). The items
are taken off run by run (`gives_nextRun`). The runs that wait to be merged, the oldest first, and
the newest one are ascending and have the ties of the items so far (`Stacked`), whichever neighbours
are merged, so the depths of the boundaries only decide how much is compared.
-/

namespace RecordQuery.RunSort

variable {α β : Type} [LinearOrder β] {rank : α → β} {fails : Error → Prop}
  {lt : α → α → Except Error Bool} {items sorted rest : List α} {x : α}

/-! ### Inserting -/

/-- The halving search finds the end of the items that do not rank higher than the given one. -/
theorem gives_position (hx : ∀ y ∈ sorted, Gives fails (· = decide (rank x < rank y)) (lt x y))
    (hsorted : Ascends rank sorted) {low high : Nat} (hle : low ≤ high)
    (hhigh : high ≤ sorted.length) (hbefore : ∀ y ∈ sorted.take low, rank y ≤ rank x)
    (hbehind : ∀ y ∈ sorted.drop high, rank x < rank y) :
    Gives fails (fun p => (∀ y ∈ sorted.take p, rank y ≤ rank x) ∧
      ∀ y ∈ sorted.drop p, rank x < rank y) (position lt x sorted low high) := by
  -- `x` belongs behind all that stands before `low` and before all that stands behind `high`
  induction hn : high - low using Nat.strongRecOn generalizing low high with
  | ind n ih =>
    rw [position]
    split
    · rename_i hlt
      have hmid : low + (high - low) / 2 < sorted.length := by omega
      simp only [List.getElem?_eq_getElem hmid]
      have hpairs := List.pairwise_iff_getElem.1 hsorted
      refine (hx _ (List.getElem_mem hmid)).bind ?_
      rintro _ rfl
      split
      · rename_i hless
        refine ih _ (by omega) (by omega) (by omega) hbefore ?_ rfl
        intro y hy
        obtain ⟨i, hi, rfl⟩ := List.mem_iff_getElem.1 hy
        rw [List.getElem_drop]
        have hless := of_decide_eq_true hless
        cases i with
        | zero => exact hless
        | succ i => exact hless.trans_le (hpairs _ _ _ _ (by omega))
      · rename_i hless
        refine ih _ (by omega) (by omega) hhigh ?_ hbehind rfl
        intro y hy
        obtain ⟨i, hi, rfl⟩ := List.mem_iff_getElem.1 hy
        have hless := not_lt.1 (mt decide_eq_true hless)
        rw [List.length_take] at hi
        rw [List.getElem_take]
        rcases Nat.lt_or_eq_of_le (show i ≤ low + (high - low) / 2 by omega) with hi | rfl
        · exact (hpairs _ _ _ _ hi).trans hless
        · exact hless
    · obtain rfl : low = high := by omega
      exact ⟨hbefore, hbehind⟩

/-- A further item is in its place behind the items that do not rank higher. -/
theorem sorts_insert {p : Nat} (h : Sorts rank items sorted)
    (hbefore : ∀ y ∈ sorted.take p, rank y ≤ rank x)
    (hbehind : ∀ y ∈ sorted.drop p, rank x < rank y) :
    Sorts rank (items ++ [x]) (sorted.take p ++ x :: sorted.drop p) := by
  have hsplit := List.take_append_drop p sorted
  have hascends := h.ascends
  rw [← hsplit] at hascends
  obtain ⟨hfront, hback, hacross⟩ := List.pairwise_append.1 hascends
  constructor
  · refine List.pairwise_append.2 ⟨hfront, List.pairwise_cons.2 ⟨?_, hback⟩, fun y hy => ?_⟩
    · exact fun y hy => (hbehind y hy).le
    · exact List.forall_mem_cons.2 ⟨hbefore y hy, hacross y hy⟩
  · have hswap : KeepsTies rank (sorted.drop p ++ [x]) ([x] ++ sorted.drop p) :=
      .swap fun y hy z hz => by
        cases List.mem_singleton.1 hz
        exact (hbehind y hy).ne'
    have hmoved := hswap.append_left (sorted.take p)
    rw [← List.append_assoc, hsplit] at hmoved
    exact (h.ties.append_right [x]).trans hmoved

/-- Inserting a further item keeps the items in order. -/
theorem gives_insert (hranks : Ranks fails lt rank (items ++ [x])) (h : Sorts rank items sorted) :
    Gives fails (Sorts rank (items ++ [x])) (insert lt sorted x) := by
  have hx : ∀ y ∈ sorted, Gives fails (· = decide (rank x < rank y)) (lt x y) := fun y hy =>
    hranks x (by simp) y (List.mem_append_left _ (h.mem_iff.1 hy))
  refine (gives_position hx h.ascends (Nat.zero_le sorted.length) le_rfl (by simp)
    (by simp)).bind ?_
  exact fun p ⟨hbefore, hbehind⟩ => sorts_insert h hbefore hbehind

theorem gives_foldlM_insert (hranks : Ranks fails lt rank (items ++ rest))
    (h : Sorts rank items sorted) :
    Gives fails (Sorts rank (items ++ rest)) (rest.foldlM (insert lt) sorted) := by
  induction rest generalizing items sorted with
  | nil =>
    rw [List.append_nil]
    exact h
  | cons x rest ih =>
    rw [List.append_cons] at hranks ⊢
    rw [List.foldlM_cons]
    exact (gives_insert (hranks.mono (by grind)) h).bind fun _ => ih hranks

/-! ### Runs -/

/-- The items of a run each rank lower than the one before, or none of them does. -/
theorem gives_runLength {last : α} (hranks : Ranks fails lt rank (last :: items))
    (descending : Bool) :
    Gives fails (fun n => (last :: items.take n).IsChain fun a b =>
      decide (rank b < rank a) = descending) (runLength lt descending last items) := by
  induction items generalizing last with
  | nil => exact List.IsChain.singleton _
  | cons x items ih =>
    rw [runLength]
    refine (hranks x (by simp) last (by simp)).bind ?_
    rintro _ rfl
    split
    · rename_i hcontinues
      refine (ih (hranks.mono (by grind))).bind fun n hn => ?_
      exact .cons_cons (eq_of_beq hcontinues) hn
    · exact List.IsChain.singleton _

/-- A run at the front of the items in order, and the items behind it. -/
structure IsFront (rank : α → β) (items run rest : List α) : Prop where
  exists_front : ∃ front, items = front ++ rest ∧ Sorts rank front run
  lt : items ≠ [] → rest.length < items.length

/-- The run at the front comes out in order. -/
theorem gives_frontRun (hranks : Ranks fails lt rank items) :
    Gives fails (fun r => IsFront rank items r.1 r.2) (frontRun lt items) := by
  match items with
  | [] => exact ⟨⟨[], rfl, .of_ascends .nil⟩, fun h => absurd rfl h⟩
  | [x] => exact ⟨⟨[x], rfl, .of_ascends (List.pairwise_singleton _ _)⟩, fun _ => Nat.zero_lt_one⟩
  | x :: y :: rest =>
    refine (hranks y (by simp) x (by simp)).bind ?_
    rintro _ rfl
    refine (gives_runLength (hranks.mono (List.subset_cons_self x _)) _).bind fun n hn => ?_
    have hrun : (x :: y :: rest.take n).IsChain
        fun a b => decide (rank b < rank a) = decide (rank y < rank x) := .cons_cons rfl hn
    refine ⟨⟨x :: y :: rest.take n, by simp, ?_⟩, fun _ => by simp; omega⟩
    by_cases hdescending : rank y < rank x
    · simp only [hdescending, decide_true, decide_eq_true_eq] at hrun ⊢
      have : Trans (fun a b => rank b < rank a) (fun a b => rank b < rank a)
        fun a b => rank b < rank a := ⟨fun hab hbc => lt_trans hbc hab⟩
      have hpairs := List.isChain_iff_pairwise.1 hrun
      exact ⟨List.pairwise_reverse.2 (hpairs.imp le_of_lt), .reverse_of_descending hpairs⟩
    · simp only [hdescending, decide_false, decide_eq_false_iff_not, not_lt] at hrun ⊢
      have : Trans (fun a b => rank a ≤ rank b) (fun a b => rank a ≤ rank b)
        fun a b => rank a ≤ rank b := ⟨le_trans⟩
      exact .of_ascends (List.isChain_iff_pairwise.1 hrun)

/-- A run that is too short gets more items, which are inserted. -/
theorem gives_nextRun (hranks : Ranks fails lt rank items) (shortest : Nat) :
    Gives fails (fun r => IsFront rank items r.1 r.2) (nextRun lt shortest items) := by
  rw [nextRun]
  refine (gives_frontRun hranks).bind fun r hr => ?_
  obtain ⟨⟨front, hitems, hsorts⟩, hlt⟩ := hr
  simp only [List.splitAt_eq]
  have hsplit := List.take_append_drop (shortest - r.1.length) r.2
  rw [← hsplit, ← List.append_assoc] at hitems
  refine (gives_foldlM_insert (hranks.mono ?_) hsorts).bind fun run hrun => ?_
  · rw [hitems]
    exact List.subset_append_left _ _
  · refine ⟨⟨_, hitems, hrun⟩, fun h => lt_of_le_of_lt ?_ (hlt h)⟩
    simp only [List.length_drop]
    omega

/-! ### Runs that wait -/

/-- The runs that wait and the newest one, in the order in which they were taken off, ascend and
have the ties of the items. -/
structure Stacked (rank : α → β) (items : List α) (waiting : List (Run α)) (newest : Run α) :
    Prop where
  ascends : ∀ run ∈ newest :: waiting, Ascends rank run.items
  ties : KeepsTies rank items ((newest :: waiting).reverse.flatMap (·.items))

variable {waiting : List (Run α)} {newest older oldest merged : Run α}

namespace Stacked

theorem mem (h : Stacked rank items waiting newest) {run : Run α} (hrun : run ∈ newest :: waiting) :
    run.items ⊆ items :=
  fun _ ha => h.ties.mem_iff.1 (List.mem_flatMap.2 ⟨run, List.mem_reverse.2 hrun, ha⟩)

/-- A run is merged with the one before. -/
theorem join (h : Stacked rank items (older :: waiting) newest)
    (hmerged : Sorts rank (older.items ++ newest.items) merged.items) :
    Stacked rank items waiting merged := by
  constructor
  · exact List.forall_mem_cons.2 ⟨hmerged.ascends, fun run hrun => h.ascends run (by simp [hrun])⟩
  · refine h.ties.trans ?_
    have hties := hmerged.ties.append_left (waiting.reverse.flatMap (·.items))
    simpa using hties

/-- The two runs before the newest one are merged. -/
theorem joinBelow (h : Stacked rank items (older :: oldest :: waiting) newest)
    (hmerged : Sorts rank (oldest.items ++ older.items) merged.items) :
    Stacked rank items (merged :: waiting) newest := by
  constructor
  · refine List.forall_mem_cons.2 ⟨h.ascends newest (by simp), ?_⟩
    exact List.forall_mem_cons.2 ⟨hmerged.ascends, fun run hrun => h.ascends run (by simp [hrun])⟩
  · refine h.ties.trans ?_
    have hties := (hmerged.ties.append_left (waiting.reverse.flatMap (·.items))).append_right
      newest.items
    simpa using hties

/-- A run is taken off the items behind. -/
theorem push {front : List α} (h : Stacked rank items waiting newest) {older run : Run α}
    (holder : older.items = newest.items) (hrun : Sorts rank front run.items) :
    Stacked rank (items ++ front) (older :: waiting) run := by
  constructor
  · refine List.forall_mem_cons.2 ⟨hrun.ascends, List.forall_mem_cons.2 ⟨?_, ?_⟩⟩
    · rw [holder]
      exact h.ascends newest (by simp)
    · exact fun run hrun => h.ascends run (by simp [hrun])
  · have hties := h.ties.append hrun.ties
    simpa [holder] using hties

/-- Without runs that wait the newest one is all. -/
theorem sorts (h : Stacked rank items [] newest) : Sorts rank items newest.items :=
  ⟨h.ascends newest (by simp), by simpa using h.ties⟩

end Stacked

/-- Two runs of a stack can be merged. -/
theorem Stacked.gives_join (hranks : Ranks fails lt rank items)
    (h : Stacked rank items waiting newest) {front back : Run α}
    (hfront : front ∈ newest :: waiting) (hback : back ∈ newest :: waiting) :
    Merging.Gives fails (fun run => Sorts rank (front.items ++ back.items) run.items)
      (RunSort.join lt front back) := by
  have hboth := hranks.mono (List.append_subset.2 ⟨h.mem hfront, h.mem hback⟩)
  refine (gives_mergeRuns hboth (h.ascends front hfront) (h.ascends back hback)).bind ?_
  exact fun _ hmerged => .pure hmerged

theorem gives_collapse (hranks : Ranks fails lt rank items) (depth : Nat)
    (h : Stacked rank items waiting newest) :
    Merging.Gives fails (fun r => Stacked rank items r.2 r.1)
      (collapse lt depth waiting newest) := by
  induction waiting generalizing newest with
  | nil => exact .pure h
  | cons older waiting ih =>
    rw [collapse]
    refine .ite ?_ (.pure h)
    exact (h.gives_join hranks (by simp) (by simp)).bind fun _ hmerged => ih (h.join hmerged)

theorem gives_mergeNewest (hranks : Ranks fails lt rank items)
    (h : Stacked rank items (older :: waiting) newest) :
    Merging.Gives fails (Sorts rank items) (mergeNewest lt older newest waiting) := by
  induction waiting generalizing older newest with
  | nil =>
    refine (h.gives_join hranks (by simp) (by simp)).bind fun _ hmerged => ?_
    exact .pure (h.join hmerged).sorts
  | cons oldest waiting ih =>
    rw [mergeNewest]
    refine .ite ?_ ?_
    · refine (h.gives_join hranks (by simp) (by simp)).bind fun _ hmerged => ?_
      exact ih (h.joinBelow hmerged)
    · exact (h.gives_join hranks (by simp) (by simp)).bind fun _ hmerged => ih (h.join hmerged)

theorem gives_mergeAll (hranks : Ranks fails lt rank items)
    (h : Stacked rank items waiting newest) :
    Merging.Gives fails (Sorts rank items) (mergeAll lt waiting newest) := by
  cases waiting with
  | nil => exact .pure h.sorts
  | cons older waiting => exact gives_mergeNewest hranks h

theorem gives_mergeItems {size n : Nat} (hranks : Ranks fails lt rank (items ++ rest))
    (h : Stacked rank items waiting newest) (hn : rest.length ≤ n) :
    Merging.Gives fails (Sorts rank (items ++ rest))
      (mergeItems lt size n waiting newest rest) := by
  induction n generalizing items rest waiting newest with
  | zero =>
    rw [Nat.le_zero, List.length_eq_zero_iff] at hn
    subst hn
    rw [List.append_nil] at hranks ⊢
    exact gives_mergeAll hranks h
  | succ n ih =>
    cases rest with
    | nil =>
      rw [List.append_nil] at hranks ⊢
      exact gives_mergeAll hranks h
    | cons x rest =>
      rw [mergeItems]
      refine (Merging.Gives.lift (gives_nextRun (hranks.mono (List.subset_append_right _ _))
        _)).bind fun r hr => ?_
      obtain ⟨⟨front, hitems, hrun⟩, hlt⟩ := hr
      have hlt := hlt (List.cons_ne_nil x rest)
      refine (gives_collapse (hranks.mono (List.subset_append_left _ _)) _ h).bind fun c hc => ?_
      rw [hitems, ← List.append_assoc] at hranks ⊢
      refine ih hranks (hc.push rfl hrun) ?_
      simp only [List.length_cons] at hn hlt
      omega

/-! ### Sorting -/

/-- **Sorting puts the items stably in the order of their ranks**, or fails as a comparison does. -/
theorem gives_sort (hranks : Ranks fails lt rank items) :
    Gives fails (Sorts rank items) (sort lt items) := by
  refine (gives_nextRun hranks _).bind fun r hr => ?_
  obtain ⟨⟨front, hitems, hrun⟩, -⟩ := hr
  have hstart : Stacked rank front [] ⟨0, r.1, 0⟩ :=
    ⟨by simpa using hrun.ascends, by simpa using hrun.ties⟩
  have hlength : r.2.length ≤ items.length := by rw [hitems, List.length_append]; omega
  rw [hitems] at hranks
  have hmerged : Merging.Gives fails (Sorts rank (front ++ r.2))
      (mergeItems lt items.length items.length [] ⟨0, r.1, 0⟩ r.2) :=
    gives_mergeItems hranks hstart hlength
  rw [← hitems] at hmerged
  exact (hmerged firstPatience).bind fun _ hc => hc

/-- Sorting in a direction keeps ties as they stood in both directions. -/
theorem gives_sortIn (hranks : Ranks fails lt rank items) (descending : Bool) :
    Gives fails (StablyOrdered (fun a b => if descending then rank b < rank a else rank a < rank b)
      items) (sortIn lt descending items) := by
  cases descending with
  | false => exact (gives_sort hranks).mono fun _ h => h.stablyOrdered
  | true =>
    have hranks := hranks.mono (List.reverse_subset.2 (List.Subset.refl items))
    exact (gives_sort hranks).bind fun _ h => h.stablyOrdered.reverse

end RecordQuery.RunSort
