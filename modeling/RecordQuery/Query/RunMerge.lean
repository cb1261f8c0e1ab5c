import RecordQuery.Error

/-!
The stable merge of two neighbouring runs. Items leave the runs one by one; once several in a row
have left the same run, it is searched for how many more leave together. Under a total order all
this only saves comparisons. A comparison without one, such as a comparison of doubles among which
some are NaN, shows in the outcome which pairs were compared, so the pairs are fixed here.
-/

namespace RecordQuery

/-- Merging under a patience: how many items in a row must leave the same run before it is searched.
The patience is kept from one merge to the next. -/
abbrev Merging := StateT Nat (Except Error)

/-- The end at which a merge begins: with the least items, or with the greatest. -/
inductive MergeEnd where
  | front | back
deriving DecidableEq, Repr

/-- The middle between two distances; of two middles the one nearer to the back of the run. -/
def MergeEnd.middle (e : MergeEnd) (low high : Nat) : Nat :=
  match e with
  | .front => low + (high - low) / 2
  | .back => low + (high - low - 1) / 2

theorem MergeEnd.middle_mem (e : MergeEnd) {low high : Nat} (h : low < high) :
    low ≤ e.middle low high ∧ e.middle low high < high := by
  cases e <;> simp only [middle] <;> omega

/-- A merge under way. All lists begin at the end at which the merge began. -/
structure RunMerge (α : Type) where
  /-- The merged items, the last one first. -/
  taken : List α
  /-- What is left of the shorter run. -/
  held : List α
  /-- What is left of the longer run. -/
  other : List α

/-- How a merge goes on: item by item, with how many in a row have left each run, or by search. -/
inductive MergePace where
  | single (fromHeld fromOther : Nat)
  | searching

namespace RunMerge

variable {α : Type}

/-- From the distance `low`, at which the items still leave, to one that is twice as far and one
more, and so on, up to the first at which they do not: the last two distances. -/
def reach (leaves : Nat → Except Error Bool) (size low high : Nat) : Except Error (Nat × Nat) :=
  if high < size then do
    if ← leaves high then reach leaves size high (2 * high + 1) else return (low, high)
  else .ok (low, size)
termination_by size - high

/-- The distance between two others from which on the items do not leave, by halving. -/
def narrow (e : MergeEnd) (leaves : Nat → Except Error Bool) (low high : Nat) : Except Error Nat :=
  if h : low < high then do
    if ← leaves (e.middle low high) then narrow e leaves (e.middle low high + 1) high
    else narrow e leaves low (e.middle low high)
  else .ok low
termination_by high - low
decreasing_by
  all_goals
    have hmiddle := e.middle_mem h
    omega

/-- How many items of a run leave together. -/
def stretch (e : MergeEnd) (leaves : α → Except Error Bool) (items : List α) :
    Except Error Nat := do
  let leavesAt (i : Nat) : Except Error Bool := (items[i]?.map leaves).getD (.ok false)
  if ← leavesAt 0 then
    let (low, high) ← reach leavesAt items.length 0 1
    narrow e leavesAt (low + 1) high
  else return 0

/-- What is left when no more is to be compared: one run is used up, or the shorter one is down to
the item that comes last. -/
def rest? (m : RunMerge α) : Option (List α) :=
  match m.held, m.other with
  | held, [] => some held
  | [], other => some other
  | [x], other => some (other ++ [x])
  | _, _ => none

def takeHeld (n : Nat) (m : RunMerge α) : RunMerge α :=
  { m with taken := (m.held.take n).reverse ++ m.taken, held := m.held.drop n }

def takeOther (n : Nat) (m : RunMerge α) : RunMerge α :=
  { m with taken := (m.other.take n).reverse ++ m.taken, other := m.other.drop n }

variable (lt : α → α → Except Error Bool) (e : MergeEnd)

/-- Does an item of the longer run leave before one of the shorter run? The shorter run is the front
one in a merge from the front, and the back one in a merge from the back, and between equal items
neither does the front one lose its place. -/
def otherFirst (held other : α) : Except Error Bool :=
  match e with
  | .front => lt other held
  | .back => lt held other

/-- Takes what leaves the shorter run before the next item of the longer one, and then that item,
with how many the former were. -/
def searchHeld (m : RunMerge α) : Except Error (Nat × RunMerge α) :=
  match m.rest?, m.other with
  | none, y :: _ => do
    let n ← stretch e (fun x => return !(← otherFirst lt e x y)) m.held
    let m := m.takeHeld n
    return (n, if m.rest?.isSome then m else m.takeOther 1)
  | _, _ => .ok (0, m)

/-- Takes what leaves the longer run before the next item of the shorter one, and then that item,
with how many the former were. -/
def searchOther (m : RunMerge α) : Except Error (Nat × RunMerge α) :=
  match m.rest?, m.held with
  | none, x :: _ => do
    let n ← stretch e (otherFirst lt e x) m.other
    let m := m.takeOther n
    return (n, if m.rest?.isSome then m else m.takeHeld 1)
  | _, _ => .ok (0, m)

/-- A search of both runs, the front one first, with how many items left each. -/
def searchBoth (m : RunMerge α) : Except Error (Nat × Nat × RunMerge α) := do
  match e with
  | .front =>
    let (a, m) ← searchHeld lt e m
    let (b, m) ← searchOther lt e m
    return (a, b, m)
  | .back =>
    let (a, m) ← searchOther lt e m
    let (b, m) ← searchHeld lt e m
    return (a, b, m)

/-- How many items a search has to find for the next one to follow at once. -/
def worthwhile : Nat :=
  7

/-- One item leaves, or one search is made. The patience falls with every search that follows
another, and rises when searching ends. -/
def step (pace : MergePace) (m : RunMerge α) : Merging (MergePace × RunMerge α) := do
  match pace, m.held, m.other with
  | .single fromHeld fromOther, x :: _, y :: _ =>
    let fromOtherNow ← otherFirst lt e x y
    let inRow := (if fromOtherNow then fromOther else fromHeld) + 1
    let m := if fromOtherNow then m.takeOther 1 else m.takeHeld 1
    if m.rest?.isSome || inRow < (← get) then
      return (if fromOtherNow then .single 0 inRow else .single inRow 0, m)
    else
      modify (· + 1)
      return (.searching, m)
  | _, _, _ =>
    modify fun patience => max 1 (patience - 1)
    let (a, b, m) ← searchBoth lt e m
    if m.rest?.isSome || a ≥ worthwhile || b ≥ worthwhile then return (.searching, m)
    modify (· + 1)
    return (.single 0 0, m)

/-- The merged items. The number bounds the steps. -/
def run : Nat → MergePace → RunMerge α → Merging (List α)
  | 0, _, m => return m.taken.reverse ++ m.held ++ m.other
  | n + 1, pace, m =>
    match m.rest? with
    | some rest => return m.taken.reverse ++ rest
    | none => do
      let (pace, m) ← step lt e pace m
      run n pace m

/-- Merges the shorter run with the longer one, of which one item is known to leave first. Every
step takes an item, so the items bound the steps. -/
def ofRuns (held other : List α) : Merging (List α) :=
  run lt e (held.length + other.length + 1) (.single 0 0) (takeOther 1 ⟨[], held, other⟩)

end RunMerge

variable {α : Type} (lt : α → α → Except Error Bool)

/-- Merges two neighbouring runs that overlap: the merge begins at the end of the longer one. -/
def mergeOverlap (front back : List α) : Merging (List α) :=
  if back.isEmpty then return front
  else if front.length ≤ back.length then RunMerge.ofRuns lt .front front back
  else List.reverse <$> RunMerge.ofRuns lt .back back.reverse front.reverse

/-- Merges two neighbouring runs, of which the front one has the given last item. The back items
that are not less than it stay where they are. -/
def mergeUpTo (front : List α) (last : α) (back : List α) : Merging (List α) := do
  let n ← RunMerge.stretch .back (fun x => return !(← lt x last)) back.reverse
  let (back, behind) := back.splitAt (back.length - n)
  return (← mergeOverlap lt front back) ++ behind

/-- Merges two neighbouring runs. The front items that are not greater than the first of the back
ones stay where they are. -/
def mergeRuns (front back : List α) : Merging (List α) :=
  match back with
  | [] => return front
  | first :: _ => do
    let n ← RunMerge.stretch .front (fun x => return !(← lt first x)) front
    let (kept, front) := front.splitAt n
    match front.getLast? with
    | none => return kept ++ back
    | some last => return kept ++ (← mergeUpTo lt front last back)

end RecordQuery
