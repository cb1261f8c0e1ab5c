import RecordQuery.Query.RunMerge
import RecordQuery.Query.RunInsertion

/-!
Stable sorting by merging the runs that the items come in. Neighbouring runs are merged in the order
of a balanced tree over the positions: every boundary between runs has a depth in it, and the deeper
boundaries go first. Under a total order the outcome is that of every stable sort.
-/

namespace RecordQuery.RunSort

variable {α : Type} (lt : α → α → Except Error Bool)

/-- A run that waits to be merged: its position, its items, and the depth of the boundary behind it
once there is a run behind. -/
structure Run (α : Type) where
  start : Nat
  items : List α
  depth : Nat := 0

/-- How long a run is made at least: the items in halves of halves, down to less than 64, each of
them rounded up. -/
def shortestRun (size : Nat) : Nat :=
  let part := Nat.pow 2 (size.log2 - 5)
  (size + part - 1) / part

/-- The depth of the boundary between two neighbouring runs: at which binary digit the positions of
their middles, as parts of the whole, first differ. -/
def boundaryDepth (size start front back : Nat) : Nat :=
  let middle := 2 * start + front
  let next := middle + front + back
  let digit (k position : Nat) : Nat := Nat.pow 2 k * position / size
  ((List.range (size.log2 + 1)).find? fun k => digit k middle != digit k next).getD 0 + 1

/-- The run at the front, made longer by inserting items into it if it is too short, beside the
items behind it. -/
def nextRun (shortest : Nat) (items : List α) : Except Error (List α × List α) := do
  let (run, rest) ← frontRun lt items
  let (short, rest) := rest.splitAt (shortest - run.length)
  return (← short.foldlM (insert lt) run, rest)

/-- Merges a run with the one behind it. -/
def join (front back : Run α) : Merging (Run α) := do
  return { front with items := ← mergeRuns lt front.items back.items }

/-- Merges the newest run with the waiting ones as long as the boundary between them is deeper than
the given one: the run that comes of it, and those that go on waiting. -/
def collapse (depth : Nat) : List (Run α) → Run α → Merging (Run α × List (Run α))
  | [], newest => return (newest, [])
  | older :: waiting, newest =>
    if depth < older.depth then do collapse depth waiting (← join lt older newest)
    else return (newest, older :: waiting)

/-- Merges two runs and all that waits, a run always with the shorter one of its neighbours. -/
def mergeNewest (older newest : Run α) : List (Run α) → Merging (List α)
  | [] => return (← join lt older newest).items
  | oldest :: waiting =>
    if oldest.items.length < newest.items.length then do
      mergeNewest (← join lt oldest older) newest waiting
    else do mergeNewest oldest (← join lt older newest) waiting

/-- Merges all runs. -/
def mergeAll (waiting : List (Run α)) (newest : Run α) : Merging (List α) :=
  match waiting with
  | [] => return newest.items
  | older :: waiting => mergeNewest lt older newest waiting

/-- Takes run after run off the items. A boundary that is not as deep as those before it has them
merged first. The number bounds the runs. -/
def mergeItems (size : Nat) : Nat → List (Run α) → Run α → List α → Merging (List α)
  | n + 1, waiting, newest, x :: items => do
    let (run, rest) ← nextRun lt (shortestRun size) (x :: items)
    let depth := boundaryDepth size newest.start newest.items.length run.length
    let (merged, waiting) ← collapse lt depth waiting newest
    mergeItems size n ({ merged with depth } :: waiting)
      ⟨newest.start + newest.items.length, run, 0⟩ rest
  | _, waiting, newest, _ => mergeAll lt waiting newest

/-- The patience of the first merge. -/
def firstPatience : Nat :=
  7

/-- The items in ascending order; equal items keep their order. -/
def sort (items : List α) : Except Error (List α) := do
  let (run, rest) ← nextRun lt (shortestRun items.length) items
  (mergeItems lt items.length items.length [] ⟨0, run, 0⟩ rest).run' firstPatience

/-- The items in ascending or descending order; equal items keep their order in both. -/
def sortIn (descending : Bool) (items : List α) : Except Error (List α) :=
  if descending then do return (← sort lt items.reverse).reverse else sort lt items

end RecordQuery.RunSort
