import RecordQuery.Error

/-!
Short runs. The run at the front of a list is kept, reversed if it is strictly descending, and a
further item is put behind all sorted items that are not greater, by halving the range of positions.
The first failing comparison fails either.
-/

namespace RecordQuery.RunSort

variable {α : Type} (lt : α → α → Except Error Bool)

/-- How many further items continue a run whose last item is given: a run is strictly descending, or
never descending. -/
def runLength (descending : Bool) (last : α) : List α → Except Error Nat
  | [] => .ok 0
  | x :: xs => do
    if (← lt x last) == descending then return (← runLength descending x xs) + 1
    return 0

/-- The run at the front in ascending order, beside the items behind it. -/
def frontRun : List α → Except Error (List α × List α)
  | x :: y :: rest => do
    let descending ← lt y x
    let more ← runLength lt descending y rest
    let run := x :: y :: rest.take more
    return (if descending then run.reverse else run, rest.drop more)
  | items => .ok (items, [])

/-- The position between `low` and `high` behind all items that are not greater than the given one,
found by halving the range. -/
def position (x : α) (sorted : List α) (low high : Nat) : Except Error Nat :=
  if low < high then
    let middle := low + (high - low) / 2
    match sorted[middle]? with
    | none => .ok low
    | some y => do
      if ← lt x y then position x sorted low middle else position x sorted (middle + 1) high
  else .ok low
termination_by high - low

/-- The sorted items with one more in its place. -/
def insert (sorted : List α) (x : α) : Except Error (List α) := do
  let p ← position lt x sorted 0 sorted.length
  return sorted.take p ++ x :: sorted.drop p

end RecordQuery.RunSort
