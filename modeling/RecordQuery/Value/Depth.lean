import RecordQuery.Value.Basic

/-!
How deep values nest. Comparing, showing and looking up values goes down into their parts, and the
depth says how many steps that takes at most.
-/

namespace RecordQuery

mutual

/-- How deep a value nests; a value without parts has depth 0. -/
def Value.depth : Value → Nat
  | .list items | .tuple items => depthOfValues items + 1
  | .dict entries => depthOfEntries entries + 1
  | .record _ _ attrs => depthOfAttrs attrs + 1
  | .expr e => e.depth + 1
  | .method receiver _ => receiver.depth + 1
  | _ => 0

/-- How deep the values in an expression nest. -/
def Expr.depth : Expr → Nat
  | .literal v => v.depth
  | .binary _ l r => max l.depth r.depth
  | .unary _ e => e.depth
  | .call _ args named none => max (depthOfValues args) (depthOfAttrs named)
  | .call _ args named (some e) => max e.depth (max (depthOfValues args) (depthOfAttrs named))
  | _ => 0

def depthOfValues : List Value → Nat
  | [] => 0
  | v :: vs => max v.depth (depthOfValues vs)

def depthOfEntries : List (Value × Value) → Nat
  | [] => 0
  | (k, v) :: rest => max (max k.depth v.depth) (depthOfEntries rest)

def depthOfAttrs : List (String × Value) → Nat
  | [] => 0
  | (_, v) :: rest => max v.depth (depthOfAttrs rest)

end

theorem Value.depth_le_of_mem {v : Value} {vs : List Value} (h : v ∈ vs) :
    v.depth ≤ depthOfValues vs := by
  induction vs with
  | nil => cases h
  | cons w ws ih =>
    rw [depthOfValues]
    cases h with
    | head => exact Nat.le_max_left ..
    | tail _ h => exact Nat.le_trans (ih h) (Nat.le_max_right ..)

end RecordQuery
