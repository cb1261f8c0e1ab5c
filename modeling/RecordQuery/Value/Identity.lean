import RecordQuery.Value.Basic

/-!
Telling values apart. A NaN and an instance are objects of their own: new ones carry the number 0,
and get numbers that no other value has before they meet others.
-/

namespace RecordQuery

/-- Numbers that are handed out in order. -/
abbrev Numbering := StateM Nat

/-- A number that was not handed out before. -/
def nextNumber : Numbering Nat :=
  modifyGet fun n => (n, n + 1)

mutual

/-- The value with a number for everything in it that has none. -/
def Value.numbered : Value → Numbering Value
  | .float (.nan 0) => do return .float (.nan (← nextNumber))
  | .list items => do return .list (← numberedItems items)
  | .tuple items => do return .tuple (← numberedItems items)
  | .dict entries => do return .dict (← numberedEntries entries)
  | .record cls serial attrs => do
    let attrs ← numberedAttrs attrs
    let serial ← if serial = 0 then nextNumber else pure serial
    return .record cls serial attrs
  | v => return v

def numberedItems : List Value → Numbering (List Value)
  | [] => return []
  | v :: vs => do
    let v ← v.numbered
    return v :: (← numberedItems vs)

def numberedEntries : List (Value × Value) → Numbering (List (Value × Value))
  | [] => return []
  | (k, v) :: rest => do
    let k ← k.numbered
    let v ← v.numbered
    return (k, v) :: (← numberedEntries rest)

def numberedAttrs : List (String × Value) → Numbering (List (String × Value))
  | [] => return []
  | (n, v) :: rest => do
    let v ← v.numbered
    return (n, v) :: (← numberedAttrs rest)

end

end RecordQuery
