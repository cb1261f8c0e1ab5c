import RecordQuery.Value.Equality

/-!
The order of values: numbers by size, texts by code point, sequences by their first difference, and
instances of ordered data classes by their fields. Values of other kinds, or of different kinds, are
not ordered, and comparing them is a fault.
-/

namespace RecordQuery

/-- The four ordering comparisons. -/
inductive Comparison where
  | lt | le | gt | ge
deriving DecidableEq, Repr, Inhabited

namespace Comparison

def holds : Comparison → Ordering → Bool
  | .lt, o => o == .lt
  | .le, o => o != .gt
  | .gt, o => o == .gt
  | .ge, o => o != .lt

/-- The comparison with its sides exchanged. -/
def swap : Comparison → Comparison
  | .lt => .gt
  | .le => .ge
  | .gt => .lt
  | .ge => .le

theorem holds_swap (c : Comparison) (o : Ordering) : c.swap.holds o.swap = c.holds o := by
  cases c <;> cases o <;> rfl

end Comparison

namespace Value

/-- The order of byte sequences. -/
def compareBytes : List UInt8 → List UInt8 → Ordering
  | [], [] => .eq
  | [], _ => .lt
  | _, [] => .gt
  | a :: as, b :: bs => if a < b then .lt else if b < a then .gt else compareBytes as bs

/-- Are instances of the class ordered, and if so, by what fields? -/
def orderedFields? (catalog : Catalog) (cls : String) : Option (List String) :=
  match (catalog.lineage cls).reverse.find? (·.kind matches .data _ true) with
  | some c => some ((catalog.dataFields c.name).map (·.name))
  | none => none

/-- The order of values that hold no other values. -/
def compareAtoms (c : Comparison) (a b : Value) : Except Error Bool :=
  match a.number?, b.number? with
  | some x, some y => .ok ((x.compare? y).any c.holds)
  | _, _ =>
    match a, b with
    | .str s, .str t => .ok (c.holds (compare s t))
    | .bytes s, .bytes t => .ok (c.holds (compareBytes s t))
    | _, _ => fail .wrongType

variable (parts : Value → Value → Except Error Bool)

/-- Sequences are compared at their first difference, and by length if there is none. -/
def comparesItems (catalog : Catalog) (c : Comparison) :
    List Value → List Value → Except Error Bool
  | [], [] => .ok (c.holds .eq)
  | [], _ => .ok (c.holds .lt)
  | _, [] => .ok (c.holds .gt)
  | a :: as, b :: bs => do
    if ← a.matching catalog b then comparesItems catalog c as bs else parts a b

/-- The comparison of values whose parts are compared by `parts`. -/
def comparesBy (catalog : Catalog) (c : Comparison) : Value → Value → Except Error Bool
  | .list as, .list bs => comparesItems parts catalog c as bs
  | .tuple as, .tuple bs => comparesItems parts catalog c as bs
  | .record cls _ as, .record cls' _ bs =>
    match if cls = cls' then orderedFields? catalog cls else none with
    | some fields => do
      let xs ← fields.mapM (catalog.attributeOf cls as)
      let ys ← fields.mapM (catalog.attributeOf cls bs)
      comparesItems parts catalog c xs ys
    | none => fail .wrongType
  | a, b => compareAtoms c a b

/-- The comparison of values that nest less deep than `depth`. -/
def comparesWithin (catalog : Catalog) (c : Comparison) :
    (depth : Nat) → Value → Value → Except Error Bool
  | 0 => fun _ _ => fail .tooDeep
  | depth + 1 => comparesBy (comparesWithin catalog c depth) catalog c

/-- Does the comparison hold of the values? -/
def compares (catalog : Catalog) (c : Comparison) (a b : Value) : Except Error Bool :=
  comparesWithin catalog c (max (catalog.nesting a) (catalog.nesting b) + 1) a b

end Value
end RecordQuery
