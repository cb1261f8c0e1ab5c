import RecordQuery.Record.Instance

/-!
Equality of values. Numbers are equal across their kinds, instances of data classes when they are of
one class and their fields are equal, instances of plain classes only when they are the same
instance. Parts of values are equal too when they are the same object, whatever they are compared
by. A captured expression has no truth value, so comparing it as a part fails.
-/

namespace RecordQuery

/-- A number of either kind. -/
inductive Number where
  | int (i : Int)
  | float (d : Double)
deriving DecidableEq, Repr, Inhabited

namespace Number

/-- The order of two numbers, exact across kinds; nothing is said of a NaN. -/
def compare? : Number → Number → Option Ordering
  | .int i, .int j => some (compare i j)
  | .int i, .float d => (d.compareInt? i).map (·.swap)
  | .float d, .int i => d.compareInt? i
  | .float d, .float e => d.compare? e

end Number

namespace Value

/-- The number that a value is; truth values count as 0 and 1. -/
def number? : Value → Option Number
  | .bool b => some (.int (if b then 1 else 0))
  | .int i => some (.int i)
  | .float d => some (.float d)
  | _ => none

/-- The truth of a value: numbers other than zero, containers and texts that are not empty, and all
objects are true; null is false. -/
def truthy : Value → Except Error Bool
  | .null => .ok false
  | .bool b => .ok b
  | .int i => .ok (i != 0)
  | .float d => .ok !d.isZero
  | .str s => .ok !s.isEmpty
  | .bytes bs => .ok !bs.isEmpty
  | .list items | .tuple items => .ok !items.isEmpty
  | .dict entries => .ok !entries.isEmpty
  | .expr _ => .error .noTruthValue
  | .schema s => .ok !s.fields.isEmpty
  | _ => .ok true

/-- The two values are known to be the same object. Only values that may differ from themselves, or
that cannot be compared, are looked at: a NaN by its mark, an instance by its number, a bare
parameter by its key. -/
def identical : Value → Value → Bool
  | .float (.nan a), .float (.nan b) => a == b && a != 0
  | .record c i _, .record d j _ => c == d && i == j && i != 0
  | .expr (.param p), .expr (.param q) => p.key == q.key
  | _, _ => false

/-- Equality of values that hold no other values. -/
def sameAtom (a b : Value) : Bool :=
  match a.number?, b.number? with
  | some x, some y => x.compare? y == some .eq
  | some _, none | none, some _ => false
  | none, none =>
    match a, b with
    | .null, .null => true
    | .str s, .str t => s == t
    | .bytes s, .bytes t => s == t
    | .proxy p, .proxy q => p.key == q.key
    | .schema s, .schema t => s.key.same t.key
    | .field f, .field g => f.name == g.name && f.type.same g.type
    | .type s, .type t => s.same t
    | .type t, .str s | .str s, .type t => t.same (.text s)
    | .method a m, .method b n => a.identical b && m == n
    | .object s t, .object u v => s == u && t == v
    | _, _ => false

variable (parts : Value → Value → Except Error Bool)

/-- Are the items equal one by one, as far as both sequences go, and do the sequences end together?
-/
def equalItems : List Value → List Value → Except Error Bool
  | [], [] => .ok true
  | a :: as, b :: bs => do
    if a.identical b then equalItems as bs
    else if ← parts a b then equalItems as bs
    else return false
  | _, _ => .ok false

/-- The value under a key. Keys that cannot be compared are different. -/
def findEntry (key : Value) : List (Value × Value) → Option Value
  | [] => none
  | (k, v) :: rest =>
    if k.identical key || (parts k key).toOption.getD false then some v else findEntry key rest

/-- Has every entry an equal one among the others? -/
def equalEntries : List (Value × Value) → List (Value × Value) → Except Error Bool
  | [], _ => .ok true
  | (k, v) :: as, bs =>
    match findEntry parts k bs with
    | some w => do
      if w.identical v then equalEntries as bs
      else if ← parts w v then equalEntries as bs
      else return false
    | none => .ok false

/-- Equality of values whose parts are compared by `parts`. -/
def equalBy (catalog : Catalog) : Value → Value → Except Error Bool
  | .list as, .list bs => if as.length = bs.length then equalItems parts as bs else .ok false
  | .tuple as, .tuple bs => equalItems parts as bs
  | .dict as, .dict bs => if as.length = bs.length then equalEntries parts as bs else .ok false
  | .record c i as, .record d j bs =>
    if c ≠ d then .ok false
    else if (catalog.dataClass? c).isSome then do
      let xs ← catalog.fieldValues c as
      let ys ← catalog.fieldValues c bs
      equalItems parts xs ys
    else .ok (i == j && i != 0)
  | .expr _, _ | _, .expr _ => .error .noTruthValue
  | a, b => .ok (a.sameAtom b)

/-- Equality of values that nest less deep than `depth`. -/
def equalWithin (catalog : Catalog) : (depth : Nat) → Value → Value → Except Error Bool
  | 0 => fun _ _ => fail .tooDeep
  | depth + 1 => equalBy (equalWithin catalog depth) catalog

/-- Are the values equal? -/
def equal (catalog : Catalog) (a b : Value) : Except Error Bool :=
  equalWithin catalog (max (catalog.nesting a) (catalog.nesting b) + 1) a b

/-- Are the values the same object, or equal? -/
def matching (catalog : Catalog) (a b : Value) : Except Error Bool :=
  if a.identical b then .ok true else a.equal catalog b

/-- Does the value match one of the list? -/
def occursIn (catalog : Catalog) (v : Value) : List Value → Except Error Bool
  | [] => .ok false
  | w :: ws => do
    if ← w.matching catalog v then return true
    occursIn catalog v ws

end Value
end RecordQuery
