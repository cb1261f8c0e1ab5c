import RecordQuery.Value.Format
import RecordQuery.Value.Order

/-!
The operators on values. Integers are exact; an integer meeting a double becomes one, and fails if
it is too large. Texts and sequences are joined and repeated. Where one side is a captured
expression the operator is captured instead of computed: see `Value.operate`.
-/

namespace RecordQuery.Value

/-- A pair of numbers of one kind. -/
inductive NumberPair where
  | ints (a b : Int)
  | floats (a b : Double)

/-- Two numbers brought to one kind. -/
def pairUp : Number → Number → Except Error NumberPair
  | .int i, .int j => .ok (.ints i j)
  | .int i, .float e => do return .floats (← doubleOfInt i) e
  | .float d, .int j => do return .floats d (← doubleOfInt j)
  | .float d, .float e => .ok (.floats d e)

/-- Two values as numbers of one kind, if they are numbers. -/
def numbers? (a b : Value) : Option (Except Error NumberPair) :=
  match a.number?, b.number? with
  | some x, some y => some (pairUp x y)
  | _, _ => none

def add (a b : Value) : Except Error Value :=
  match numbers? a b with
  | some p => do
    match ← p with
    | .ints i j => return .int (i + j)
    | .floats d e => return .float (d.add e)
  | none =>
    match a, b with
    | .str s, .str t => .ok (.str (s ++ t))
    | .bytes s, .bytes t => .ok (.bytes (s ++ t))
    | .list xs, .list ys => .ok (.list (xs ++ ys))
    | .tuple xs, .tuple ys => .ok (.tuple (xs ++ ys))
    | _, _ => fail .wrongType

def sub (a b : Value) : Except Error Value :=
  match numbers? a b with
  | some p => do
    match ← p with
    | .ints i j => return .int (i - j)
    | .floats d e => return .float (d.sub e)
  | none => fail .wrongType

/-- The most items that repetition makes. -/
def itemLimit : Int := Int.pow 2 27

/-- The items repeated; a count below zero gives none. The count has to fit a word of 64 bits; more
items than fit one end in the given fault. -/
def repeated {α : Type} (tooMany : Fault) (items : List α) (count : Int) :
    Except Error (List α) :=
  if count < -Int.pow 2 63 || Int.pow 2 63 ≤ count then fail .overflow
  else if Int.pow 2 63 ≤ items.length * count then fail tooMany
  else if itemLimit < items.length * count then fail .outOfMemory
  else .ok (List.replicate (if items.isEmpty then 0 else count.toNat) items).flatten

/-- A sequence repeated. -/
def times (v : Value) (count : Int) : Except Error Value :=
  match v with
  | .str s => do return .str (String.ofList (← repeated .overflow s.toList count))
  | .bytes bs => do return .bytes (← repeated .overflow bs count)
  | .list xs => do return .list (← repeated .outOfMemory xs count)
  | .tuple xs => do return .tuple (← repeated .outOfMemory xs count)
  | _ => fail .wrongType

def mul (a b : Value) : Except Error Value :=
  match numbers? a b with
  | some p => do
    match ← p with
    | .ints i j => return .int (i * j)
    | .floats d e => return .float (d.mul e)
  | none =>
    match a.index?, b.index? with
    | _, some n => a.times n
    | some n, _ => b.times n
    | none, none => fail .wrongType

def div (a b : Value) : Except Error Value :=
  match numbers? a b with
  | some p => do
    match ← p with
    | .ints i j =>
      if j = 0 then fail .divisionByZero
      else
        match Double.ofQuotient? i j with
        | some d => return .float d
        | none => fail .overflow
    | .floats d e => if e.isZero then fail .divisionByZero else return .float (d.div e)
  | none => fail .wrongType

def mod (catalog : Catalog) (a b : Value) : Except Error Value :=
  match numbers? a b with
  | some p => do
    match ← p with
    | .ints i j => if j = 0 then fail .divisionByZero else return .int (Int.fmod i j)
    | .floats d e => if e.isZero then fail .divisionByZero else return .float (d.mod e)
  | none => a.format catalog b

/-- A bit of an integer in two's complement. -/
def bitwise (f : Bool → Bool → Bool) (a b : Int) : Int :=
  let width := max (Nat.log2 a.natAbs) (Nat.log2 b.natAbs) + 2
  let bits (i : Int) : Nat := (i % (Nat.pow 2 width : Nat)).toNat
  let n := Nat.bitwise f (bits a) (bits b)
  if Nat.pow 2 (width - 1) ≤ n then (n : Int) - (Nat.pow 2 width : Nat) else n

/-- `a & b` and `a | b` on integers and truth values, and the union of two mappings. -/
def combine (catalog : Catalog) (isAnd : Bool) (a b : Value) : Except Error Value :=
  match a, b with
  | .bool p, .bool q => .ok (.bool (if isAnd then p && q else p || q))
  | .dict es, .dict fs =>
    if isAnd then fail .wrongType
    else .ok (.dict (fs.foldl (fun all (k, v) => putEntry catalog k v all) es))
  | a, b =>
    match a.index?, b.index? with
    | some i, some j => .ok (.int (bitwise (if isAnd then (· && ·) else (· || ·)) i j))
    | _, _ => fail .wrongType

/-- `~a`: a captured negation, or the complement of an integer. -/
def invert : Value → Except Error Value
  | .expr e => .ok (.expr (.unary .not e))
  | v =>
    match v.index? with
    | some i => .ok (.int (-i - 1))
    | none => fail .wrongType

/-- The operator applied to values that are no captured expressions. -/
def operatePlain (catalog : Catalog) (op : BinaryOp) (a b : Value) : Except Error Value :=
  match op with
  | .add => a.add b
  | .sub => a.sub b
  | .mul => a.mul b
  | .div => a.div b
  | .mod => a.mod catalog b
  | .eq => do return .bool (← a.equal catalog b)
  | .ne => do return .bool !(← a.equal catalog b)
  | .lt => do return .bool (← compares catalog .lt a b)
  | .le => do return .bool (← compares catalog .le a b)
  | .gt => do return .bool (← compares catalog .gt a b)
  | .ge => do return .bool (← compares catalog .ge a b)
  | .and => combine catalog true a b
  | .or => combine catalog false a b
  | .other _ => fail .wrongType

/-- The operator with a captured expression on its right only. Sums, differences and products keep
their sides; comparisons are captured with their sides exchanged; a text formats the expression; the
other operators cannot be captured from this side. -/
def operateReflected (catalog : Catalog) (op : BinaryOp) (a : Value) (e : Expr) :
    Except Error Value :=
  match op with
  | .add | .sub | .mul => .ok (.expr (.binary op (.literal a) e))
  | .eq | .ne => .ok (.expr (.binary op e (.literal a)))
  | .lt => .ok (.expr (.binary .gt e (.literal a)))
  | .le => .ok (.expr (.binary .ge e (.literal a)))
  | .gt => .ok (.expr (.binary .lt e (.literal a)))
  | .ge => .ok (.expr (.binary .le e (.literal a)))
  | .mod => a.mod catalog (.expr e)
  | _ => fail .wrongType

/-- The operator applied to two values, or captured if one of them is a captured expression. -/
def operate (catalog : Catalog) (op : BinaryOp) (a b : Value) : Except Error Value :=
  match a, b with
  | .expr e, b => .ok (.expr (.binary op e b.lift))
  | a, .expr e => operateReflected catalog op a e
  | a, b => operatePlain catalog op a b

end RecordQuery.Value
