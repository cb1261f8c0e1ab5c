/-!
Double-precision numbers as exact values. A finite double is `± mantissa * 2 ^ exponent`; every
operation computes on integers and rounds once, to the nearest double and to the even mantissa on a
tie. `ofRatio` is the only place where rounding happens, so all finite doubles come in one form:
the mantissa has 53 bits unless the exponent is the least one.
-/

namespace RecordQuery

/-- A double-precision number. Zero has the least exponent and keeps its sign. The `mark` of a NaN
tells apart NaNs that came in separately; it has no part in arithmetic or comparisons, and what is
computed carries the mark 0, which tells nothing. -/
inductive Double where
  | nan (mark : Nat)
  | infinity (negative : Bool)
  | finite (negative : Bool) (mantissa : Nat) (exponent : Int)
deriving DecidableEq, Repr, Inhabited

namespace Double

/-- The exponent of the smallest positive double. -/
def leastExponent : Int := -1074

/-- The exponent of the largest finite double. -/
def greatestExponent : Int := 971

def zero (negative : Bool) : Double := .finite negative 0 leastExponent

/-- A double from a mantissa of at most 54 bits that is already at its final exponent. -/
def pack (negative : Bool) (mantissa : Nat) (exponent : Int) : Double :=
  let carried :=
    if mantissa = Nat.pow 2 53 then (Nat.pow 2 52, exponent + 1) else (mantissa, exponent)
  if greatestExponent < carried.2 then .infinity negative
  else .finite negative carried.1 carried.2

/-- `num / den / 2 ^ exponent` as a fraction of natural numbers. -/
def scaleDown (num den : Nat) (exponent : Int) : Nat × Nat :=
  if 0 ≤ exponent then (num, den <<< exponent.toNat) else (num <<< (-exponent).toNat, den)

/-- The quotient rounded to the nearest integer, ties to the even one. -/
def roundQuotient (num den : Nat) : Nat :=
  let q := num / den
  let twice := 2 * (num % den)
  if twice < den then q
  else if den < twice then q + 1
  else if q % 2 = 0 then q else q + 1

/-- The exponent at which the quotient has a mantissa of 53 bits, or the least one. -/
def quotientExponent (num den : Nat) : Int :=
  let guess := (Nat.log2 num : Int) - Nat.log2 den - 52
  let scaled := scaleDown num den guess
  max leastExponent (if scaled.1 < scaled.2 * Nat.pow 2 52 then guess - 1 else guess)

/-- The double nearest to `± num / den`. -/
def ofRatio (negative : Bool) (num den : Nat) : Double :=
  if num = 0 then zero negative
  else
    let exponent := quotientExponent num den
    let scaled := scaleDown num den exponent
    pack negative (roundQuotient scaled.1 scaled.2) exponent

/-- The double nearest to `value * 2 ^ exponent`; an exact zero gets the given sign. -/
def ofScaled (value : Int) (exponent : Int) (zeroSign : Bool) : Double :=
  if value = 0 then zero zeroSign
  else if 0 ≤ exponent then ofRatio (value < 0) (value.natAbs <<< exponent.toNat) 1
  else ofRatio (value < 0) value.natAbs (Nat.pow 2 (-exponent).toNat)

/-- The double nearest to an integer; infinite if the integer is too large. -/
def ofInt (value : Int) : Double :=
  ofScaled value 0 false

/-- The integer as a double, unless it is too large for one. -/
def ofInt? (value : Int) : Option Double :=
  match ofInt value with
  | .infinity _ => none
  | d => some d

/-- A NaN that was computed. -/
def unmarkedNaN : Double := .nan 0

/-- The number without a mark. -/
def unmarked : Double → Double
  | .nan _ => unmarkedNaN
  | d => d

def isZero : Double → Bool
  | .finite _ m _ => m == 0
  | _ => false

/-- The signed mantissa of a finite double. -/
def signed (negative : Bool) (mantissa : Nat) : Int :=
  if negative then -(mantissa : Int) else mantissa

def neg : Double → Double
  | .nan _ => unmarkedNaN
  | .infinity s => .infinity (!s)
  | .finite s m e => .finite (!s) m e

/-- Two signed mantissas brought to one exponent. -/
def aligned (x : Int) (xe : Int) (y : Int) (ye : Int) : Int × Int × Int :=
  let e := min xe ye
  (x * Nat.pow 2 (xe - e).toNat, y * Nat.pow 2 (ye - e).toNat, e)

def add : Double → Double → Double
  | .nan _, _ | _, .nan _ => unmarkedNaN
  | .infinity s, .infinity t => if s = t then .infinity s else unmarkedNaN
  | .infinity s, _ | _, .infinity s => .infinity s
  | .finite s m e, .finite t n f =>
    let (x, y, g) := aligned (signed s m) e (signed t n) f
    ofScaled (x + y) g (s && t)

def sub (a b : Double) : Double :=
  add a b.neg

def mul : Double → Double → Double
  | .nan _, _ | _, .nan _ => unmarkedNaN
  | .infinity s, .infinity t => .infinity (s != t)
  | .infinity s, .finite t n _ | .finite t n _, .infinity s =>
    if n = 0 then unmarkedNaN else .infinity (s != t)
  | .finite s m e, .finite t n f => ofScaled (signed s m * signed t n) (e + f) (s != t)

/-- The quotient; the caller has excluded a zero divisor. -/
def div : Double → Double → Double
  | .nan _, _ | _, .nan _ => unmarkedNaN
  | .infinity _, .infinity _ => unmarkedNaN
  | .infinity s, .finite t _ _ => .infinity (s != t)
  | .finite s _ _, .infinity t => zero (s != t)
  | .finite s m e, .finite t n f =>
    let (x, y, _) := aligned m e n f
    ofRatio (s != t) x.natAbs y.natAbs

/-- The remainder with the sign of the divisor; the caller has excluded a zero divisor. The
remainder of the truncated quotient is exact, and only moving it to the divisor's sign rounds. -/
def mod : Double → Double → Double
  | .nan _, _ | _, .nan _ => unmarkedNaN
  | .infinity _, _ => unmarkedNaN
  | .finite s m e, .infinity t =>
    if m = 0 then zero t else if s = t then .finite s m e else .infinity t
  | .finite s m e, .finite t n f =>
    let (x, y, g) := aligned (signed s m) e (signed t n) f
    let r := Int.tmod x y
    if r = 0 then zero t
    else if decide (r < 0) = t then ofScaled r g t
    else add (ofScaled r g false) (.finite t n f)

/-- How two numbers of the form `x * 2 ^ xe` compare. -/
def compareScaled (x : Int) (xe : Int) (y : Int) (ye : Int) : Ordering :=
  let (a, b, _) := aligned x xe y ye
  compare a b

/-- The order of doubles; nothing is said of a NaN, and the two zeros are equal. -/
def compare? : Double → Double → Option Ordering
  | .nan _, _ | _, .nan _ => none
  | .infinity s, .infinity t => some (if s = t then .eq else if s then .lt else .gt)
  | .infinity s, .finite .. => some (if s then .lt else .gt)
  | .finite .., .infinity t => some (if t then .gt else .lt)
  | .finite s m e, .finite t n f => some (compareScaled (signed s m) e (signed t n) f)

/-- How a double compares with an integer, exactly. -/
def compareInt? (a : Double) (i : Int) : Option Ordering :=
  match a with
  | .nan _ => none
  | .infinity s => some (if s then .lt else .gt)
  | .finite s m e => some (compareScaled (signed s m) e i 0)

/-- The integer part of a finite double. -/
def truncate? : Double → Option Int
  | .finite s m e =>
    some (signed s (if 0 ≤ e then m <<< e.toNat else m >>> (-e).toNat))
  | _ => none

/-- The value of a double that is a whole number. -/
def toInt? (a : Double) : Option Int :=
  a.truncate?.filter fun i => a.compareInt? i == some .eq

/-- The quotient of two integers rounded once; none if it is too large. A zero quotient is negative
when just one of the two is. The caller has excluded a zero divisor. -/
def ofQuotient? (a b : Int) : Option Double :=
  match ofRatio (decide (a < 0) != decide (b < 0)) a.natAbs b.natAbs with
  | .infinity _ => none
  | d => some d

end Double
end RecordQuery
