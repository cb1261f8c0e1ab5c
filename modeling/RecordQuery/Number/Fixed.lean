import RecordQuery.Number.Shortest

/-!
Doubles written with a given number of digits. The digits are those of the exact value, rounded once
to the nearest and to the even last digit on a tie.
-/

namespace RecordQuery.Double

/-- How a double is written with a given precision. -/
inductive FixedStyle where
  /-- With that many digits behind the point. -/
  | positional
  /-- With one digit in front of the point, that many behind it, and an exponent. -/
  | scientific
  /-- With that many digits in all, in whichever of the other two ways is shorter. -/
  | general
deriving DecidableEq, Repr, Inhabited

/-- The decimal digits of `num / den` in front of and behind the point, with `places` behind it. -/
def placeDigits (num den places : Nat) : List Char × List Char :=
  let digits := Nat.toDigits 10 (roundQuotient (num * Nat.pow 10 places) den)
  let padded := List.replicate (places + 1 - digits.length) '0' ++ digits
  (padded.take (padded.length - places), padded.drop (padded.length - places))

/-- The first `count` digits of `num / den`, and the power of ten of the first one. -/
def leadingDigits (num den count : Nat) : List Char × Int :=
  if num = 0 then (List.replicate count '0', 0)
  else
    let point := pointPosition num den
    let (n, d) := scaleTen num den (count - point)
    let digits := roundQuotient n d
    if digits = Nat.pow 10 count then ('1' :: List.replicate (count - 1) '0', point)
    else (Nat.toDigits 10 digits, point - 1)

/-- Digits with a point between them. A point with nothing behind it is kept only if asked for. -/
def withPoint (keepsPoint : Bool) (whole behind : List Char) : List Char :=
  if behind.isEmpty && !keepsPoint then whole else whole ++ '.' :: behind

/-- An exponent, of two digits at least. -/
def exponentText (power : Int) : List Char :=
  let digits := Nat.toDigits 10 power.natAbs
  ['e', if power < 0 then '-' else '+'] ++ List.replicate (2 - digits.length) '0' ++ digits

/-- `num / den` with a given precision. With `keepsPoint` no final zeros are dropped and the point
is always written. -/
def fixedText (style : FixedStyle) (keepsPoint : Bool) (precision num den : Nat) : List Char :=
  match style with
  | .positional =>
    let (whole, behind) := placeDigits num den precision
    withPoint keepsPoint whole behind
  | .scientific =>
    let (digits, power) := leadingDigits num den (precision + 1)
    withPoint keepsPoint (digits.take 1) (digits.drop 1) ++ exponentText power
  | .general =>
    let count := max 1 precision
    let (digits, power) := leadingDigits num den count
    let kept (behind : List Char) := if keepsPoint then behind else dropZeros behind
    if power < -4 || (count : Int) ≤ power then
      withPoint keepsPoint (digits.take 1) (kept (digits.drop 1)) ++ exponentText power
    else if power < 0 then
      withPoint keepsPoint ['0'] (kept (List.replicate (-power - 1).toNat '0' ++ digits))
    else
      withPoint keepsPoint (digits.take (power.toNat + 1)) (kept (digits.drop (power.toNat + 1)))

/-- The text of a double with a given precision. -/
def textIn (style : FixedStyle) (keepsPoint : Bool) (precision : Nat) : Double → List Char
  | .nan _ => "nan".toList
  | .infinity s => (if s then "-inf" else "inf").toList
  | .finite s m e =>
    let (num, den) := scaleDown m 1 (-e)
    let body := fixedText style keepsPoint precision num den
    if s then '-' :: body else body

end RecordQuery.Double
