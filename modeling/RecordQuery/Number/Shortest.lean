import RecordQuery.Number.Double

/-!
The fewest decimal digits that read back as a given double, and the layouts in which they are
written. Of the decimals with that many digits the nearest is taken, and of two equally near ones
the one whose last digit is even.
-/

namespace RecordQuery.Double

/-- The number of decimal digits of a positive integer. -/
def digitCount (n : Nat) : Nat :=
  (Nat.toDigits 10 n).length

/-- The position of the decimal point of `num / den`: the value lies between `10 ^ (p - 1)` and
`10 ^ p`, the upper end excluded. -/
def pointPosition (num den : Nat) : Int :=
  if den ≤ num then digitCount (num / den)
  else 1 - (digitCount ((den + num - 1) / num - 1) : Int)

/-- `num / den * 10 ^ shift` as a fraction. -/
def scaleTen (num den : Nat) (shift : Int) : Nat × Nat :=
  if 0 ≤ shift then (num * Nat.pow 10 shift.toNat, den)
  else (num, den * Nat.pow 10 (-shift).toNat)

/-- Does `digits * 10 ^ shift` read back as the double? -/
def readsBack (mantissa : Nat) (exponent : Int) (digits : Nat) (shift : Int) : Bool :=
  let (num, den) := scaleTen digits 1 shift
  ofRatio false num den == .finite false mantissa exponent

/-- The decimal of `count` digits nearest to the value among those that read back. -/
def candidate? (mantissa : Nat) (exponent : Int) (num den : Nat) (point : Int) (count : Nat) :
    Option (Nat × Int) :=
  let shift := point - count
  let (n, d) := scaleTen num den (-shift)
  let low := n / d
  let twice := 2 * (n % d)
  let preferLow := twice < d || (twice == d && low % 2 == 0)
  let lowFits := readsBack mantissa exponent low shift
  let highFits := readsBack mantissa exponent (low + 1) shift
  if lowFits && (preferLow || !highFits) then some (low, shift)
  else if highFits then some (low + 1, shift)
  else none

/-- The digits without their final zeros, which move into the power of ten. -/
def dropZeros (digits : List Char) : List Char :=
  (digits.reverse.dropWhile (· == '0')).reverse

/-- The shortest digits of a positive double, and where their decimal point stands: the value is
`0.d₁d₂… * 10 ^ point`. -/
def shortest (mantissa : Nat) (exponent : Int) : List Char × Int :=
  let (num, den) := scaleDown mantissa 1 (-exponent)
  let point := pointPosition num den
  match (List.range 17).findSome? fun i => candidate? mantissa exponent num den point (i + 1) with
  | some (digits, shift) =>
    let text := Nat.toDigits 10 digits
    (dropZeros text, shift + text.length)
  | none => (['0'], 1)

/-- How the digits of a double are laid out. -/
structure Layout where
  /-- The least power of ten of the first digit that is written without an exponent. -/
  positionalFrom : Int
  /-- The first power of ten of the first digit that is written with an exponent. -/
  positionalUntil : Int
  /-- Do whole numbers show a zero after the point? -/
  showsPoint : Bool
  /-- The least number of digits of an exponent. -/
  exponentWidth : Nat

/-- The layout of shown values: `1.0`, `1e+16`, `1e-07`. -/
def shownLayout : Layout := ⟨-4, 16, true, 2⟩

/-- The layout of numbers turned into text columns: `1`, `1e+10`, `1e-7`. -/
def columnLayout : Layout := ⟨-6, 10, false, 1⟩

/-- Digits without an exponent. -/
def Layout.positional (layout : Layout) (digits : List Char) (point : Int) : List Char :=
  let n := point.toNat
  if point ≤ 0 then
    '0' :: '.' :: List.replicate (-point).toNat '0' ++ digits
  else if digits.length ≤ n then
    digits ++ List.replicate (n - digits.length) '0' ++
      (if layout.showsPoint then ['.', '0'] else [])
  else digits.take n ++ '.' :: digits.drop n

/-- Digits with an exponent. -/
def Layout.scientific (layout : Layout) (digits : List Char) (point : Int) : List Char :=
  let power := point - 1
  let written := Nat.toDigits 10 power.natAbs
  digits.take 1 ++ (if digits.length ≤ 1 then [] else '.' :: digits.drop 1) ++
    ['e', if power < 0 then '-' else '+'] ++
    List.replicate (layout.exponentWidth - written.length) '0' ++ written

/-- The text of a double. -/
def Layout.text (layout : Layout) : Double → String
  | .nan _ => "nan"
  | .infinity s => if s then "-inf" else "inf"
  | .finite s m e =>
    let (digits, point) := if m = 0 then (['0'], 1) else shortest m e
    let body :=
      if layout.positionalFrom ≤ point - 1 && point - 1 < layout.positionalUntil then
        layout.positional digits point
      else layout.scientific digits point
    String.ofList (if s then '-' :: body else body)

/-- The text of a double as a shown value. -/
def text (d : Double) : String :=
  shownLayout.text d

end RecordQuery.Double
