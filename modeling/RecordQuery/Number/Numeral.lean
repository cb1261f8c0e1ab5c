import RecordQuery.Number.Shortest
import RecordQuery.Text.Blank
import RecordQuery.Text.Digit

/-!
Numbers written as text: integers and doubles, with blanks around them, digits of any script and
single underscores between digits.
-/

namespace RecordQuery.Numeral

/-- Digits of other scripts become their ASCII counterparts and blanks become spaces; any other
character outside ASCII becomes one that no number contains. -/
def toAscii (c : Char) : Char :=
  if c.toNat < 128 then c
  else if Text.isBlank c then ' '
  else
    match Text.digitValue? c with
    | some d => Nat.digitChar d
    | none => '?'

/-- The blanks of ASCII that may stand around a number. -/
def isPadding (c : Char) : Bool :=
  c == ' ' || (9 ≤ c.toNat && c.toNat ≤ 13)

/-- The text in ASCII, without the blanks at its ends. -/
def normalized (cs : List Char) : List Char :=
  (((cs.map toAscii).dropWhile isPadding).reverse.dropWhile isPadding).reverse

/-- The text without its underscores, each of which has to stand between two digits. -/
def dropUnderscores (afterDigit : Bool) : List Char → Option (List Char)
  | [] => some []
  | '_' :: cs =>
    match cs with
    | d :: _ => if afterDigit && d.isDigit then dropUnderscores false cs else none
    | [] => none
  | c :: cs => (dropUnderscores c.isDigit cs).map (c :: ·)

/-- The sign in front, and what follows it. -/
def takeSign : List Char → Bool × List Char
  | '-' :: cs => (true, cs)
  | '+' :: cs => (false, cs)
  | cs => (false, cs)

/-- The value of a text of decimal digits. -/
def digitsValue (cs : List Char) : Nat :=
  cs.foldl (fun n c => 10 * n + (c.toNat - '0'.toNat)) 0

/-- A nonempty text of decimal digits. -/
def natural? (cs : List Char) : Option Nat :=
  if !cs.isEmpty && cs.all Char.isDigit then some (digitsValue cs) else none

/-- The most digits that an integer is read from or written with. -/
def digitLimit : Nat := 4300

/-- An integer with an optional sign. -/
def integer? (text : String) : Option Int := do
  let (negative, digits) := takeSign (← dropUnderscores false (normalized text.toList))
  if digitLimit < digits.length then none
  let n ← natural? digits
  return if negative then -(n : Int) else n

/-- The power of ten behind a mantissa: nothing, or `e` and an integer. -/
def exponent? : List Char → Option Int
  | [] => some 0
  | c :: cs =>
    if c == 'e' || c == 'E' then
      let (negative, digits) := takeSign cs
      (natural? digits).map fun n => if negative then -(n : Int) else n
    else none

/-- A decimal number without its sign: all its digits as one integer, and the power of ten that it
is multiplied by. -/
def decimal? (cs : List Char) : Option (Nat × Int) := do
  let whole := cs.takeWhile Char.isDigit
  let rest := cs.dropWhile Char.isDigit
  let (fraction, rest) :=
    match rest with
    | '.' :: rest => (rest.takeWhile Char.isDigit, rest.dropWhile Char.isDigit)
    | _ => ([], rest)
  if whole.isEmpty && fraction.isEmpty then none
  let power ← exponent? rest
  return (digitsValue (whole ++ fraction), power - fraction.length)

/-- The double nearest to `digits * 10 ^ power`. Powers far outside the range of doubles are decided
by the number of digits alone. -/
def nearest (negative : Bool) (digits : Nat) (power : Int) : Double :=
  let magnitude := (Double.digitCount digits : Int) + power
  if digits = 0 || magnitude < -330 then .zero negative
  else if 310 < magnitude then .infinity negative
  else
    let (num, den) := Double.scaleTen digits 1 power
    .ofRatio negative num den

/-- A double without blanks around it: a decimal number, an infinity or a NaN. -/
def bareDouble? (cs : List Char) : Option Double :=
  let (negative, body) := takeSign cs
  let word := String.ofList (body.map Char.toLower)
  if word == "inf" || word == "infinity" then some (.infinity negative)
  else if word == "nan" then some Double.unmarkedNaN
  else (decimal? body).map fun (digits, power) => nearest negative digits power

/-- A double with blanks and underscores allowed. -/
def double? (text : String) : Option Double := do
  bareDouble? (← dropUnderscores false (normalized text.toList))

/-- A sign and, if anything follows, a double. -/
def isSigned (cs : List Char) : Bool :=
  match cs with
  | '+' :: rest | '-' :: rest => rest.isEmpty || (bareDouble? cs).isSome
  | _ => false

/-- What may stand in front of the `j` of an imaginary part: nothing, a sign, or a double, and a
double in front of a signed one. -/
def isImaginary (cs : List Char) : Bool :=
  cs.isEmpty || isSigned cs || (bareDouble? cs).isSome ||
    (List.range cs.length).any fun n => (bareDouble? (cs.take n)).isSome && isSigned (cs.drop n)

/-- Is the text that of a complex number without blanks around it? -/
def isBareComplex (cs : List Char) : Bool :=
  (bareDouble? cs).isSome ||
    match cs.getLast? with
    | some 'j' | some 'J' => isImaginary cs.dropLast
    | _ => false

/-- Is the text that of a complex number? Round brackets may stand around it. -/
def isComplex (text : String) : Bool :=
  match dropUnderscores false (normalized text.toList) with
  | none => false
  | some ('(' :: cs) => cs.getLast? == some ')' && isBareComplex (normalized cs.dropLast)
  | some cs => isBareComplex cs

end RecordQuery.Numeral
