import RecordQuery.Column.ColumnType
import RecordQuery.Number.Numeral

/-!
How columns read numbers and truth values from text. The rules are stricter than those for values:
no blanks, no underscores, ASCII digits only.
-/

namespace RecordQuery.ColumnText

/-- The value of a hexadecimal digit. -/
def hexValue? (c : Char) : Option Nat :=
  if c.isDigit then some (c.toNat - '0'.toNat)
  else if 'a' ≤ c && c ≤ 'f' then some (c.toNat - 'a'.toNat + 10)
  else if 'A' ≤ c && c ≤ 'F' then some (c.toNat - 'A'.toNat + 10)
  else none

/-- The bits that a hexadecimal text stands for, read as a number of the given range. -/
def ofHex? (range : Int × Int) (width : Nat) (digits : List Char) : Option Int := do
  if width < 4 * digits.length then none
  let n ← digits.foldlM (fun (n : Nat) c => (hexValue? c).map (16 * n + ·)) 0
  return if range.2 < (n : Int) then (n : Int) - Int.pow 2 width else n

/-- An integer of the given range: digits, after a minus sign if the range has negative numbers, or
the hexadecimal digits of its bits after `0x`. -/
def integer? (range : Int × Int) (width : Nat) (cs : List Char) : Option Int :=
  let read :=
    match cs with
    | '0' :: x :: d :: ds =>
      if x == 'x' || x == 'X' then ofHex? range width (d :: ds) else decimal cs
    | cs => decimal cs
  read.filter fun i => range.1 ≤ i && i ≤ range.2
where
  decimal (cs : List Char) : Option Int :=
    match cs with
    | '-' :: ds => if range.1 < 0 then (Numeral.natural? ds).map fun n => -(n : Int) else none
    | ds => (Numeral.natural? ds).map fun n => (n : Int)

/-- A character of the note that may stand in brackets behind a NaN. -/
def isNoteChar (c : Char) : Bool :=
  c.isAlphanum || c == '_'

/-- A NaN with a note in brackets behind it, after an optional sign. -/
def isNotedNaN (cs : List Char) : Bool :=
  match (Numeral.takeSign cs).2 with
  | n :: a :: m :: '(' :: note =>
    String.ofList ([n, a, m].map Char.toLower) == "nan" && note.getLast? == some ')' &&
      note.dropLast.all isNoteChar
  | _ => false

/-- A double. Numbers too large for one are infinite, and those too small for one are zero. -/
def double? (cs : List Char) : Option Double :=
  if isNotedNaN cs then some Double.unmarkedNaN else Numeral.bareDouble? cs

/-- A truth value. -/
def bool? (cs : List Char) : Option Bool :=
  let word := String.ofList (cs.map Char.toLower)
  if word == "true" || word == "1" then some true
  else if word == "false" || word == "0" then some false
  else none

end RecordQuery.ColumnText
