import RecordQuery.Text.Printable

/-!
Quoted text and quoted bytes, as they stand inside shown values. Single quotes are used unless the
text holds a single quote and no double one.
-/

namespace RecordQuery.Text

/-- The lower-case hexadecimal digits of a number, at least `width` of them. -/
def hex (width n : Nat) : String :=
  let digits := Nat.toDigits 16 n
  String.ofList (List.replicate (width - digits.length) '0' ++ digits)

/-- The quotation mark that a text holding `single` and `double` quotes is put in. -/
def quoteMark (single double : Bool) : Char :=
  if single && !double then '"' else '\''

/-- A character inside quotes: the mark and the backslash are escaped, and so is all that is not
printable, by the shortest of the three numeric escapes that can hold it. -/
def escaped (mark : Char) (c : Char) : String :=
  if c == mark || c == '\\' then String.ofList ['\\', c]
  else if c == '\n' then "\\n"
  else if c == '\r' then "\\r"
  else if c == '\t' then "\\t"
  else if isPrintable c then String.singleton c
  else if c.toNat < 0x100 then "\\x" ++ hex 2 c.toNat
  else if c.toNat < 0x10000 then "\\u" ++ hex 4 c.toNat
  else "\\U" ++ hex 8 c.toNat

/-- The text in quotation marks. -/
def quoted (s : String) : String :=
  let cs := s.toList
  let mark := quoteMark (cs.contains '\'') (cs.contains '"')
  String.singleton mark ++ String.join (cs.map (escaped mark)) ++ String.singleton mark

/-- A byte inside quotes: as `escaped`, with every byte outside ASCII written in hexadecimal. -/
def escapedByte (mark : Char) (b : UInt8) : String :=
  let c := Char.ofNat b.toNat
  if b.toNat < 128 then escaped mark c else "\\x" ++ hex 2 b.toNat

/-- The bytes in quotation marks, after the letter that tells them from text. -/
def quotedBytes (bs : List UInt8) : String :=
  let mark := quoteMark (bs.contains 39) (bs.contains 34)
  "b" ++ String.singleton mark ++ String.join (bs.map (escapedByte mark)) ++ String.singleton mark

/-- Strings in quotation marks between square brackets. -/
def quotedList (names : List String) : String :=
  "[" ++ ", ".intercalate (names.map quoted) ++ "]"

end RecordQuery.Text
