import RecordQuery.Text.Blank

/-!
Searching, counting, replacing and splitting in text.
-/

namespace RecordQuery.Text

/-- The position of the first occurrence, counted from `start`. -/
def findFrom (part : List Char) (start : Nat) : List Char → Option Nat
  | [] => if part.isEmpty then some start else none
  | c :: cs => if part.isPrefixOf (c :: cs) then some start else findFrom part (start + 1) cs

/-- The position of the first occurrence. -/
def find? (part cs : List Char) : Option Nat :=
  findFrom part 0 cs

/-- The parts between the occurrences of a nonempty separator, of which the first `limit` count;
`current` holds what was passed since the last one, backwards, and `skip` says how much of an
occurrence is still to be passed. -/
def splitScan (separator : List Char) (current : List Char) :
    (limit skip : Nat) → List Char → List (List Char)
  | _, _, [] => [current.reverse]
  | limit, skip + 1, _ :: cs => splitScan separator current limit skip cs
  | 0, 0, cs => [current.reverse ++ cs]
  | limit + 1, 0, c :: cs =>
    if separator.isPrefixOf (c :: cs) then
      current.reverse :: splitScan separator [] limit (separator.length - 1) cs
    else splitScan separator (c :: current) (limit + 1) 0 cs

/-- The parts between the first `limit` occurrences of a nonempty separator. -/
def splitOn (separator : List Char) (limit : Nat) (cs : List Char) : List (List Char) :=
  splitScan separator [] limit 0 cs

/-- The first `limit` words, and the rest from its first character that is not blank. -/
def splitWords : (limit : Nat) → List Char → List (List Char)
  | 0, cs =>
    match cs.dropWhile isBlank with
    | [] => []
    | rest => [rest]
  | limit + 1, cs =>
    match cs.dropWhile isBlank with
    | [] => []
    | rest =>
      rest.takeWhile (!isBlank ·) :: splitWords limit (rest.dropWhile (!isBlank ·))

/-- The number of occurrences that do not overlap; an empty text occurs around every character. -/
def count (part cs : List Char) : Nat :=
  if part.isEmpty then cs.length + 1 else (splitOn part cs.length cs).length - 1

/-- The new text in front of the first `limit` characters, and at the end if the limit allows. -/
def weave (new : List Char) : (limit : Nat) → List Char → List Char
  | 0, cs => cs
  | _ + 1, [] => new
  | limit + 1, c :: cs => new ++ c :: weave new limit cs

/-- The text with the first `limit` occurrences replaced. -/
def replace (old new : List Char) (limit : Nat) (cs : List Char) : List Char :=
  if old.isEmpty then weave new limit cs
  else new.intercalate (splitOn old limit cs)

/-- The text without the listed characters at its ends. -/
def trimChars (chars cs : List Char) : List Char :=
  ((cs.dropWhile chars.contains).reverse.dropWhile chars.contains).reverse

end RecordQuery.Text
