import RecordQuery.Text.Blank

/-!
Member chains: the names of a dotted text.
-/

namespace RecordQuery.Chain

/-- The names of a dotted text, without blanks at their ends; empty parts are dropped. -/
def ofChars (cs : List Char) : List String :=
  ((Text.pieces '.' cs).filter fun p => !Text.isBlankText p).map fun p =>
    String.ofList (Text.trim p)

/-- The names of a dotted text. -/
def ofText (text : String) : List String :=
  ofChars text.toList

/-- The dotted text of the names. -/
def toText (names : List String) : String :=
  ".".intercalate names

end RecordQuery.Chain
