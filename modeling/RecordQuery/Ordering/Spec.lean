import RecordQuery.Chain
import RecordQuery.Error

/-!
Ordering text: comma-separated segments, each a member chain that a direction may follow. `parse`
reads the segments from left to right and stops at the first bad one; `render` writes them.
-/

namespace RecordQuery

/-- The direction of a sort. -/
inductive Direction where
  | ascending | descending
deriving DecidableEq, Repr, Inhabited

namespace Direction

/-- The word for a direction. -/
def word : Direction → String
  | .ascending => "asc"
  | .descending => "desc"

/-- The direction that a word names, whatever its case. -/
def ofWord? (token : List Char) : Option Direction :=
  let lowered := Text.lower token
  if lowered = Direction.ascending.word.toList then some .ascending
  else if lowered = Direction.descending.word.toList then some .descending
  else none

def ofDescending (descending : Bool) : Direction :=
  if descending then .descending else .ascending

def isDescending : Direction → Bool
  | .ascending => false
  | .descending => true

end Direction

/-- A member chain, not resolved yet, and the direction to sort it in. -/
structure OrderingSpec where
  chain : List String
  direction : Direction := .ascending
deriving DecidableEq, Repr, Inhabited

namespace OrderingSpec

/-- The chain of a segment's first token. -/
def ofToken (token : List Char) (direction : Direction) : Except Error OrderingSpec :=
  match Chain.ofChars token with
  | [] => .error (.emptyMemberChain (some (String.ofList token)))
  | chain => .ok { chain, direction }

/-- Reads one segment. -/
def ofSegment (segment : List Char) : Except Error OrderingSpec :=
  match Text.words segment with
  | [token] => ofToken token .ascending
  | [token, word] =>
    match Direction.ofWord? word with
    | some direction => ofToken token direction
    | none => .error (.invalidDirection (String.ofList word))
  | _ => .error (.malformedSegment (String.ofList (Text.trim segment)))

/-- Reads the segments of ordering text; segments of blanks are passed over. -/
def ofChars (cs : List Char) : Except Error (List OrderingSpec) :=
  ((Text.pieces ',' cs).filter fun s => !Text.isBlankText s).mapM ofSegment

/-- Reads ordering text, of which there has to be some. -/
def parse (text : Option String) : Except Error (List OrderingSpec) :=
  match text with
  | none => .error .missingOrderingText
  | some text =>
    if Text.isBlankText text.toList then .error .missingOrderingText else ofChars text.toList

/-- The segment of a spec. -/
def segment (spec : OrderingSpec) : String :=
  Chain.toText spec.chain ++ " " ++ spec.direction.word

/-- The ordering text of specs. -/
def render (specs : List OrderingSpec) : String :=
  ",".intercalate (specs.map segment)

/-- The shown form of a spec. -/
def text (spec : OrderingSpec) : String :=
  "OrderingSpec(" ++ Text.quoted (Chain.toText spec.chain) ++ ", " ++
    Text.quoted spec.direction.word ++ ")"

end OrderingSpec
end RecordQuery
