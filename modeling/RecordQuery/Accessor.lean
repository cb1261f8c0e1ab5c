import RecordQuery.Chain
import RecordQuery.Directory
import RecordQuery.Record.Attribute

/-!
Resolution of member chains and reading along them. Each name is looked up on the schema of the
member before it; a null on the way makes the whole value null.
-/

namespace RecordQuery

/-- The warning that a name agrees with several members up to case. -/
def ambiguityWarning (owner name : String) (candidates : List String) : String :=
  "Member '" ++ name ++ "' on '" ++ owner ++ "' matches " ++ Text.quotedList candidates ++
    " case-insensitively; using '" ++ candidates.headD "" ++ "'"

namespace Schema

/-- The warnings that go with a match: one if there are several candidates. -/
def ambiguities (s : Schema) (name : String) (found : List Field) : List String :=
  if 1 < found.length then [ambiguityWarning s.name name (found.map (·.name))] else []

/-- The member that a written name means, with a warning if there are several. -/
def lookup (s : Schema) (name : String) : Outcome (Option Field) :=
  let found := s.candidates name
  { warnings := s.ambiguities name found, result := .ok found.head? }

end Schema

/-- The members that a chain leads through, with the warnings of the ambiguities met. -/
structure Resolution where
  fields : List Field
  warnings : List String

namespace Directory

/-- The members that names lead to from a schema, `position` names having been resolved before. -/
def follow (d : Directory) (s : Schema) (position : Nat) : List String → Outcome Resolution
  | [] => pure ⟨[], []⟩
  | name :: names =>
    match s.candidates name with
    | [] => throw (.unknownMember s.name name position)
    | f :: fs => do
      let owner ← if names.isEmpty then pure s else d.enter f
      let rest ← d.follow owner (position + 1) names
      return ⟨f :: rest.fields, s.ambiguities name (f :: fs) ++ rest.warnings⟩

/-- Resolves the names of a chain. Its warnings are given only if all names are found. -/
def resolveNames (d : Directory) (root : Schema) (names : List String) : Outcome Accessor :=
  match names with
  | [] => throw (.emptyMemberChain none)
  | names => do
    let found ← d.follow root 0 names
    { warnings := found.warnings, result := .ok { root, fields := found.fields } }

/-- Resolves dotted text. -/
def resolve (d : Directory) (root : Schema) (text : String) : Outcome Accessor :=
  match Chain.ofText text with
  | [] => throw (.emptyMemberChain (some text))
  | names => d.resolveNames root names

/-- The name that a value is. -/
def name? : Value → Option String
  | .str name => some name
  | _ => none

/-- Resolves a chain given as values. All of them have to be hashable, and a value that is no name
fails when its turn comes. -/
def resolveValues (d : Directory) (root : Schema) (values : List Value) : Outcome Accessor := do
  values.forM fun v => v.checkKey d.catalog
  match values.mapM name? with
  | some names => d.resolveNames root names
  | none =>
    let names := (values.takeWhile fun v => (name? v).isSome).filterMap name?
    let found ← d.follow root 0 names
    let _ ← found.fields.getLast?.mapM d.enter
    throw (.fault .noAttribute)

end Directory

namespace Accessor

/-- Reads through members, from left to right. -/
def readFields (catalog : Catalog) : List Field → Value → Except Error Value
  | [], v => .ok v
  | f :: fs, v =>
    if v.isNull then .ok .null
    else do readFields catalog fs (← f.read catalog v)

/-- The value at the end of the chain. -/
def read (catalog : Catalog) (a : Accessor) (v : Value) : Except Error Value :=
  readFields catalog a.fields v

end Accessor
end RecordQuery
