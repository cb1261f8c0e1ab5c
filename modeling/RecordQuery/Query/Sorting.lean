import RecordQuery.Query.Basic

/-!
Sorting queries by ordering text, by chains and by key functions. The first key of ordering text is
the most significant one; later keys order the rows that agree on it.
-/

namespace RecordQuery

/-- What a caller asks to sort by. -/
inductive KeyRequest where
  | text (text : String)
  | chain (names : List Value)
  | source (k : KeySource)
  /-- Something that is neither a chain nor can be called. -/
  | other (v : Value)
deriving Inhabited

namespace Query

variable {E : Engine}

/-- The query sorted by one key; keys that were pending are applied first. -/
def sortBy (d : Directory) (q : Query E) (k : SortKey) : Except Error (Query E) := do
  return { source := ← q.sorted d, schema := q.schema, keys := some [k] }

/-- The query with one more key, less significant than all others. -/
def addKey (q : Query E) (k : SortKey) : Query E :=
  { q with keys := some (q.keys.getD [] ++ [k]) }

/-- The sort key of a spec, resolved on the query's schema. -/
def resolveSpec (d : Directory) (q : Query E) (spec : OrderingSpec) : Outcome SortKey := do
  let a ← d.resolveNames q.schema spec.chain
  return { source := .accessor a, direction := spec.direction }

/-- The query with the keys of specs added, from left to right. -/
def addSpecs (d : Directory) (q : Query E) : List OrderingSpec → Outcome (Query E)
  | [] => pure q
  | spec :: specs => do
    let k ← q.resolveSpec d spec
    addSpecs d (q.addKey k) specs

/-- The query sorted by specs, of which there has to be one. -/
def orderBySpecs (d : Directory) (q : Query E) (specs : List OrderingSpec) : Outcome (Query E) :=
  match specs with
  | [] => throw .missingOrderingText
  | spec :: specs => do
    let k ← q.resolveSpec d spec
    let q ← q.sortBy d k
    q.addSpecs d specs

/-- The query sorted by ordering text. -/
def orderByText (d : Directory) (q : Query E) (text : Option String) : Outcome (Query E) := do
  q.orderBySpecs d (← OrderingSpec.parse text)

/-- The sorted query with the keys of ordering text added. Without specs it is the query itself,
for which `none` stands. -/
def thenByText (d : Directory) (q : Query E) (text : Option String) :
    Outcome (Option (Query E)) := do
  match ← OrderingSpec.parse text with
  | [] => return none
  | specs => return some (← q.addSpecs d specs)

/-- The key that a request stands for. Text names one chain here, without a direction. -/
def keySource (d : Directory) (q : Query E) (request : KeyRequest) : Outcome KeySource :=
  match request with
  | .text text => do return .accessor (← d.resolve q.schema text)
  | .chain names => do return .accessor (← d.resolveValues q.schema names)
  | .source k => pure k
  | .other v => throw (.badSortKey v.typeName)

/-- The refusal of a descending sort by ordering text, which has directions of its own. -/
def refuseDescending (descending : Bool) (text : String) : Outcome Unit :=
  if descending then
    throw (.descendingText (String.ofList (Text.trim text.toList)))
  else pure ()

/-- The query sorted as requested. -/
def orderBy (d : Directory) (q : Query E) (request : KeyRequest) (descending : Bool) :
    Outcome (Query E) :=
  match request with
  | .text text => do
    refuseDescending descending text
    q.orderByText d (some text)
  | request => do
    let source ← q.keySource d request
    q.sortBy d { source, direction := .ofDescending descending }

/-- The query sorted descending; text names one chain. -/
def orderByDescending (d : Directory) (q : Query E) (request : KeyRequest) : Outcome (Query E) := do
  let source ← q.keySource d request
  q.sortBy d { source, direction := .descending }

/-- The sorted query with a further key. Only a sorted query can be given one. -/
def thenBy (d : Directory) (q : Query E) (request : KeyRequest) (descending : Bool) :
    Outcome (Option (Query E)) :=
  if !q.isOrdered then throw (.fault .noAttribute)
  else
    match request with
    | .text text => do
      refuseDescending descending text
      q.thenByText d (some text)
    | request => do
      let source ← q.keySource d request
      return some (q.addKey { source, direction := .ofDescending descending })

/-- The sorted query with a further descending key; text names one chain. -/
def thenByDescending (d : Directory) (q : Query E) (request : KeyRequest) : Outcome (Query E) :=
  if !q.isOrdered then throw (.fault .noAttribute)
  else do
    let source ← q.keySource d request
    return q.addKey { source, direction := .descending }

/-- The ordering text that a request is when nothing but text is expected. Bytes are taken for text
until they are to be split. -/
def requestText (request : KeyRequest) : Except Error (Option String) :=
  match request with
  | .text text => .ok (some text)
  | .other .null => .ok none
  | .other (.bytes bs) =>
    if bs.all fun b => Text.isBlank (Char.ofNat b.toNat) && (b < 14 || b = 32) then .ok none
    else fail .wrongType
  | _ => fail .noAttribute

/-- Sorts a query, if there is one, by ordering text. -/
def orderQuery (d : Directory) (q : Option (Query E)) (request : KeyRequest) : Outcome (Query E) :=
  match q with
  | none => throw .noQuery
  | some q => do q.orderByText d (← requestText request)

/-- Adds the keys of ordering text to a query, which has to be there and to be sorted. -/
def extendQuery (d : Directory) (q : Option (Query E)) (request : KeyRequest) :
    Outcome (Option (Query E)) :=
  match q with
  | none => throw .noQuery
  | some q =>
    if q.isOrdered then do q.thenByText d (← requestText request) else throw (.notOrdered q.kind)

end Query
end RecordQuery
