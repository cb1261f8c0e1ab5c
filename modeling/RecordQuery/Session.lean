import RecordQuery.Accessor
import RecordQuery.Projection

/-!
A session: what earlier requests leave behind. Types with brackets are made once and described once,
under the spelling that came first; a chain is resolved once on each schema; and a plan between two
schemas is made once, so its warning is given once.
-/

namespace RecordQuery

/-- A chain as it is asked for. -/
inductive ChainRequest where
  | text (written : String)
  | values (parts : List Value)
deriving Inhabited

/-- The names of the chain, if all its parts are names. -/
def ChainRequest.names? : ChainRequest → Option (List String)
  | .text written => some (Chain.ofText written)
  | .values parts => parts.mapM Directory.name?

/-- Resolves a chain that is asked for. -/
def Directory.resolveChain (d : Directory) (root : Schema) : ChainRequest → Outcome Accessor
  | .text written => d.resolve root written
  | .values parts => d.resolveValues root parts

/-- What a chain was resolved to, with its warnings, which are given again each time. -/
structure ResolvedChain where
  root : SchemaKey
  names : List String
  accessor : Accessor
  warnings : List String

/-- A plan that was made. -/
structure MadePlan where
  source : SchemaKey
  target : SchemaKey
  plan : ProjectionPlan

/-- The types that were made and described, the chains that were resolved and the plans that were
made. -/
structure Session where
  directory : Directory := {}
  types : TypeTable := {}
  resolved : List ResolvedChain := []
  planned : List MadePlan := []
deriving Inhabited

namespace Session

/-- The type that is asked for. -/
def request (s : Session) (r : TypeRequest) : Except Error (TypeExpr × Session) := do
  let (t, types) ← ofFault (s.types.request r)
  return (t, { s with types })

/-- The alternative of two types. -/
def pipe (s : Session) (a b : TypeExpr) : Except Error (TypeExpr × Session) := do
  let (t, types) ← ofFault (s.types.pipe a b)
  return (t, { s with types })

/-- The session after a type was described. -/
def describing (s : Session) (t : TypeExpr) : Session :=
  { s with directory := s.directory.describe t }

/-- The schema of a type, which has to be one that can be described. -/
def schemaOf (s : Session) (t : TypeExpr) : Except Error (Schema × Session) := do
  s.directory.catalog.checkDescribable t
  return (s.directory.schemaOf t, s.describing t)

/-- The session after an operation: the types that it asked for are described. -/
def noting {α : Type} (s : Session) (x : Outcome α) : Session :=
  { s with directory := x.described.foldl Directory.describe s.directory }

/-- What the names were resolved to on the schema before. -/
def resolved? (s : Session) (root : Schema) (names : List String) : Option ResolvedChain :=
  s.resolved.find? fun r => r.root.same root.key && r.names == names

/-- The session after a chain was resolved. What fails is not kept. -/
def keeping (s : Session) (root : Schema) (chain : ChainRequest) (found : Outcome Accessor) :
    Session :=
  match chain.names?, found.result with
  | some names, .ok accessor =>
    { s with resolved := ⟨root.key, names, accessor, found.warnings⟩ :: s.resolved }
  | _, _ => s

/-- Resolves a chain on a schema. -/
def resolve (s : Session) (root : Schema) (chain : ChainRequest) : Outcome Accessor × Session :=
  match chain.names?.bind (s.resolved? root) with
  | some r => ({ warnings := r.warnings, result := .ok r.accessor }, s)
  | none =>
    let found := s.directory.resolveChain root chain
    (found, (s.noting found).keeping root chain found)

/-- The plan that was made between the schemas before. -/
def planned? (s : Session) (source target : Schema) : Option MadePlan :=
  s.planned.find? fun p => p.source.same source.key && p.target.same target.key

/-- The plan between two schemas. -/
def plan (s : Session) (source target : Schema) : Outcome ProjectionPlan × Session :=
  match s.planned? source target with
  | some p => (pure p.plan, s)
  | none =>
    let plan := ProjectionPlan.between source target
    ({ warnings := ProjectionPlan.warnings target, result := .ok plan },
      { s with planned := ⟨source.key, target.key, plan⟩ :: s.planned })

end Session

/-- What can be asked of a session. -/
inductive Call where
  | getSchema (t : TypeExpr)
  | resolve (root : TypeExpr) (chain : ChainRequest)
  | synthesize (source target : TypeExpr)
deriving Inhabited

/-- What a call returns. -/
inductive Reply where
  | schema (s : Schema)
  | accessor (a : Accessor)
  | plan (p : ProjectionPlan)
deriving Inhabited

namespace Session

/-- Goes on with the schema of a type. -/
def withSchema {α : Type} (s : Session) (t : TypeExpr)
    (next : Session → Schema → Outcome α × Session) : Outcome α × Session :=
  match s.schemaOf t with
  | .error e => (throw e, s)
  | .ok (schema, s) => next s schema

/-- Answers a call. -/
def perform (s : Session) : Call → Outcome Reply × Session
  | .getSchema t => s.withSchema t fun s schema => (pure (.schema schema), s)
  | .resolve root chain => s.withSchema root fun s root =>
    let found := s.resolve root chain
    (.accessor <$> found.1, found.2)
  | .synthesize source target =>
    s.withSchema source fun s source => s.withSchema target fun s target =>
      let made := s.plan source target
      (.plan <$> made.1, made.2)

/-- The session after calls, one after the other. -/
def run (s : Session) (calls : List Call) : Session :=
  calls.foldl (fun s c => (s.perform c).2) s

/-- A new session over declared types after calls. -/
def after (catalog : Catalog) (calls : List Call) : Session :=
  ({ directory := { catalog } } : Session).run calls

/-- The answer to a call that is made after others in a new session. -/
def answer (catalog : Catalog) (before : List Call) (c : Call) : Outcome Reply :=
  ((after catalog before).perform c).1

end Session
end RecordQuery
