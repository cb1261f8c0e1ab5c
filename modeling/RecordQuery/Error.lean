import RecordQuery.Fault
import RecordQuery.Value.Basic

/-!
What can go wrong, as causes, and the messages that go with the causes. A fault of the operation
that is applied to the values themselves carries no message of its own.
-/

namespace RecordQuery

/-- Why an operation failed. -/
inductive Error where
  | fault (f : Fault)
  | missingOrderingText
  /-- An ordering segment that is neither a chain nor a chain and a direction. -/
  | malformedSegment (segment : String)
  | invalidDirection (token : String)
  /-- A member chain without names, with its text if it was given as text. -/
  | emptyMemberChain (text : Option String)
  | unknownMember (typeName member : String) (position : Nat)
  | coercionFailure (field : String) (source target : TypeExpr) (value : Value) (shown : String)
  /-- A schema that describes no record that could be built. -/
  | notConstructible (schema : String)
  /-- A captured expression was asked whether it is true. -/
  | noTruthValue
  /-- A captured lambda did not return an expression but a value of this type. -/
  | notAnExpression (typeName : String)
  /-- A private attribute of a captured expression or a proxy. -/
  | privateAttribute (name : String)
  | wrongArgumentCount (takes given : Nat)
  | unknownBinaryOp (name : String)
  | unknownUnaryOp (name : String)
  | unknownExpression (kind : String)
  | noQuery
  /-- A secondary sort key was added to a query of this kind, which is not sorted. -/
  | notOrdered (kind : String)
  /-- A descending sort was asked for in addition to ordering text. -/
  | descendingText (key : String)
  | badSortKey (typeName : String)
  | unsortableKey (label : String)
  | untypedKey (label : String)
  /-- No column of such types can be sorted by. -/
  | unsortableKeys
  /-- A plan that reads rows of one schema was applied to rows of another. -/
  | planMismatch (reads yields : String)
  | badNullPlacement (shown : String)
  | notATable (typeName : String)
deriving Inhabited

namespace Error

/-- The message of an error; faults have none. -/
def message? : Error → Option String
  | .fault _ => none
  | .missingOrderingText => some "Ordering text must not be None, empty or whitespace-only"
  | .malformedSegment segment => some ("Invalid order text '" ++ segment ++ "'")
  | .invalidDirection token =>
    some ("Invalid order type '" ++ token ++ "'. Expected 'asc' or 'desc'")
  | .emptyMemberChain none => some "Member chain must name at least one member"
  | .emptyMemberChain (some text) =>
    some ("Member chain '" ++ text ++ "' must name at least one member")
  | .unknownMember typeName member _ =>
    some ("The type '" ++ typeName ++ "' doesn't define property or field '" ++ member ++ "'")
  | .coercionFailure field source target _ shown =>
    some ("Cannot convert field '" ++ field ++ "' from " ++ source.label ++ " to " ++
      target.label ++ ": " ++ shown)
  | .notConstructible schema =>
    some ("Schema '" ++ schema ++ "' does not describe a constructible record")
  | .noTruthValue =>
    some "Expressions have no truth value while being captured. Use & | ~ instead of and/or/not."
  | .notAnExpression typeName =>
    some ("Lambda must return an Expr, got " ++ typeName ++
      ". Did you forget to use the 'r' parameter?")
  | .privateAttribute name => some ("No attribute " ++ name)
  | .wrongArgumentCount takes given =>
    some ("Lambda takes " ++ toString takes ++ " argument(s) (" ++ toString given ++ " given)")
  | .unknownBinaryOp name => some ("Unknown binary operator: " ++ name)
  | .unknownUnaryOp name => some ("Unknown unary operator: " ++ name)
  | .unknownExpression kind => some ("Unknown expression type: " ++ kind)
  | .noQuery => some "query must not be None"
  | .notOrdered kind =>
    some ("then_by() requires an ordered query, got " ++ kind ++ ". Call order_by() first.")
  | .descendingText key =>
    some ("desc cannot be combined with ordering text; write '" ++ key ++ " desc' instead")
  | .badSortKey typeName =>
    some ("Sort key must be a member chain or callable, got " ++ typeName)
  | .unsortableKey label => some ("Sort key '" ++ label ++ "' is not sortable")
  | .untypedKey label => some ("Sort key '" ++ label ++ "' has no sortable Arrow type")
  | .unsortableKeys => some "Sort keys are not sortable"
  | .planMismatch reads yields =>
    some ("Projection plan reads " ++ reads ++ " rows, but the query yields " ++ yields ++ " rows")
  | .badNullPlacement shown =>
    some ("null_placement must be one of ('at_start', 'at_end'), got " ++ shown)
  | .notATable typeName => some ("Expected pyarrow.Table, got " ++ typeName)

/-- Errors about the types of values: these are what an unsortable key is recognised by. -/
def isTypeError : Error → Bool
  | .fault .wrongType | .coercionFailure .. | .notConstructible _ | .noTruthValue
  | .notAnExpression _ | .wrongArgumentCount .. | .notOrdered _ | .badSortKey _
  | .unsortableKey _ | .untypedKey _ | .unsortableKeys | .notATable _ => true
  | _ => false

end Error

/-- The outcome of an operation: its warnings in order, the types whose schemas it asked for in
order, and its value or error. -/
structure Outcome (α : Type) where
  warnings : List String := []
  described : List TypeExpr := []
  result : Except Error α

namespace Outcome

variable {α β : Type}

def ofExcept (x : Except Error α) : Outcome α where
  result := x

/-- What goes with an outcome, in front of another one. -/
def before (x : Outcome α) (y : Outcome β) : Outcome β :=
  ⟨x.warnings ++ y.warnings, x.described ++ y.described, y.result⟩

def bind (x : Outcome α) (f : α → Outcome β) : Outcome β :=
  match x.result with
  | .error e => ⟨x.warnings, x.described, .error e⟩
  | .ok a => x.before (f a)

instance : Monad Outcome where
  pure a := ofExcept (.ok a)
  bind := Outcome.bind

instance : MonadExceptOf Error Outcome where
  throw e := ofExcept (.error e)
  tryCatch x handle :=
    match x.result with
    | .ok _ => x
    | .error e => x.before (handle e)

instance : MonadLift (Except Error) Outcome where
  monadLift := ofExcept

theorem warnings_bind_ok {x : Outcome α} {a : α} (h : x.result = .ok a) (f : α → Outcome β) :
    (x >>= f).warnings = x.warnings ++ (f a).warnings := by
  change (Outcome.bind x f).warnings = _
  simp [Outcome.bind, before, h]

theorem described_bind_ok {x : Outcome α} {a : α} (h : x.result = .ok a) (f : α → Outcome β) :
    (x >>= f).described = x.described ++ (f a).described := by
  change (Outcome.bind x f).described = _
  simp [Outcome.bind, before, h]

theorem result_bind_ok {x : Outcome α} {a : α} (h : x.result = .ok a) (f : α → Outcome β) :
    (x >>= f).result = (f a).result := by
  change (Outcome.bind x f).result = _
  simp [Outcome.bind, before, h]

@[simp] theorem result_map (f : α → β) (x : Outcome α) : (f <$> x).result = x.result.map f := by
  change (Outcome.bind x _).result = _
  cases h : x.result <;> simp [Outcome.bind, before, h, Except.map, ofExcept]

@[simp] theorem warnings_map (f : α → β) (x : Outcome α) : (f <$> x).warnings = x.warnings := by
  change (Outcome.bind x _).warnings = _
  cases h : x.result <;> simp [Outcome.bind, before, h, ofExcept]

theorem bind_error {x : Outcome α} {e : Error} (h : x.result = .error e) (f : α → Outcome β) :
    x >>= f = ⟨x.warnings, x.described, .error e⟩ := by
  change Outcome.bind x f = _
  simp [Outcome.bind, h]

end Outcome

/-- The failure of an operation on types as that of an operation. -/
def ofFault {α : Type} (x : Except Fault α) : Except Error α :=
  x.mapError .fault

/-- A fault as the failure of an operation. -/
def fail {α : Type} (f : Fault) : Except Error α :=
  .error (.fault f)

end RecordQuery
