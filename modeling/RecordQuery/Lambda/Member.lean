import RecordQuery.Accessor
import RecordQuery.Expr.Serialization
import RecordQuery.Lambda.Term
import RecordQuery.Record.Construction

/-!
What a lambda body reaches from a value by name. On plain values these are attributes and methods. A
proxy gives its schema's members as captured expressions; a captured member that is a record gives
the members of that record, and one without members, like a captured call, a captured method call.
The attributes that expressions have of their own come first.
-/

namespace RecordQuery

/-- What a name reaches from a value. -/
inductive Member where
  /-- A value that is no method. -/
  | value (v : Value)
  /-- A method of the value. -/
  | method (receiver : Value) (name : String)
  /-- A method call that will be captured. -/
  | captured (method : String) (on : Expr)
deriving Inhabited

namespace Member

/-- The operators that an expression has under a name, and whether it is on their right side. -/
def operatorMethods : List (String × BinaryOp × Bool) :=
  [("__add__", .add, false), ("__sub__", .sub, false), ("__mul__", .mul, false),
   ("__truediv__", .div, false), ("__mod__", .mod, false), ("__radd__", .add, true),
   ("__rsub__", .sub, true), ("__rmul__", .mul, true), ("__eq__", .eq, false),
   ("__ne__", .ne, false), ("__lt__", .lt, false), ("__le__", .le, false), ("__gt__", .gt, false),
   ("__ge__", .ge, false), ("__and__", .and, false), ("__or__", .or, false)]

/-- The methods that every captured expression has. -/
def expressionMethods : List String :=
  ["serialize", "is_null", "is_not_null", "is_in", "between", "_coerce", "__invert__"] ++
    operatorMethods.map (·.1)

/-- The member of a schema that a name reaches from a proxy. -/
def ofProxy (p : Param) (name : String) : Outcome Member := do
  let s := p.recordSchema
  match ← s.lookup name with
  | some f => return .value (.expr (.member p { root := s, fields := [f] }))
  | none => throw (.unknownMember s.name name 0)

/-- What a name reaches from a captured member: a member of its record, or a method call. -/
def ofMember (d : Directory) (p : Param) (a : Accessor) (name : String) : Outcome Member := do
  let owner ← d.enter (a.fields.getLastD default)
  match ← owner.lookup name with
  | some f => return .value (.expr (.member p { a with fields := a.fields ++ [f] }))
  | none =>
    if owner.fields.isEmpty then return .captured name (.member p a)
    else throw (.unknownMember owner.name name a.fields.length)

/-- The attributes that an expression has of its own, its methods apart. -/
def ownAttr? (e : Expr) (name : String) : Option Value :=
  match e, name with
  | .param p, "name" => some (.str p.name)
  | .param p, "index" => some (.int p.index)
  | .param p, "schema" => some ((p.schema.map Value.schema).getD .null)
  | .member p _, "param" => some (.expr (.param p))
  | .member _ a, "accessor" => some (.accessor a)
  | .member _ a, "chain" => some (.tuple (a.chain.map .str))
  | .literal v, "value" => some v
  | .literal v, "dtype" => some (.str v.dataType)
  | .binary op _ _, "op" => some (.str op.name)
  | .binary _ l _, "left" => some (.expr l)
  | .binary _ _ r, "right" => some (.expr r)
  | .unary op _, "op" => some (.str op.name)
  | .unary _ e, "operand" => some (.expr e)
  | .call m _ _ _, "func" => some (.str m)
  | .call _ args _ _, "args" => some (.tuple args)
  | .call _ _ named _, "kwargs" => some (.dict (named.map fun (n, v) => (.str n, v)))
  | .call _ _ _ on, "on" => some ((on.map Value.expr).getD .null)
  | _, _ => none

/-- What a name reaches from a captured expression. -/
def ofExpr (d : Directory) (e : Expr) (name : String) : Outcome Member :=
  match ownAttr? e name with
  | some v => pure (.value v)
  | none =>
    if expressionMethods.contains name then pure (.method (.expr e) name)
    else
      match e with
      | .member p a =>
        if Catalog.isPrivate name then throw (.privateAttribute name) else ofMember d p a name
      | .call .. =>
        if Catalog.isPrivate name then throw (.privateAttribute name) else pure (.captured name e)
      | _ => throw (.fault .noAttribute)

/-- What a name reaches from a value. -/
def of (d : Directory) (v : Value) (name : String) : Outcome Member :=
  match v with
  | .expr e => ofExpr d e name
  | .proxy p =>
    match name with
    | "get_schema" => pure (.method v name)
    | "_schema" => pure (.value (.schema (p.recordSchema)))
    | "_param" => pure (.value (.expr (.param p)))
    | _ => if Catalog.isPrivate name then throw (.privateAttribute name) else ofProxy p name
  | v => do
    match ← v.readAttr d.catalog name with
    | .method receiver name => return .method receiver name
    | w => return .value w

/-- A member that is read and not called, as a value. -/
def toValue : Member → Value
  | .value v => v
  | .method receiver name => .method receiver name
  | .captured .. => .object "function" "<function _call_builder.<locals>.build>"

/-- Calls a method of a captured expression. -/
def callExpression (e : Expr) (name : String) (args : Arguments) : Except Error Value := do
  match name with
  | "serialize" => do let _ ← args.plain 0 0; return e.serialize
  | "is_null" | "is_not_null" => do
    let _ ← args.plain 0 0
    return .expr (.call name [] [] (some e))
  | "is_in" =>
    let a ← args.take ["values"] ["values"] 0
    match Value.argument a 0 with
    | none => fail .wrongType
    | some (.proxy _) => fail .noAttribute
    | some values =>
      return .expr (.call name ((← values.iterate).map fun v => .expr v.lift) [] (some e))
  | "between" =>
    let a ← args.take ["low", "high"] ["low", "high"] 0
    match Value.argument a 0, Value.argument a 1 with
    | some low, some high =>
      return .expr (.binary .and (.binary .ge e low.lift) (.binary .le e high.lift))
    | _, _ => fail .wrongType
  | "__invert__" => do let _ ← args.plain 0 0; return .expr (.unary .not e)
  | name =>
    let operator := operatorMethods.lookup name
    let param := if operator.isSome then "other" else "value"
    match operator, Value.argument (← args.take [param] [param] 0) 0 with
    | some (op, false), some v => return .expr (.binary op e v.lift)
    | some (op, true), some v => return .expr (.binary op v.lift e)
    | none, some v => return .expr v.lift
    | _, none => fail .wrongType

/-- Reads one member in a lambda body, where the value may stand for a row. -/
def readField (d : Directory) (f : Field) (v : Value) : Outcome Value :=
  match f.access, v with
  | .attr, .proxy _ | .attr, .expr _ => do return (← of d v f.name).toValue
  | .item, .proxy _ | .item, .expr _ => do
    match ← of d v "get" with
    | .captured m on => return .expr (.call m [.str f.name] [] (some on))
    | _ => throw (.fault .wrongType)
  | _, v => f.read d.catalog v

/-- Reads along a chain in a lambda body. -/
def follow (d : Directory) : List Field → Value → Outcome Value
  | [], v => pure v
  | f :: fs, v => do if v.isNull then return .null else follow d fs (← readField d f v)

/-- The text that a name is compared by up to case. An expression makes a captured call of that, and
has no truth value when it is compared. -/
def foldedName (s : Schema) (name : Value) : Except Error (Option String) :=
  match name with
  | .str name => .ok (some name)
  | .expr (.member ..) | .expr (.call ..) =>
    if s.fields.any (·.readable) then .error .noTruthValue else .ok none
  | _ => fail .noAttribute

/-- The members that a value may mean as a name. -/
def candidates (d : Directory) (s : Schema) (name : Value) : Except Error (List Field) := do
  name.checkKey d.catalog
  match ← foldedName s name with
  | some name => return s.candidates name
  | none => return []

/-- Calls a method of a schema. -/
def callSchema (d : Directory) (s : Schema) (name : String) (args : Arguments) : Outcome Value := do
  let one (param : String) : Outcome Value := do
    match ← (args.take [param] [param] 0 : Except Error _) with
    | [some v] => return v
    | _ => throw (.fault .wrongType)
  match name with
  | "names" => do
    let _ ← (args.plain 0 0 : Except Error _)
    return .list (s.names.map .str)
  | "get" =>
    let v ← one "name"
    v.checkKey d.catalog
    match v with
    | .str name => return ((s.get? name).map Value.field).getD .null
    | _ => return .null
  | "candidates" => return .list ((← candidates d s (← one "name")).map .field)
  | "lookup" =>
    let v ← one "name"
    match ← candidates d s v, v with
    | _, .str name => return ((← s.lookup name).map Value.field).getD .null
    | _, _ => return .null
  | "matches" =>
    match ← one "other" with
    | .schema t => return .bool (s.agrees t)
    | _ => return .bool false
  | _ => if args.positional.isEmpty then s.new d.catalog args.named else throw (.fault .wrongType)

/-- Calls a method of a member of a schema. -/
def callField (d : Directory) (f : Field) (name : String) (args : Arguments) : Outcome Value := do
  match name with
  | "member_schema" => do
    let _ ← (args.plain 0 0 : Except Error _)
    return .schema (← d.enter f)
  | "read" =>
    match ← (args.take ["instance"] ["instance"] 0 : Except Error _) with
    | [some v] => readField d f v
    | _ => throw (.fault .wrongType)
  | _ =>
    match ← (args.take ["instance", "value"] ["instance", "value"] 0 : Except Error _) with
    | [some v, some w] => do
      let _ ← (f.write d.catalog v w : Except Error _)
      return .null
    | _ => throw (.fault .wrongType)

/-- What a built-in class makes of nothing. -/
def blank : Builtin → Value
  | .int => .int 0
  | .float => .float (.zero false)
  | .str => .str ""
  | .bool => .bool false
  | .bytes => .bytes []
  | .list => .list []
  | .dict => .dict []
  | .tuple => .tuple []
  | .object => .object "object" "<object object>"
  | .other name => .object name ("<" ++ name ++ " object>")

/-- Calls a class. -/
def callType (catalog : Catalog) (t : TypeExpr) (args : Arguments) : Except Error Value :=
  match t, args with
  | .builtin b, ⟨[], []⟩ => .ok (blank b)
  | .builtin b, ⟨[v], []⟩ => v.toBuiltin catalog b
  | .record cls, args => catalog.construct cls args.positional args.named
  | _, _ => fail .wrongType

/-- Calls a member. A resolved chain can be called with the value to read from. -/
def call (d : Directory) (m : Member) (args : Arguments) : Outcome Value :=
  match m with
  | .captured m on => pure (.expr (.call m args.positional args.named (some on)))
  | .method (.expr e) name => callExpression e name args
  | .method (.proxy p) _ => do
    let _ ← (args.plain 0 0 : Except Error _)
    return .schema (p.recordSchema)
  | .method (.schema s) name => callSchema d s name args
  | .method (.field f) name => callField d f name args
  | .method v name => d.callMethod d.catalog v name args
  | .value (.accessor a) => do
    match ← (args.take ["instance"] ["instance"] 0 : Except Error _) with
    | [some v] => follow d a.fields v
    | _ => throw (.fault .wrongType)
  | .value (.type t) => callType d.catalog t args
  | .value _ => throw (.fault .wrongType)

/-- Looks a name up on a value and calls what it reaches. -/
def invoke (d : Directory) (v : Value) (name : String) (args : Arguments) : Outcome Value := do
  (← of d v name).call d args

end Member
end RecordQuery
