import RecordQuery.Number.Shortest
import RecordQuery.Schema.Basic

/-!
Values and captured expressions. The two are defined together: a captured expression holds constant
values, and while a lambda body runs on proxies the values in it may be expressions.
-/

namespace RecordQuery

/-- A parameter of a captured lambda. The `key` says which parameter it is; names may repeat. A
parameter without a schema stands for a scalar. -/
structure Param where
  key : Nat
  name : String
  index : Nat
  schema : Option Schema
deriving Inhabited

/-- The schema of the record that a parameter stands for. -/
def Param.recordSchema (p : Param) : Schema :=
  p.schema.getD { key := .anonymous "", name := "", fields := [] }

/-- A member chain resolved on a root schema, with the member found at each step. -/
structure Accessor where
  root : Schema
  fields : List Field
deriving Inhabited

namespace Accessor

/-- The declared names along the chain. -/
def chain (a : Accessor) : List String :=
  a.fields.map (·.name)

def path (a : Accessor) : String :=
  ".".intercalate a.chain

/-- The declared type of the last member. -/
def resultType (a : Accessor) : TypeExpr :=
  match a.fields.getLast? with
  | some f => f.type
  | none => .any

def text (a : Accessor) : String :=
  "ResolvedAccessor(" ++ a.root.name ++ "." ++ a.path ++ " -> " ++ a.resultType.name ++ ")"

end Accessor

/-- The operators of captured expressions. -/
inductive BinaryOp where
  | add | sub | mul | div | mod | eq | ne | lt | le | gt | ge | and | or
  /-- An operator that evaluation does not know. -/
  | other (name : String)
deriving DecidableEq, Repr, Inhabited

inductive UnaryOp where
  | not
  /-- An operator that evaluation does not know. -/
  | other (name : String)
deriving DecidableEq, Repr, Inhabited

mutual

/-- A value held by a record, or made while a lambda body runs. -/
inductive Value where
  | null
  | bool (b : Bool)
  | int (i : Int)
  | float (d : Double)
  | str (s : String)
  | bytes (bs : List UInt8)
  | list (items : List Value)
  | tuple (items : List Value)
  /-- A mapping, in the order in which its keys were first set. -/
  | dict (entries : List (Value × Value))
  /-- An instance of a declared class with its stored attributes. The `serial` tells apart instances
  of classes that are compared by identity. -/
  | record (cls : String) (serial : Nat) (attrs : List (String × Value))
  /-- A captured expression. -/
  | expr (e : Expr)
  /-- The row that a captured lambda is run on. -/
  | proxy (p : Param)
  | accessor (a : Accessor)
  | schema (s : Schema)
  /-- A member of a schema. -/
  | field (f : Field)
  /-- A declared type. -/
  | type (t : TypeExpr)
  /-- A method of a value that was read and not called. -/
  | method (receiver : Value) (name : String)
  /-- Anything else, by its type and its shown form. -/
  | object (kind : String) (shown : String)

/-- A captured expression. -/
inductive Expr where
  | literal (value : Value)
  | param (p : Param)
  | member (p : Param) (accessor : Accessor)
  | binary (op : BinaryOp) (left right : Expr)
  | unary (op : UnaryOp) (operand : Expr)
  /-- A method call on another expression, if it has a receiver. -/
  | call (method : String) (args : List Value) (named : List (String × Value)) (on : Option Expr)
  /-- A kind of expression that evaluation does not know. -/
  | unknown (kind : String)

end

instance : Inhabited Value := ⟨.null⟩
instance : Inhabited Expr := ⟨.literal .null⟩

namespace Expr

/-- The name of an expression's kind. -/
def kind : Expr → String
  | .literal _ => "LiteralExpr"
  | .param _ => "ParameterExpr"
  | .member .. => "MemberExpr"
  | .binary .. => "BinOpExpr"
  | .unary .. => "UnaryOpExpr"
  | .call .. => "CallExpr"
  | .unknown kind => kind

end Expr

namespace Value

/-- The name of the type of a method: those of expressions, rows, schemas and members are methods
like any other, except one that needs no receiver; those of the values they are made of are built
in. -/
def methodTypeName (receiver : Value) (name : String) : String :=
  match receiver with
  | .expr _ => if name == "_coerce" then "function" else "method"
  | .proxy _ | .schema _ | .field _ => "method"
  | _ => "builtin_function_or_method"

/-- The name of a value's type. -/
def typeName : Value → String
  | .null => "NoneType"
  | .bool _ => "bool"
  | .int _ => "int"
  | .float _ => "float"
  | .str _ => "str"
  | .bytes _ => "bytes"
  | .list _ => "list"
  | .tuple _ => "tuple"
  | .dict _ => "dict"
  | .record cls _ _ => cls
  | .expr e => e.kind
  | .proxy _ => "SchemaProxy"
  | .accessor _ => "ResolvedAccessor"
  | .schema _ => "Schema"
  | .field _ => "FieldDescriptor"
  | .type t => t.kindName
  | .method receiver name => methodTypeName receiver name
  | .object kind _ => kind

def isNull : Value → Bool
  | .null => true
  | _ => false

/-- A value as an operand of a captured expression: expressions stay, all else is a literal. -/
def lift : Value → Expr
  | .expr e => e
  | v => .literal v

end Value

/-- The name of an operator in serialized expressions. -/
def BinaryOp.name : BinaryOp → String
  | .add => "Add"
  | .sub => "Sub"
  | .mul => "Mul"
  | .div => "Div"
  | .mod => "Mod"
  | .eq => "Eq"
  | .ne => "Ne"
  | .lt => "Lt"
  | .le => "Le"
  | .gt => "Gt"
  | .ge => "Ge"
  | .and => "And"
  | .or => "Or"
  | .other name => name

/-- The operator of this name. -/
def BinaryOp.ofName (name : String) : BinaryOp :=
  [.add, .sub, .mul, .div, .mod, .eq, .ne, .lt, .le, .gt, .ge, .and, .or].find? (·.name == name)
    |>.getD (.other name)

def UnaryOp.name : UnaryOp → String
  | .not => "Not"
  | .other name => name

/-- The operator of this name. -/
def UnaryOp.ofName (name : String) : UnaryOp :=
  if name == "Not" then .not else .other name

@[simp] theorem Value.lift_expr (e : Expr) : (Value.expr e).lift = e := rfl

end RecordQuery
