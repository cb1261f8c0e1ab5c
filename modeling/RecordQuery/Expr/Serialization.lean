import RecordQuery.Value.Basic

/-!
The serialized form of captured expressions: nested mappings, each with its kind under `type`.
-/

namespace RecordQuery

/-- The name of the data type of a literal; data without a name of its own goes by its type. -/
def Value.dataType : Value → String
  | .bool _ => "Boolean"
  | .int _ => "Int64"
  | .float _ => "Float64"
  | .str _ => "String"
  | .null => "Null"
  | v => v.typeName

/-- A mapping of the given kind with the given entries. -/
def node (kind : String) (entries : List (String × Value)) : Value :=
  .dict ((("type", .str kind) :: entries).map fun (k, v) => (.str k, v))

/-- The serialized form of a literal. -/
def serializeLiteral (v : Value) : Value :=
  node "Literal" [("value", v), ("dtype", .str v.dataType)]

mutual

/-- The serialized form of an expression. -/
def Expr.serialize : Expr → Value
  | .literal v => serializeLiteral v
  | .param p => node "Parameter" [("name", .str p.name)]
  | .member p a =>
    node "Member" [("param", .str p.name), ("chain", .list (a.chain.map .str))]
  | .binary op l r =>
    node "BinOp" [("op", .str op.name), ("left", l.serialize), ("right", r.serialize)]
  | .unary op e => node "UnaryOp" [("op", .str op.name), ("operand", e.serialize)]
  | .call method args named none =>
    node "Call" [("func", .str method), ("args", .list (serializeArgs args)),
      ("kwargs", .dict (serializeNamed named)), ("on", .null)]
  | .call method args named (some e) =>
    node "Call" [("func", .str method), ("args", .list (serializeArgs args)),
      ("kwargs", .dict (serializeNamed named)), ("on", e.serialize)]
  | .unknown kind => node kind []

/-- The serialized form of an argument, which may be an expression or a plain value. -/
def Value.serializeOperand : Value → Value
  | .expr e => e.serialize
  | v => serializeLiteral v

def serializeArgs : List Value → List Value
  | [] => []
  | v :: vs => v.serializeOperand :: serializeArgs vs

def serializeNamed : List (String × Value) → List (Value × Value)
  | [] => []
  | (n, v) :: rest => (.str n, v.serializeOperand) :: serializeNamed rest

end

end RecordQuery
