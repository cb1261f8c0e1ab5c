import RecordQuery.Number.Numeral
import RecordQuery.Record.Instance

/-!
The shown form of values and of captured expressions. An instance of a data class shows all its
fields; an instance of a plain class shows the name of the class alone. An integer of too many
digits cannot be shown, nor can an instance that lacks a field.
-/

namespace RecordQuery

/-- The text of an integer, unless it has too many digits. -/
def intText (i : Int) : Except Error String :=
  if Nat.pow 10 Numeral.digitLimit ≤ i.natAbs then fail .wrongValue else .ok (toString i)

/-- Items between round brackets, with a comma after a single one. -/
def tupleText : List String → String
  | [item] => "(" ++ item ++ ",)"
  | items => "(" ++ ", ".intercalate items ++ ")"

/-- The shown form of a captured expression whose values are shown by `parts`. -/
def Expr.textBy (parts : Value → Except Error String) : Expr → Except Error String
  | .literal v => do return "LiteralExpr(" ++ (← parts v) ++ ")"
  | .param p => .ok ("ParameterExpr(" ++ Text.quoted p.name ++ ")")
  | .member p a => .ok ("MemberExpr(" ++ p.name ++ "." ++ a.path ++ ")")
  | .binary op l r => do
    let left ← l.textBy parts
    return "BinOpExpr(" ++ op.name ++ ", " ++ left ++ ", " ++ (← r.textBy parts) ++ ")"
  | .unary _ _ => .ok "<dynq.expr.types.UnaryOpExpr object>"
  | .call method _ _ none => .ok ("CallExpr(" ++ method ++ ", on=None)")
  | .call method _ _ (some e) => do
    return "CallExpr(" ++ method ++ ", on=" ++ (← e.textBy parts) ++ ")"
  | .unknown kind => .ok ("<__main__." ++ kind ++ " object>")

namespace Value

/-- The class whose method it is, as the shown form of a method says. -/
def methodOwner (receiver : Value) (name : String) : String :=
  match receiver with
  | .expr _ => if name == "serialize" then receiver.typeName else "Expr"
  | receiver => receiver.typeName

/-- The shown form of an instance, if its class is a data class itself. -/
def instanceText (parts : Value → Except Error String) (catalog : Catalog) (cls : String)
    (attrs : List (String × Value)) : Except Error String :=
  if (catalog.class? cls).any (·.isData) then do
    let fields ← (catalog.dataFields cls).mapM fun f => do
      return f.name ++ "=" ++ (← parts (← catalog.attributeOf cls attrs f.name))
    return cls ++ "(" ++ ", ".intercalate fields ++ ")"
  else .ok ("<" ++ cls ++ ">")

/-- The shown form of a value whose parts are shown by `parts`. -/
def textBy (parts : Value → Except Error String) (catalog : Catalog) : Value → Except Error String
  | .null => .ok "None"
  | .bool b => .ok (if b then "True" else "False")
  | .int i => intText i
  | .float d => .ok d.text
  | .str s => .ok (Text.quoted s)
  | .bytes bs => .ok (Text.quotedBytes bs)
  | .list items => do return "[" ++ ", ".intercalate (← items.mapM parts) ++ "]"
  | .tuple items => do return tupleText (← items.mapM parts)
  | .dict entries => do
    let texts ← entries.mapM fun (k, v) => do
      let key ← parts k
      return key ++ ": " ++ (← parts v)
    return "\x7b" ++ ", ".intercalate texts ++ "\x7d"
  | .record cls _ attrs => instanceText parts catalog cls attrs
  | .expr e => e.textBy parts
  | .proxy p => .ok ("SchemaProxy(" ++ (p.schema.map (·.name)).getD "" ++ ")")
  | .accessor a => .ok a.text
  | .schema s => .ok s.text
  | .field f => .ok f.text
  | .type t => .ok t.objectText
  | .method receiver name => do
    match methodTypeName receiver name with
    | "function" => return "<function " ++ methodOwner receiver name ++ "." ++ name ++ ">"
    | "method" =>
      return "<bound method " ++ methodOwner receiver name ++ "." ++ name ++ " of " ++
        (← parts receiver) ++ ">"
    | _ => return "<built-in method " ++ name ++ " of " ++ receiver.typeName ++ " object>"
  | .object _ text => .ok text

/-- The shown form of a value that nests less deep than `depth`. -/
def textWithin (catalog : Catalog) : (depth : Nat) → Value → Except Error String
  | 0 => fun _ => fail .tooDeep
  | depth + 1 => textBy (textWithin catalog depth) catalog

/-- The shown form of a value. -/
def text (catalog : Catalog) (v : Value) : Except Error String :=
  textWithin catalog (catalog.nesting v + 1) v

/-- The value as text: texts are themselves, all else is shown. -/
def plainText (catalog : Catalog) : Value → Except Error String
  | .str s => .ok s
  | v => v.text catalog

end Value

/-- The shown form of a captured expression. -/
def Expr.text (catalog : Catalog) (e : Expr) : Except Error String :=
  (Value.expr e).text catalog

end RecordQuery
