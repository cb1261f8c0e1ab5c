import RecordQuery.TypeExpr.Basic
import RecordQuery.Text.Quoted
import RecordQuery.Text.Search

/-!
The texts of types. `name` is what messages call a declared type; `label` is its short form, which
keeps only the outermost word of a type with brackets. Inside other types a declared class is
written with the module it lives in. A name is written without the module that the types with
brackets come from, wherever the text of the type mentions that.
-/

namespace RecordQuery

def Builtin.name : Builtin → String
  | .int => "int"
  | .float => "float"
  | .str => "str"
  | .bool => "bool"
  | .bytes => "bytes"
  | .list => "list"
  | .dict => "dict"
  | .tuple => "tuple"
  | .object => "object"
  | .other name => name

def Constant.text : Constant → String
  | .null => "None"
  | .bool b => if b then "True" else "False"
  | .int i => toString i
  | .str s => Text.quoted s

namespace TypeExpr

/-- The module that declared classes live in. -/
def homeModule : String := "app"

/-- How the words of the named spelling begin. -/
def namedPrefix : String := "typing."

/-- A schema as it is shown: its name and its members. -/
def schemaText (name : String) (members : List String) : String :=
  "Schema(" ++ Text.quoted name ++ ", " ++ Text.quotedList members ++ ")"

/-- A word of the named spelling with brackets behind it. -/
def bracketed (word parts : String) : String :=
  namedPrefix ++ word ++ "[" ++ parts ++ "]"

mutual

/-- The text of a type that stands inside another one. -/
def partText : TypeExpr → String
  | .any => namedPrefix ++ "Any"
  | .null => "None"
  | .nullType => "NoneType"
  | .builtin b => b.name
  | .record name => homeModule ++ "." ++ name
  | .schema name members => schemaText name members
  | .text name => Text.quoted name
  | .forward name owned =>
    "ForwardRef(" ++ Text.quoted name ++
      (if owned then ", module=" ++ Text.quoted homeModule else "") ++ ")"
  | .union .piped members => " | ".intercalate (pipedTexts members)
  | .union .named [a, b] =>
    if b.same .nullType then bracketed "Optional" (partText a)
    else if a.same .nullType then bracketed "Optional" (partText b)
    else bracketed "Union" (partText a ++ ", " ++ partText b)
  | .union .named members => bracketed "Union" (", ".intercalate (partTexts members))
  | .list item => bracketed "List" (partText item)
  | .plain cls params => cls.name ++ "[" ++ ", ".intercalate (partTexts params) ++ "]"
  | .dict key value => bracketed "Dict" (partText key ++ ", " ++ partText value)
  | .tuple items =>
    bracketed "Tuple" (if items.isEmpty then "()" else ", ".intercalate (partTexts items))
  | .literal values =>
    bracketed "Literal"
      (if values.isEmpty then "()" else ", ".intercalate (values.map Constant.text))
  | .classVar t => bracketed "ClassVar" (partText t)
  | .column t => t.tagged
  | .thing _ shown => shown

def partTexts : List TypeExpr → List String
  | [] => []
  | t :: ts => partText t :: partTexts ts

/-- The members of a union of the piped spelling, where the class of null is written as null. -/
def pipedTexts : List TypeExpr → List String
  | [] => []
  | t :: ts => (if t.same .nullType then "None" else partText t) :: pipedTexts ts

end

/-- The text without the module of the named spelling. -/
def dropPrefixes (s : String) : String :=
  let cs := s.toList
  String.ofList (Text.replace namedPrefix.toList [] cs.length cs)

/-- The text of a type that stands alone, unless the type goes by a name of its own. -/
def shown : TypeExpr → String
  | .text name => name
  | .column t => t.text
  | t => t.partText

/-- The name of a declared type in messages. -/
def name : TypeExpr → String
  | .record name | .schema name _ => name
  | .tuple [] => "Tuple"
  | .literal [] => "Literal"
  | .thing (some name) _ => name
  | t => dropPrefixes t.shown

/-- The short form of a type in conversion failures. -/
def label : TypeExpr → String
  | .any => "Any"
  | .record name => name
  | .union .named [a, b] => if a.same .nullType || b.same .nullType then "Optional" else "Union"
  | .union .named _ => "Union"
  | .list _ => "List"
  | .plain cls _ => cls.name
  | .dict .. => "Dict"
  | .tuple _ => "Tuple"
  | .literal _ => "Literal"
  | .classVar _ => "ClassVar"
  | .thing (some name) _ => name
  | t => t.shown

/-- The shown form of a type as a value. -/
def objectText : TypeExpr → String
  | t@.nullType | t@(.builtin _) | t@(.record _) => "<class " ++ Text.quoted t.partText ++ ">"
  | .text name => Text.quoted name
  | t => t.partText

/-- The name of the type of a type. -/
def kindName : TypeExpr → String
  | .any => "_AnyMeta"
  | .null => "NoneType"
  | .nullType | .builtin _ | .record _ => "type"
  | .schema .. => "Schema"
  | .text _ => "str"
  | .forward .. => "ForwardRef"
  | .union .named _ => "_UnionGenericAlias"
  | .union .piped _ => "UnionType"
  | .list _ | .dict .. | .tuple _ | .classVar _ => "_GenericAlias"
  | .literal _ => "_LiteralGenericAlias"
  | .plain .. => "GenericAlias"
  | .column t => t.kindName
  | .thing (some _) _ => "builtin_function_or_method"
  | .thing none _ => "object"

end TypeExpr
end RecordQuery
