import RecordQuery.Catalog.Basic
import RecordQuery.TypeExpr.Formation
import RecordQuery.Value.Printer

/-!
The declared types of fields with their references looked up. If one reference of a class names
nothing, all annotations of the class stay as they were written. A reference that is no expression,
or that asks a class for what it does not have, cannot be passed over like that.
-/

namespace RecordQuery

/-- The built-in classes of whose instances only the class is known. -/
def Builtin.otherNames : List String :=
  ["bytearray", "classmethod", "complex", "enumerate", "filter", "frozenset", "map", "memoryview",
   "property", "range", "reversed", "set", "slice", "staticmethod", "super", "type", "zip"]

/-- The functions that are built in. -/
def Builtin.functionNames : List String :=
  ["abs", "aiter", "all", "anext", "any", "ascii", "bin", "breakpoint", "callable", "chr",
   "compile", "delattr", "dir", "divmod", "eval", "exec", "format", "getattr", "globals", "hasattr",
   "hash", "hex", "id", "input", "isinstance", "issubclass", "iter", "len", "locals", "max", "min",
   "next", "oct", "open", "ord", "pow", "print", "repr", "round", "setattr", "sorted", "sum",
   "vars"]

/-- The built-in classes that take parameters. -/
def Builtin.takesParameters : Builtin → Bool
  | .list | .dict | .tuple => true
  | .other name => ["set", "frozenset", "type", "enumerate"].contains name
  | _ => false

namespace Catalog

/-- The built-in class of this name. -/
def builtin? (name : String) : Option Builtin :=
  let name := (Builtin.exceptionAliases.lookup name).getD name
  ([.int, .float, .str, .bool, .bytes, .list, .dict, .tuple, .object].find? (·.name == name)).or
    (if Builtin.otherNames.contains name || Builtin.isException name then some (.other name)
     else none)

/-- The declared type of this name. -/
def declared? (catalog : Catalog) (name : String) : Option TypeExpr :=
  if catalog.classes.any (·.name == name) then some (.record name)
  else (catalog.schemas.lookup name).map fun s => .schema s.name s.names

/-- The built-in type or function of this name. -/
def builtIn? (name : String) : Option TypeExpr :=
  match builtin? name with
  | some b => some (.builtin b)
  | none =>
    if Builtin.functionNames.contains name then
      some (.thing (some name) ("<built-in function " ++ name ++ ">"))
    else none

/-- What a value stands for where a type is expected. -/
def typeOfValue (catalog : Catalog) (v : Value) : TypeExpr :=
  match v with
  | .null => .null
  | .str s => .text s
  | .type t => t
  | v => .thing none ((v.text catalog).toOption.getD "")

/-- What a class member stands for where a type is expected. -/
def typeOfMember (catalog : Catalog) : ClassMember → TypeExpr
  | .property _ => .thing none "<property object>"
  | .shared v => catalog.typeOfValue v

/-- The class whose own members can be named in its annotations. -/
abbrev Scope := Option ClassDecl

/-- What a name in an annotation refers to: a declared type, a member of the class, or what is built
in. -/
def named (catalog : Catalog) (scope : Scope) (name : String) : Except Fault TypeExpr :=
  match (catalog.declared? name).or
      (((scope.bind (ownMember? · name)).map catalog.typeOfMember).or (builtIn? name)) with
  | some t => .ok t
  | none => .error .noName

mutual

/-- What a reference evaluates to. -/
def evaluate (catalog : Catalog) (scope : Scope) : Reference → Except Fault TypeExpr
  | .name name => catalog.named scope name
  | .member r name => do
    match ← evaluate catalog scope r with
    | .record cls =>
      match catalog.member? cls name with
      | some m => return catalog.typeOfMember m
      | none => .error .noAttribute
    | _ => .error .noAttribute
  | .either a b => do
    let a ← evaluate catalog scope a
    a.pipe (← evaluate catalog scope b)
  | .parameters cls params => do
    match ← evaluate catalog scope cls with
    | .builtin b =>
      let params ← evaluateAll catalog scope params
      if b.takesParameters then return .plain b params else .error .wrongType
    | _ => .error .wrongType
  | .null => .ok .null
  | .text s => .ok (.text s)
  | .constant shown => .ok (.thing none shown)
  | .other => .error .wrongType

def evaluateAll (catalog : Catalog) (scope : Scope) : List Reference → Except Fault (List TypeExpr)
  | [] => .ok []
  | r :: rs => do
    let t ← evaluate catalog scope r
    return t :: (← evaluateAll catalog scope rs)

end

/-- The type that a reference stands for, in which `again` looks up further references. -/
def referred (catalog : Catalog) (scope : Scope) (again : TypeExpr → Except Fault TypeExpr)
    (s : String) : Except Fault TypeExpr := do
  again (← catalog.evaluate scope (← Reference.read s)).asPart

mutual

/-- The type with its references looked up by `refer`. -/
def resolveBy (refer : String → Except Fault TypeExpr) : TypeExpr → Except Fault TypeExpr
  | .text s | .forward s _ => refer s
  | .union style members => do return .unionIn style (← resolveAllBy refer members)
  | .list item => do return .list (← resolveBy refer item)
  | .plain cls params => do return .plain cls (← resolveAllBy refer params)
  | .dict key value => do return .dict (← resolveBy refer key) (← resolveBy refer value)
  | .tuple items => do return .tuple (← resolveAllBy refer items)
  | .classVar t => do return .classVar (← resolveBy refer t)
  | t => .ok t

def resolveAllBy (refer : String → Except Fault TypeExpr) :
    List TypeExpr → Except Fault (List TypeExpr)
  | [] => .ok []
  | t :: ts => do
    let t ← resolveBy refer t
    return t :: (← resolveAllBy refer ts)

end

/-- The type with references looked up, and those that come out of references, `depth` times. -/
def resolveWithin (catalog : Catalog) (scope : Scope) :
    (depth : Nat) → TypeExpr → Except Fault TypeExpr
  | 0, t => .ok t
  | depth + 1, t => resolveBy (catalog.referred scope (resolveWithin catalog scope depth)) t

/-- How often references come out of references. -/
def referenceDepth : Nat := 16

/-- A type as an annotation, with all its references looked up: null stands for its class. -/
def annotation (catalog : Catalog) (scope : Scope) (t : TypeExpr) : Except Fault TypeExpr :=
  match t with
  | .null => .ok .nullType
  | t => catalog.resolveWithin scope referenceDepth t

/-- An annotation as the class keeps it before references are looked up. -/
def writtenType (c : ClassDecl) (t : TypeExpr) : TypeExpr :=
  match c.kind, t with
  | .mapping, .null => .nullType
  | .mapping, .text name => .forward name true
  | _, _ => t

/-- The annotations of a class and its bases as they were written. An annotation made again keeps
its place. -/
def written (catalog : Catalog) (name : String) : List (String × TypeExpr) :=
  (catalog.lineage name).foldl
    (fun all c => c.fields.foldl (fun all f => put all f.name (writtenType c f.type)) all) []

/-- The annotations of a class and its bases with references looked up. -/
def resolved (catalog : Catalog) (name : String) : Except Fault (List (String × TypeExpr)) :=
  (catalog.lineage name).foldlM
    (fun all c => c.fields.foldlM
      (fun all f => do return put all f.name (← catalog.annotation (some c) (writtenType c f.type)))
      all)
    []

/-- The annotations of a class and its bases with references looked up, or as they were written if
one of the references names nothing. -/
def annotations (catalog : Catalog) (name : String) : List (String × TypeExpr) :=
  match catalog.resolved name with
  | .ok all => all
  | .error _ => catalog.written name

/-- The declared type of a property with references looked up: the annotation of its getter. -/
def resolvedProperty (catalog : Catalog) (p : Property) : Except Fault TypeExpr :=
  match p.getter, p.type with
  | some _, some t => catalog.annotation none t
  | _, _ => .ok .any

/-- The declared type of a property. -/
def propertyType (catalog : Catalog) (p : Property) : TypeExpr :=
  match catalog.resolvedProperty p with
  | .ok t => t
  | .error _ => p.type.getD .any

end Catalog
end RecordQuery
