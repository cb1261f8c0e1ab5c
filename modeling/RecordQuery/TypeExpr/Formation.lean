import RecordQuery.TypeExpr.Basic
import RecordQuery.TypeExpr.Reference

/-!
Making types from types. Types with brackets in the named spelling are made once: who asks again
with equal parts gets the type that was made first, which shows in the order of a union inside it.
-/

namespace RecordQuery

namespace TypeExpr

/-- A type as a part of another type. A type of the class level cannot be one, and a bare text has
to be a reference. -/
def part (t : TypeExpr) : Except Fault TypeExpr :=
  match t with
  | .classVar _ => .error .wrongType
  | .text s => do
    let _ ← Reference.read s
    return .forward s false
  | t => .ok t.asPart

/-- The union of types, of which there has to be one. -/
def union? (ts : List TypeExpr) : Except Fault TypeExpr :=
  match ts with
  | [] => .error .wrongType
  | ts => do return unionOf (← ts.mapM part)

/-- Types with brackets of the named spelling: `|` between one of them and another type gives a
union in the named spelling. -/
def isNamedGeneric : TypeExpr → Bool
  | .union .named _ | .list _ | .dict .. | .tuple _ | .literal _ | .classVar _ => true
  | _ => false

/-- Types that `|` accepts on both sides. -/
def canPipe : TypeExpr → Bool
  | .any | .nullType | .builtin _ | .record _ | .plain .. | .union .piped _ => true
  | _ => false

/-- Is `a | b` a union in the named spelling? -/
def pipesNamed (a b : TypeExpr) : Bool :=
  a.isNamedGeneric || b.isNamedGeneric

/-- `a | b`. -/
def pipe (a b : TypeExpr) : Except Fault TypeExpr :=
  if pipesNamed a b then union? [a, b]
  else
    match a, b with
    | .null, .null => .error .wrongType
    | .null, t | t, .null => if t.canPipe then .ok (unionIn .piped [a, b]) else .error .wrongType
    | _, _ => if a.canPipe && b.canPipe then .ok (unionIn .piped [a, b]) else .error .wrongType

end TypeExpr

/-- What is asked for by a type with brackets in the named spelling. -/
inductive TypeRequest where
  | optional (t : TypeExpr)
  | union (ts : List TypeExpr)
  | list (item : TypeExpr)
  | dict (key value : TypeExpr)
  | tuple (items : List TypeExpr)
  | classVar (t : TypeExpr)
deriving Inhabited

namespace TypeRequest

/-- Two requests are answered alike: they ask for the same with equal parts in the same order. -/
def same : TypeRequest → TypeRequest → Bool
  | .optional a, .optional b | .list a, .list b | .classVar a, .classVar b => a.hashesAs b
  | .union as, .union bs | .tuple as, .tuple bs =>
    as.length == bs.length && (as.zip bs).all fun (a, b) => a.hashesAs b
  | .dict a b, .dict c d => a.hashesAs c && b.hashesAs d
  | _, _ => false

/-- The type that is asked for. -/
def form : TypeRequest → Except Fault TypeExpr
  | .optional t => do TypeExpr.union? [← t.part, .nullType]
  | .union ts => TypeExpr.union? ts
  | .list item => do return .list (← item.part)
  | .dict key value => do return .dict (← key.part) (← value.part)
  | .tuple items => do return .tuple (← items.mapM TypeExpr.part)
  | .classVar t => do return .classVar (← t.part)

end TypeRequest

/-- The types that were asked for, the first one first. -/
structure TypeTable where
  made : List (TypeRequest × TypeExpr) := []
deriving Inhabited

namespace TypeTable

/-- The type made for an equal request. -/
def find? (table : TypeTable) (r : TypeRequest) : Option TypeExpr :=
  (table.made.find? (·.1.same r)).map (·.2)

/-- The type for a request, made now if no equal one was made. -/
def provide (table : TypeTable) (r : TypeRequest) : Except Fault (TypeExpr × TypeTable) :=
  match table.find? r with
  | some t => .ok (t, table)
  | none => do
    let t ← r.form
    return (t, { made := table.made ++ [(r, t)] })

/-- The type that is asked for. An optional type is a union with null, which is asked for too. -/
def request (table : TypeTable) (r : TypeRequest) : Except Fault (TypeExpr × TypeTable) :=
  match table.find? r, r with
  | some t, _ => .ok (t, table)
  | none, .optional t => do
    let (u, table) ← table.provide (.union [← t.part, .nullType])
    return (u, { made := table.made ++ [(r, u)] })
  | none, r => table.provide r

/-- `a | b`, which asks for a union if it is one in the named spelling. -/
def pipe (table : TypeTable) (a b : TypeExpr) : Except Fault (TypeExpr × TypeTable) :=
  if a.pipesNamed b then table.request (.union [a, b])
  else do return (← a.pipe b, table)

end TypeTable
end RecordQuery
