import RecordQuery.Text.Search
import RecordQuery.Value.Arithmetic

/-!
The methods of values.
-/

namespace RecordQuery

/-- The arguments of a call. -/
structure Arguments where
  positional : List Value := []
  named : List (String × Value) := []
deriving Inhabited

namespace Arguments

/-- The arguments in the order of the parameters, null for those not given, if there are at least
`required` positional ones and no more than there are parameters; arguments by name are accepted for
the parameters in `names`. -/
def take (args : Arguments) (params names : List String) (required : Nat) :
    Except Error (List (Option Value)) :=
  if params.length < args.positional.length || args.positional.length < required
      || !args.named.all fun (n, _) =>
        names.contains n && !(params.take args.positional.length).contains n then
    fail .wrongType
  else .ok ((params.zip (List.range params.length)).map fun (n, i) =>
    (args.positional[i]?).or (args.named.lookup n))

/-- Positional arguments only, between `required` and `most` of them. -/
def plain (args : Arguments) (required most : Nat) : Except Error (List (Option Value)) :=
  args.take (List.replicate most "") [] required

end Arguments

namespace Value

/-- The argument at a position, if it was given. -/
def argument (args : List (Option Value)) (i : Nat) : Option Value :=
  (args[i]?).join

/-- An optional boundary argument. -/
def boundaryArgument (length otherwise : Nat) (v : Option Value) : Except Error Nat :=
  match v with
  | none | some .null => .ok otherwise
  | some v =>
    match v.index? with
    | some i => .ok (boundary length i)
    | none => fail .wrongType

def textArgument (v : Option Value) : Except Error (List Char) :=
  match v with
  | some (.str s) => .ok s.toList
  | _ => fail .wrongType

/-- An optional limit, a word of 64 bits: all of them when it is negative or not given. -/
def limitArgument (all : Nat) (v : Option Value) : Except Error Nat :=
  match v with
  | none => .ok all
  | some v =>
    match v.index? with
    | some i =>
      if i < -Int.pow 2 63 || Int.pow 2 63 ≤ i then fail .overflow
      else .ok (if i < 0 then all else min i.toNat all)
    | none => fail .wrongType

/-- Does the test hold of one of the values, which have to be texts as far as they are tried? -/
def anyText (test : List Char → Bool) : List Value → Except Error Bool
  | [] => .ok false
  | v :: vs => do
    if test (← textArgument (some v)) then return true
    anyText test vs

/-- Does the test hold of the text, or of one of the texts of a tuple? -/
def affixTest (test : List Char → Bool) (v : Option Value) : Except Error Value := do
  match v with
  | some (.tuple items) => return .bool (← anyText test items)
  | v => return .bool (test (← textArgument v))

/-- The part of a text between two boundary arguments, with its beginning; none if the beginning
lies behind the end or outside the text. -/
def slice (cs : List Char) (start stop : Option Value) :
    Except Error (Option (Nat × List Char)) := do
  let i ← boundaryArgument cs.length 0 start
  let j ← boundaryArgument cs.length cs.length stop
  let outside := match start.bind index? with
    | some k => decide ((cs.length : Int) < k)
    | none => false
  if j < i || outside then return none
  return some (i, (cs.take j).drop i)

/-- Calls a method of a text. -/
def callText (s : String) (name : String) (args : Arguments) : Except Error Value := do
  let cs := s.toList
  let text (cs : List Char) : Value := .str (String.ofList cs)
  match name with
  | "lower" => do let _ ← args.plain 0 0; return text (Text.lower cs)
  | "upper" => do let _ ← args.plain 0 0; return text (Text.upper cs)
  | "casefold" => do let _ ← args.plain 0 0; return text (Text.fold cs)
  | "strip" =>
    match ← args.plain 0 1 with
    | [none] | [some .null] => return text (Text.trim cs)
    | a => return text (Text.trimChars (← textArgument (a.headD none)) cs)
  | "split" =>
    let a ← args.take ["sep", "maxsplit"] ["sep", "maxsplit"] 0
    let limit ← limitArgument (cs.length + 1) (argument a 1)
    match argument a 0 with
    | none | some .null => return .list ((Text.splitWords limit cs).map text)
    | separator =>
      let separator ← textArgument separator
      if separator.isEmpty then fail .wrongValue
      else return .list ((Text.splitOn separator limit cs).map text)
  | "find" =>
    let a ← args.plain 1 3
    let part ← textArgument (argument a 0)
    match ← slice cs (argument a 1) (argument a 2) with
    | none => return .int (-1)
    | some (start, within) =>
      return .int (match Text.find? part within with
        | some i => start + i
        | none => -1)
  | "count" =>
    let a ← args.plain 1 3
    let part ← textArgument (argument a 0)
    match ← slice cs (argument a 1) (argument a 2) with
    | none => return .int 0
    | some (_, within) => return .int (Text.count part within)
  | "replace" =>
    let a ← args.plain 2 3
    let old ← textArgument (argument a 0)
    let new ← textArgument (argument a 1)
    let limit ← limitArgument (cs.length + 1) (argument a 2)
    return text (Text.replace old new limit cs)
  | "startswith" =>
    let a ← args.plain 1 3
    let within ← slice cs (argument a 1) (argument a 2)
    affixTest (fun part => within.any fun (_, cs) => part.isPrefixOf cs) (argument a 0)
  | "endswith" =>
    let a ← args.plain 1 3
    let within ← slice cs (argument a 1) (argument a 2)
    affixTest (fun part => within.any fun (_, cs) => part.isSuffixOf cs) (argument a 0)
  | _ => fail .wrongType

/-- A boundary argument of a search in a sequence, which must not be null. -/
def searchBoundary (length otherwise : Nat) (v : Option Value) : Except Error Nat :=
  match v with
  | some .null => fail .wrongType
  | v => boundaryArgument length otherwise v

/-- How often a value occurs in a list. -/
def occurrences (catalog : Catalog) (v : Value) : List Value → Except Error Nat
  | [] => .ok 0
  | w :: ws => do
    let here ← w.matching catalog v
    return (if here then 1 else 0) + (← occurrences catalog v ws)

/-- The position of the first occurrence of a value in a list, counted from `start`. -/
def positionOf (catalog : Catalog) (v : Value) (start : Nat) :
    List Value → Except Error (Option Nat)
  | [] => .ok none
  | w :: ws => do
    if ← w.matching catalog v then return some start
    positionOf catalog v (start + 1) ws

/-- Calls a method of a sequence. -/
def callSequence (catalog : Catalog) (items : List Value) (name : String) (args : Arguments) :
    Except Error Value := do
  match name with
  | "count" =>
    let a ← args.plain 1 1
    return .int (← occurrences catalog ((argument a 0).getD .null) items)
  | "index" =>
    let a ← args.plain 1 3
    let i ← searchBoundary items.length 0 (argument a 1)
    let j ← searchBoundary items.length items.length (argument a 2)
    match ← positionOf catalog ((argument a 0).getD .null) i ((items.take j).drop i) with
    | some k => return .int k
    | none => fail .wrongValue
  | _ => fail .wrongType

/-- Calls a method of a mapping. -/
def callMapping (catalog : Catalog) (entries : List (Value × Value)) (name : String)
    (args : Arguments) : Except Error Value := do
  match name with
  | "get" =>
    let a ← args.plain 1 2
    let found ← entry? catalog entries ((argument a 0).getD .null)
    return found.getD ((argument a 1).getD .null)
  | _ => fail .wrongType

/-- The number of bits of an integer without its sign. -/
def bitLength (i : Int) : Nat :=
  if i = 0 then 0 else Nat.log2 i.natAbs + 1

/-- Calls a method that the value's class has. -/
def callMethod (catalog : Catalog) (v : Value) (name : String) (args : Arguments) :
    Except Error Value := do
  match v, name with
  | .str s, _ => callText s name args
  | .bool b, "bit_length" => do let _ ← args.plain 0 0; return .int (if b then 1 else 0)
  | .int i, "bit_length" => do let _ ← args.plain 0 0; return .int (bitLength i)
  | .float d, "is_integer" => do let _ ← args.plain 0 0; return .bool d.toInt?.isSome
  | .list items, _ | .tuple items, _ => callSequence catalog items name args
  | .dict entries, _ => callMapping catalog entries name args
  | _, _ => fail .wrongType

end Value
end RecordQuery
