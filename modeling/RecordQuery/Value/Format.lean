import RecordQuery.Number.Fixed
import RecordQuery.Value.Conversion
import RecordQuery.Value.Item

/-!
Format texts. A directive begins with a percent sign and says, in this order: the name of the
argument it wants, flags, a width, a precision, and the conversion. Arguments are used from left to
right unless a name looks one up, and all of them have to be used.
-/

namespace RecordQuery

/-- What is formatted: a text, or bytes, whose characters are bytes. -/
inductive FormatKind where
  | text | bytes
deriving DecidableEq, Repr, Inhabited

/-- The arguments that a format has still to use. -/
inductive FormatArgs where
  | items (left : List Value)
  | single (v : Value)
  | used
deriving Inhabited

namespace FormatArgs

/-- The next argument, and those that are left behind it. -/
def next : FormatArgs → Except Error (Value × FormatArgs)
  | .items (v :: vs) => .ok (v, .items vs)
  | .single v => .ok (v, .used)
  | .items [] | .used => fail .wrongType

/-- Were all arguments used? -/
def isUsed : FormatArgs → Bool
  | .items left => left.isEmpty
  | .single _ => false
  | .used => true

end FormatArgs

/-- What a directive says before its conversion. -/
structure Directive where
  /-- Fill up on the right. -/
  leftward : Bool := false
  /-- Show the sign of numbers that are not negative, or keep a blank for it. -/
  plus : Bool := false
  blank : Bool := false
  /-- Use the longer form of a number. -/
  longer : Bool := false
  /-- Fill up numbers with zeros. -/
  zeros : Bool := false
  width : Option Nat := none
  precision : Option Nat := none
  /-- A digit of the width or of the precision stands right before the conversion. -/
  behindDigit : Bool := false
deriving Inhabited

namespace Directive

/-- Reads the flags of a directive. -/
def takeFlags (d : Directive) : List Char → Directive × List Char
  | '-' :: cs => takeFlags { d with leftward := true } cs
  | '+' :: cs => takeFlags { d with plus := true } cs
  | ' ' :: cs => takeFlags { d with blank := true } cs
  | '#' :: cs => takeFlags { d with longer := true } cs
  | '0' :: cs => takeFlags { d with zeros := true } cs
  | cs => (d, cs)

/-- The bounds of a word of 64 bits and of one of 32 bits. -/
def wordLimit : Nat := Nat.pow 2 63
def halfLimit : Nat := Nat.pow 2 31

/-- An integer argument in front of a conversion, which has to fit a word. -/
def takeNumber (limit : Nat) (args : FormatArgs) : Except Error (Int × FormatArgs) := do
  let (v, args) ← args.next
  match v.index? with
  | none => fail .wrongType
  | some i =>
    if i < -(limit : Int) || (limit : Int) ≤ i then fail .overflow else return (i, args)

/-- Decimal digits, of a number that has to fit a word. -/
def takeDigits (limit : Nat) (cs : List Char) : Except Error (Option Nat × List Char) :=
  let digits := cs.takeWhile Char.isDigit
  let n := Numeral.digitsValue digits
  if digits.isEmpty then .ok (none, cs)
  else if limit ≤ n then fail .wrongValue
  else .ok (some n, cs.dropWhile Char.isDigit)

/-- Reads the width: digits, or a star that takes an argument. The least word has no opposite, and
makes nothing wider. -/
def takeWidth (d : Directive) (args : FormatArgs) :
    List Char → Except Error (Directive × FormatArgs × List Char)
  | '*' :: cs => do
    let (i, args) ← takeNumber wordLimit args
    let width := if i = -wordLimit then none else some i.natAbs
    return ({ d with width, leftward := d.leftward || i < 0 }, args, cs)
  | cs => do
    let (width, cs) ← takeDigits wordLimit cs
    return ({ d with width, behindDigit := width.isSome }, args, cs)

/-- Reads the precision behind a point: digits, a star that takes an argument, or nothing. -/
def takePrecision (d : Directive) (args : FormatArgs) :
    List Char → Except Error (Directive × FormatArgs × List Char)
  | '.' :: '*' :: cs => do
    let (i, args) ← takeNumber halfLimit args
    return ({ d with precision := some i.toNat, behindDigit := false }, args, cs)
  | '.' :: cs => do
    let (precision, cs) ← takeDigits halfLimit cs
    return ({ d with precision := precision.getD 0, behindDigit := precision.isSome }, args, cs)
  | cs => .ok (d, args, cs)

/-- The widest that a directive makes anything. -/
def widthLimit : Nat := Nat.pow 2 24

/-- A converted argument in its place: the sign and the mark of the base stay in front of zeros, and
behind blanks. -/
def place (d : Directive) (isNumber : Bool) (marked : Bool) (cs : List Char) :
    Except Error (List Char) :=
  let (sign, body) :=
    if !isNumber then ([], cs)
    else
      match cs with
      | '-' :: body => (['-'], body)
      | body => (if d.plus then ['+'] else if d.blank then [' '] else [], body)
  let front := sign ++ (if marked then body.take 2 else [])
  let body := if marked then body.drop 2 else body
  let missing := d.width.getD 0 - front.length - body.length
  if widthLimit < missing then fail .outOfMemory
  else if d.leftward then .ok (front ++ body ++ List.replicate missing ' ')
  else if isNumber && d.zeros then .ok (front ++ List.replicate missing '0' ++ body)
  else .ok (List.replicate missing ' ' ++ front ++ body)

/-- Texts are cut at the precision. -/
def cut (d : Directive) (cs : List Char) : List Char :=
  match d.precision with
  | some n => cs.take n
  | none => cs

end Directive

namespace Value

/-- A text with all characters outside ASCII escaped. -/
def asciiForm (cs : List Char) : List Char :=
  cs.flatMap fun c =>
    if c.toNat < 128 then [c]
    else if c.toNat < 0x100 then '\\' :: 'x' :: (Text.hex 2 c.toNat).toList
    else if c.toNat < 0x10000 then '\\' :: 'u' :: (Text.hex 4 c.toNat).toList
    else '\\' :: 'U' :: (Text.hex 8 c.toNat).toList

/-- The integer that an argument stands for where a decimal one is wanted. -/
def decimalArgument (v : Value) : Except Error Int :=
  match v with
  | .bool _ | .int _ | .float _ => do
    match ← v.toInt with
    | .int i => return i
    | _ => fail .wrongType
  | _ => fail .wrongType

/-- The base of an integer conversion. -/
def conversionBase (conversion : Char) : Nat :=
  match conversion with
  | 'o' => 8
  | 'x' | 'X' => 16
  | _ => 10

/-- The digits of an integer in the base of a conversion, as many as the precision says at least. -/
def integerDigits (d : Directive) (conversion : Char) (i : Int) : Except Error (List Char) := do
  let base := conversionBase conversion
  let digits ←
    if base = 10 then
      let text ← intText i.natAbs
      pure text.toList
    else pure (Nat.toDigits base i.natAbs)
  if halfWord ≤ d.precision.getD 0 then fail .overflow
  let missing := d.precision.getD 0 - digits.length
  if Directive.widthLimit < missing then fail .outOfMemory
  let filled := List.replicate missing '0' ++ digits
  let mark := if d.longer && base != 10 then ['0', conversion.toLower] else []
  let body := mark ++ filled
  let body := if conversion == 'X' then body.map Char.toUpper else body
  return if i < 0 then '-' :: body else body
where
  /-- A precision from here on is too large. -/
  halfWord : Nat := Nat.pow 2 31 - 3

/-- The double that an argument stands for. -/
def doubleArgument (kind : FormatKind) (v : Value) : Except Error Double :=
  match v with
  | .float d => .ok d
  | .bool _ | .int _ =>
    match v.toFloat with
    | .ok (.float d) => .ok d
    | .ok _ => fail .wrongType
    | .error e => if kind = .bytes then fail .wrongType else .error e
  | _ => fail .wrongType

/-- The text of a double as a conversion asks for it. -/
def doubleDigits (d : Directive) (conversion : Char) (x : Double) : Except Error (List Char) :=
  let style : Double.FixedStyle :=
    match conversion.toLower with
    | 'f' => .positional
    | 'e' => .scientific
    | _ => .general
  let precision := d.precision.getD 6
  if Directive.widthLimit < precision then fail .outOfMemory
  else
    let text := x.textIn style d.longer precision
    .ok (if conversion.isUpper then text.map Char.toUpper else text)

/-- The character that an argument stands for. -/
def charArgument (kind : FormatKind) (v : Value) : Except Error Char :=
  match kind, v, v.index? with
  | .text, .str s, _ =>
    match s.toList with
    | [c] => .ok c
    | _ => fail .wrongType
  | .bytes, .bytes [b], _ => .ok (Char.ofNat b.toNat)
  | .text, _, some i =>
    if 0 ≤ i && i < 0x110000 then .ok (Char.ofNat i.toNat) else fail .overflow
  | .bytes, _, some i => if 0 ≤ i && i < 256 then .ok (Char.ofNat i.toNat) else fail .overflow
  | _, _, _ => fail .wrongType

/-- The argument converted and put in its place. -/
def convertArgument (catalog : Catalog) (kind : FormatKind) (d : Directive) (conversion : Char)
    (v : Value) : Except Error (List Char) := do
  match conversion with
  | 's' | 'b' =>
    match kind, conversion, v with
    | .text, 's', v => do d.place false false (d.cut (← v.plainText catalog).toList)
    | .bytes, _, .bytes bs => d.place false false (d.cut (latinText bs).toList)
    | .bytes, _, _ => fail .wrongType
    | _, _, _ => fail .wrongValue
  | 'r' =>
    let text := (← v.text catalog).toList
    d.place false false (d.cut (if kind = .bytes then asciiForm text else text))
  | 'a' => d.place false false (d.cut (asciiForm (← v.text catalog).toList))
  | 'd' | 'i' | 'u' =>
    d.place true false (← integerDigits d conversion (← v.decimalArgument))
  | 'o' | 'x' | 'X' =>
    match v.index? with
    | some i => d.place true d.longer (← integerDigits d conversion i)
    | none => fail .wrongType
  | 'e' | 'E' | 'f' | 'F' | 'g' | 'G' =>
    d.place true false (← doubleDigits d conversion (← v.doubleArgument kind))
  | 'c' => d.place false false [← v.charArgument kind]
  | c => fail (if kind = .bytes && 128 ≤ c.toNat && !d.behindDigit then .overflow else .wrongValue)

/-- The name in front of a directive, up to the bracket that closes it. -/
def takeName : (depth : Nat) → List Char → Option (List Char × List Char)
  | _, [] => none
  | depth, c :: cs =>
    let depth := if c == '(' then depth + 1 else if c == ')' then depth - 1 else depth
    if depth = 0 then some ([], cs)
    else (takeName depth cs).map fun (name, rest) => (c :: name, rest)

/-- How arguments are looked up by name, if they are. -/
abbrev ArgumentLookup := Option (Value → Except Error Value)

/-- Formats one directive. -/
def formatDirective (catalog : Catalog) (kind : FormatKind) (look : ArgumentLookup)
    (args : FormatArgs) (cs : List Char) :
    Except Error (List Char × FormatArgs × List Char) := do
  let (args, cs) ← match cs with
    | '(' :: cs =>
      match look with
      | none => fail .wrongType
      | some look =>
        match takeName 1 cs with
        | none => fail .wrongValue
        | some (name, rest) =>
          let key := match kind with
            | .text => .str (String.ofList name)
            | .bytes => .bytes (name.map fun c => c.toNat.toUInt8)
          pure (.single (← look key), rest)
    | cs => pure (args, cs)
  let (d, cs) := ({ : Directive}).takeFlags cs
  let (d, args, cs) ← d.takeWidth args cs
  let (d, args, cs) ← d.takePrecision args cs
  let (d, cs) := match cs with
    | 'h' :: rest | 'l' :: rest | 'L' :: rest => ({ d with behindDigit := false }, rest)
    | cs => (d, cs)
  match cs with
  | [] => fail .wrongValue
  | conversion :: rest =>
    let (v, args) ← args.next
    return (← v.convertArgument catalog kind d conversion, args, rest)

/-- Formats a text, with `fuel` steps still allowed. -/
def formatWithin (catalog : Catalog) (kind : FormatKind) (look : ArgumentLookup) :
    (fuel : Nat) → FormatArgs → List Char → Except Error (List Char × FormatArgs)
  | _, args, [] => .ok ([], args)
  | 0, _, _ => fail .tooDeep
  | fuel + 1, args, '%' :: cs =>
    match cs with
    | '%' :: cs => do
      let (out, args) ← formatWithin catalog kind look fuel args cs
      return ('%' :: out, args)
    | cs => do
      let (one, args, rest) ← formatDirective catalog kind look args cs
      let (out, args) ← formatWithin catalog kind look fuel args rest
      return (one ++ out, args)
  | fuel + 1, args, c :: cs => do
    let (out, args) ← formatWithin catalog kind look fuel args cs
    return (c :: out, args)

/-- The member of the record behind a proxy that a name means. -/
def proxyMember (p : Param) (name : Value) : Except Error Value :=
  let s := p.recordSchema
  match name with
  | .str name =>
    match s.candidates name with
    | f :: _ => .ok (.expr (.member p { root := s, fields := [f] }))
    | [] => .error (.unknownMember s.name name 0)
  | _ => fail .noAttribute

/-- How names are looked up in a value, if they can be. Bytes are looked up in for a text only. -/
def lookupIn (catalog : Catalog) (kind : FormatKind) (v : Value) : ArgumentLookup :=
  match kind, v with
  | _, .dict _ | _, .list _ | .text, .bytes _ => some (v.item catalog)
  | _, .proxy p => some (proxyMember p)
  | _, _ => none

/-- A format applied to its arguments: the items of a tuple, or one value. -/
def formatBy (catalog : Catalog) (kind : FormatKind) (cs : List Char) (v : Value) :
    Except Error (List Char) := do
  let look := lookupIn catalog kind v
  let args := match v with
    | .tuple items => .items items
    | v => .single v
  let (out, args) ← formatWithin catalog kind look (cs.length + 1) args cs
  if args.isUsed || look.isSome then return out else fail .wrongType

/-- A text or bytes formatted with a value. -/
def format (catalog : Catalog) (a v : Value) : Except Error Value :=
  match a with
  | .str s => do return .str (String.ofList (← formatBy catalog .text s.toList v))
  | .bytes bs => do
    let out ← formatBy catalog .bytes (latinText bs).toList v
    return .bytes (out.map fun c => c.toNat.toUInt8)
  | _ => fail .wrongType

end Value
end RecordQuery
