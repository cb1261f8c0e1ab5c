import RecordQuery.Fault

/-!
References: the texts that stand for types in annotations. A reference is an expression on one line.
Names, their attributes, alternatives and parameters are what a type can be made of; of all other
expressions it only matters that they are expressions.
-/

namespace RecordQuery

/-- What a reference says. -/
inductive Reference where
  | name (name : String)
  | member (r : Reference) (name : String)
  /-- Two alternatives. -/
  | either (a b : Reference)
  /-- A class with parameters. -/
  | parameters (cls : Reference) (params : List Reference)
  | null
  | text (s : String)
  /-- A constant, by its shown form. -/
  | constant (shown : String)
  /-- An expression of another form. -/
  | other
deriving Inhabited

namespace Reference

/-! ## Tokens -/

inductive Token where
  | word (s : String)
  /-- A number, with its value if it is an integer in decimal digits. -/
  | number (value : Option Nat)
  /-- Quoted text, with the text if it is plain. -/
  | quoted (text : Option String)
  | symbol (s : String)
deriving DecidableEq, Repr, Inhabited

/-- Characters that words are made of. -/
def isWordChar (c : Char) : Bool :=
  c.isAlphanum || c == '_' || (128 ≤ c.toNat && c.toNat != 160 && c.toNat != 0xFEFF)

/-- The symbols, longer ones before their beginnings. -/
def symbols : List String :=
  ["...", "**", "//", "<<", ">>", "<=", ">=", "==", "!=", ":=", "+", "-", "*", "/", "%", "@", "&",
   "|", "^", "~", "<", ">", "(", ")", "[", "]", ",", ":", ".", "=", "\x7b", "\x7d"]

/-- The symbol that the text begins with. -/
def symbol? (cs : List Char) : Option String :=
  symbols.find? fun s => s.toList.isPrefixOf cs

/-- The number that a run of digits, letters and points is. -/
def number? (cs : List Char) : Option Token :=
  let digits := cs.filter (· != '_')
  if digits.all Char.isDigit then
    let n := digits.foldl (fun n c => 10 * n + (c.toNat - '0'.toNat)) 0
    if digits.length > 1 && digits.head? == some '0' && n != 0 then none
    else some (.number (some n))
  else
    match digits with
    | '0' :: base :: rest =>
      let base := base.toLower
      let isDigitOf (c : Char) : Bool :=
        (base == 'x' && (c.isDigit || ('a' ≤ c.toLower && c.toLower ≤ 'f'))) ||
          (base == 'o' && '0' ≤ c && c ≤ '7') || (base == 'b' && (c == '0' || c == '1'))
      if !rest.isEmpty && rest.all isDigitOf then some (.number none) else fraction digits
    | _ => fraction digits
where
  /-- Digits with a point or an exponent. -/
  fraction (cs : List Char) : Option Token :=
    let rest := (cs.dropWhile Char.isDigit)
    let rest := match rest with
      | '.' :: rest => rest.dropWhile Char.isDigit
      | rest => rest
    match rest with
    | [] => some (.number none)
    | e :: rest =>
      if (e == 'e' || e == 'E') && !rest.isEmpty && rest.all Char.isDigit then some (.number none)
      else if e == 'j' && rest.isEmpty then some (.number none)
      else none

/-- The text up to a quotation mark and what follows it; text with a backslash is not plain. -/
def untilMark (mark : Char) : List Char → Option (List Char × Bool × List Char)
  | [] => none
  | '\n' :: _ => none
  | '\\' :: _ :: cs => (untilMark mark cs).map fun (s, _, rest) => (s, false, rest)
  | c :: cs =>
    if c == mark then some ([], true, cs)
    else (untilMark mark cs).map fun (s, plain, rest) => (c :: s, plain, rest)

/-- The letters that may stand in front of a quotation mark. -/
def quotePrefixes : List String :=
  ["r", "b", "u", "f", "br", "rb", "fr", "rf"]

/-- Reads the tokens of a line, `depth` brackets being open, with `fuel` tokens still allowed. -/
def tokensWithin : (fuel : Nat) → (depth : Nat) → List Char → Option (List Token)
  | _, _, [] => some []
  | 0, _, _ => none
  | fuel + 1, depth, c :: cs =>
    if c == ' ' || c == '\t' || c == '\x0c' then tokensWithin fuel depth cs
    else if c == '#' then tokensWithin fuel depth (cs.dropWhile (· != '\n'))
    else if c == '\n' || c == '\r' then
      if depth > 0 then tokensWithin fuel depth cs
      else
        if cs.all fun c => c == '\n' || c == '\r' then some [] else none
    else if c == '\'' || c == '"' then do
      let (content, plain, rest) ← untilMark c cs
      let token := Token.quoted (if plain then some (String.ofList content) else none)
      return token :: (← tokensWithin fuel depth rest)
    else if c.isDigit || (c == '.' && (cs.head?.any Char.isDigit)) then do
      let isPart (c : Char) : Bool := isWordChar c || c == '.'
      let token ← number? (c :: cs.takeWhile isPart)
      return token :: (← tokensWithin fuel depth (cs.dropWhile isPart))
    else if isWordChar c then do
      let word := String.ofList (c :: cs.takeWhile isWordChar)
      let rest := cs.dropWhile isWordChar
      let isQuoted := rest.head?.any fun m => m == '\'' || m == '"'
      if isQuoted && quotePrefixes.contains word.toLower then
        let (_, _, rest) ← untilMark (rest.headD '"') (rest.drop 1)
        return Token.quoted none :: (← tokensWithin fuel depth rest)
      return Token.word word :: (← tokensWithin fuel depth rest)
    else do
      let s ← symbol? (c :: cs)
      let opens := s == "(" || s == "[" || s == "\x7b"
      let closes := s == ")" || s == "]" || s == "\x7d"
      let depth := if opens then depth + 1 else if closes then depth - 1 else depth
      return Token.symbol s :: (← tokensWithin fuel depth ((c :: cs).drop s.length))

/-- The tokens of a reference. Its first line that is not empty must not be indented. -/
def tokens? (s : String) : Option (List Token) :=
  let lines := s.toList.dropWhile fun c => c == '\n' || c == '\r' || c == '\x0c'
  match lines with
  | ' ' :: _ | '\t' :: _ => none
  | lines => tokensWithin (lines.length + 1) 0 lines

/-! ## Expressions -/

/-- Words that are no names. -/
def keywords : List String :=
  ["False", "None", "True", "and", "as", "assert", "async", "await", "break", "class", "continue",
   "def", "del", "elif", "else", "except", "finally", "for", "from", "global", "if", "import", "in",
   "is", "lambda", "nonlocal", "not", "or", "pass", "raise", "return", "try", "while", "with",
   "yield"]

/-- An operator between two operands, with what follows it. -/
def operator? : List Token → Option (String × List Token)
  | .word "not" :: .word "in" :: ts => some ("not in", ts)
  | .word "in" :: ts => some ("in", ts)
  | .word "is" :: .word "not" :: ts => some ("is not", ts)
  | .word "is" :: ts => some ("is", ts)
  | .symbol s :: ts =>
    if ["+", "-", "*", "/", "//", "%", "@", "&", "|", "^", "<<", ">>", "<", ">", "<=", ">=", "==",
        "!=", "**"].contains s then some (s, ts)
    else none
  | _ => none

/-- The texts that stand one after the other make one text. -/
def quotedRun : List Token → Option String × List Token
  | .quoted s :: ts =>
    let (t, rest) := quotedRun ts
    (s.bind fun s => t.map (s ++ ·), rest)
  | ts => (some "", ts)

/-- What is left behind the bracket that closes `depth` open ones. -/
def behindClosing : (depth : Nat) → List Token → Option (List Token)
  | _, [] => none
  | depth, t :: ts =>
    if ["(", "[", "\x7b"].any (t == .symbol ·) then behindClosing (depth + 1) ts
    else if [")", "]", "\x7d"].any (t == .symbol ·) then
      match depth with
      | 0 => none
      | 1 => some (t :: ts)
      | depth + 1 => behindClosing depth ts
    else behindClosing depth ts

mutual

/-- Reads an expression. -/
def expression : (fuel : Nat) → List Token → Option (Reference × List Token)
  | 0, _ => none
  | fuel + 1, .word "lambda" :: ts => do
    let body := ts.dropWhile (· != .symbol ":")
    let (_, rest) ← expression fuel (body.drop 1)
    return (.other, rest)
  | fuel + 1, ts => do
    let (r, rest) ← condition fuel ts
    match rest with
    | .word "if" :: rest =>
      let (_, rest) ← condition fuel rest
      match rest with
      | .word "else" :: rest =>
        let (_, rest) ← expression fuel rest
        return (.other, rest)
      | _ => none
    | rest => return (r, rest)

/-- Reads operands joined by "and" and "or". -/
def condition : (fuel : Nat) → List Token → Option (Reference × List Token)
  | 0, _ => none
  | fuel + 1, .word "not" :: ts => do
    let (_, rest) ← condition fuel ts
    return (.other, rest)
  | fuel + 1, ts => do
    let (first, rest) ← operand fuel ts
    let (r, rest) ← chain fuel first rest
    match rest with
    | .word "and" :: rest | .word "or" :: rest =>
      let (_, rest) ← condition fuel rest
      return (.other, rest)
    | rest => return (r, rest)

/-- Reads the operators and operands that follow an operand. -/
def chain : (fuel : Nat) → Reference → List Token → Option (Reference × List Token)
  | 0, _, _ => none
  | fuel + 1, r, ts =>
    match operator? ts with
    | none => some (r, ts)
    | some (op, rest) => do
      let (s, rest) ← operand fuel rest
      chain fuel (if op == "|" then .either r s else .other) rest

/-- Reads an operand with its signs in front. -/
def operand : (fuel : Nat) → List Token → Option (Reference × List Token)
  | 0, _ => none
  | fuel + 1, .symbol s :: ts =>
    if s == "+" || s == "-" || s == "~" then do
      let (_, rest) ← operand fuel ts
      return (.other, rest)
    else do
      let (r, rest) ← atom fuel (.symbol s :: ts)
      trailers fuel r rest
  | fuel + 1, ts => do
    let (r, rest) ← atom fuel ts
    trailers fuel r rest

/-- Reads what an operand begins with. -/
def atom : (fuel : Nat) → List Token → Option (Reference × List Token)
  | 0, _ => none
  | _, [] => none
  | fuel + 1, t :: ts =>
    match t with
    | .word "None" => some (.null, ts)
    | .word "True" | .word "False" =>
      some (.constant (if t == .word "True" then "True" else "False"), ts)
    | .word w => if keywords.contains w then none else some (.name w, ts)
    | .number (some n) => some (.constant (toString n), ts)
    | .number none => some (.other, ts)
    | .quoted _ =>
      let (s, rest) := quotedRun (t :: ts)
      some ((s.map Reference.text).getD .other, rest)
    | .symbol "..." => some (.constant "...", ts)
    | .symbol "(" => do
      match ts with
      | .symbol ")" :: rest => return (.other, rest)
      | ts =>
        match ← elements fuel ts with
        | ([r], false, .symbol ")" :: rest) => return (r, rest)
        | (_, _, .symbol ")" :: rest) => return (.other, rest)
        | _ => none
    | .symbol "[" => closed fuel "]" ts
    | .symbol "\x7b" => closed fuel "\x7d" ts
    | .symbol _ => none

/-- Reads the elements between brackets that were opened, of which there may be none. -/
def closed : (fuel : Nat) → String → List Token → Option (Reference × List Token)
  | 0, _, _ => none
  | fuel + 1, close, ts =>
    match ts with
    | [] => none
    | t :: rest =>
      if t == .symbol close then some (.other, rest)
      else do
        match ← elements fuel ts with
        | (_, _, t :: rest) => if t == .symbol close then return (.other, rest) else none
        | _ => none

/-- Reads elements with commas between them, and tells whether there is a comma. -/
def elements : (fuel : Nat) → List Token →
    Option (List Reference × Bool × List Token)
  | 0, _ => none
  | fuel + 1, ts => do
    let (r, rest) ← element fuel ts
    match rest with
    | .symbol "," :: rest =>
      match rest with
      | .symbol ")" :: _ | .symbol "]" :: _ | .symbol "\x7d" :: _ | [] => return ([r], true, rest)
      | rest =>
        let (rs, _, rest) ← elements fuel rest
        return (r :: rs, true, rest)
    | rest => return ([r], false, rest)

/-- Reads an element: an expression, perhaps with stars in front, with a value or bounds behind a
colon, or with a loop. -/
def element : (fuel : Nat) → List Token → Option (Reference × List Token)
  | 0, _ => none
  | fuel + 1, .symbol "*" :: ts | fuel + 1, .symbol "**" :: ts => do
    let (_, rest) ← expression fuel ts
    return (.other, rest)
  | fuel + 1, .symbol ":" :: ts =>
    match ts with
    | .symbol "]" :: _ | .symbol "," :: _ => some (.other, ts)
    | ts => element fuel ts >>= fun (_, rest) => some (.other, rest)
  | fuel + 1, ts => do
    let (r, rest) ← expression fuel ts
    match rest with
    | .symbol ":" :: rest =>
      match rest with
      | .symbol "]" :: _ | .symbol "," :: _ => return (.other, rest)
      | rest =>
        let (_, rest) ← element fuel rest
        return (.other, rest)
    | .symbol ":=" :: rest | .symbol "=" :: rest =>
      let (_, rest) ← expression fuel rest
      return (.other, rest)
    | .word "for" :: rest => return (.other, ← behindClosing 1 rest)
    | rest => return (r, rest)

/-- Reads the attributes, parameters and arguments that follow an operand. -/
def trailers : (fuel : Nat) → Reference → List Token → Option (Reference × List Token)
  | 0, _, _ => none
  | fuel + 1, r, .symbol "." :: .word w :: ts =>
    if keywords.contains w then none else trailers fuel (.member r w) ts
  | _ + 1, _, .symbol "." :: _ => none
  | fuel + 1, r, .symbol "[" :: ts => do
    match ← elements fuel ts with
    | (params, _, .symbol "]" :: rest) => trailers fuel (.parameters r params) rest
    | _ => none
  | fuel + 1, _, .symbol "(" :: ts => do
    let (_, rest) ← closed fuel ")" ts
    trailers fuel .other rest
  | _ + 1, r, ts => some (r, ts)

end

/-- Reads expressions with commas between them and perhaps one at the end: a single one without a
comma, or a list of them. -/
def expressions : (fuel : Nat) → List Token → Option Reference
  | 0, _ => none
  | fuel + 1, ts => do
    match ← expression fuel ts with
    | (r, []) => return r
    | (_, [.symbol ","]) => return .other
    | (_, .symbol "," :: rest) =>
      let _ ← expressions fuel rest
      return .other
    | _ => none

/-- Reads a reference. One that begins with a star is the first of what the star unpacks. -/
def read (s : String) : Except Fault Reference :=
  if s.isEmpty then .error .noIndex
  else
    match tokens? s with
    | none => .error .badSyntax
    | some ts =>
      let fuel := 16 * (ts.length + 1)
      let r? := match ts with
        | .symbol "*" :: rest => (expressions fuel rest).map fun _ => .other
        | ts => expressions fuel ts
      match r? with
      | some r => .ok r
      | none => .error .badSyntax

end Reference
end RecordQuery
