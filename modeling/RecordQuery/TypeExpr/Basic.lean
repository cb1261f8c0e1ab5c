import RecordQuery.Column.ColumnType

/-!
Type expressions: the declared types of members. A union is kept flat and without repetitions by
`unionOf`; how it was spelled matters to its text but not to its equality.
-/

namespace RecordQuery

/-- The built-in classes. -/
inductive Builtin where
  | int | float | str | bool | bytes | list | dict | tuple | object
  /-- A built-in class of whose instances only the class is known. -/
  | other (name : String)
deriving DecidableEq, Repr, Inhabited

/-- The built-in classes of errors and warnings, each after the class that it is derived from. -/
def Builtin.exceptionBases : List (String × String) :=
  [("BaseException", "object"), ("BaseExceptionGroup", "BaseException"),
   ("GeneratorExit", "BaseException"), ("KeyboardInterrupt", "BaseException"),
   ("SystemExit", "BaseException"), ("Exception", "BaseException"),
   ("ArithmeticError", "Exception"), ("FloatingPointError", "ArithmeticError"),
   ("OverflowError", "ArithmeticError"), ("ZeroDivisionError", "ArithmeticError"),
   ("AssertionError", "Exception"), ("AttributeError", "Exception"), ("BufferError", "Exception"),
   ("EOFError", "Exception"), ("ExceptionGroup", "Exception"), ("ImportError", "Exception"),
   ("ModuleNotFoundError", "ImportError"), ("LookupError", "Exception"),
   ("IndexError", "LookupError"), ("KeyError", "LookupError"), ("MemoryError", "Exception"),
   ("NameError", "Exception"), ("UnboundLocalError", "NameError"), ("OSError", "Exception"),
   ("BlockingIOError", "OSError"), ("ChildProcessError", "OSError"), ("ConnectionError", "OSError"),
   ("BrokenPipeError", "ConnectionError"), ("ConnectionAbortedError", "ConnectionError"),
   ("ConnectionRefusedError", "ConnectionError"), ("ConnectionResetError", "ConnectionError"),
   ("FileExistsError", "OSError"), ("FileNotFoundError", "OSError"),
   ("InterruptedError", "OSError"), ("IsADirectoryError", "OSError"),
   ("NotADirectoryError", "OSError"), ("PermissionError", "OSError"),
   ("ProcessLookupError", "OSError"), ("TimeoutError", "OSError"), ("ReferenceError", "Exception"),
   ("RuntimeError", "Exception"), ("NotImplementedError", "RuntimeError"),
   ("RecursionError", "RuntimeError"), ("StopAsyncIteration", "Exception"),
   ("StopIteration", "Exception"), ("SyntaxError", "Exception"),
   ("IndentationError", "SyntaxError"), ("TabError", "IndentationError"), ("SystemError", "Exception"), ("TypeError", "Exception"),
   ("ValueError", "Exception"), ("UnicodeError", "ValueError"),
   ("UnicodeDecodeError", "UnicodeError"), ("UnicodeEncodeError", "UnicodeError"),
   ("UnicodeTranslateError", "UnicodeError"), ("Warning", "Exception"),
   ("BytesWarning", "Warning"), ("DeprecationWarning", "Warning"), ("EncodingWarning", "Warning"),
   ("FutureWarning", "Warning"), ("ImportWarning", "Warning"),
   ("PendingDeprecationWarning", "Warning"), ("ResourceWarning", "Warning"),
   ("RuntimeWarning", "Warning"), ("SyntaxWarning", "Warning"), ("UnicodeWarning", "Warning"),
   ("UserWarning", "Warning")]

/-- Further names of classes of errors. -/
def Builtin.exceptionAliases : List (String × String) :=
  [("EnvironmentError", "OSError"), ("IOError", "OSError")]

/-- The classes of errors that a single argument is too little for. -/
def Builtin.exactingExceptions : List String :=
  ["BaseExceptionGroup", "ExceptionGroup", "UnicodeDecodeError", "UnicodeEncodeError",
   "UnicodeTranslateError"]

def Builtin.isException (cls : String) : Bool :=
  Builtin.exceptionBases.any (·.1 == cls)

/-- The class of errors and those that it is derived from, found among classes listed with their
bases, the bases first. -/
def Builtin.exceptionLineage (cls : String) : List String :=
  Builtin.exceptionBases.reverse.foldl
    (fun all (name, base) => if all.getLast? == some name then all ++ [base] else all) [cls]

/-- The constants that a literal type lists. -/
inductive Constant where
  | null
  | bool (b : Bool)
  | int (i : Int)
  | str (s : String)
deriving DecidableEq, Repr, Inhabited

/-- The two spellings of a union: `Union[A, B]` and `A | B`. -/
inductive UnionStyle where
  | named | piped
deriving DecidableEq, Repr, Inhabited

/-- A declared type. -/
inductive TypeExpr where
  /-- Any value at all. -/
  | any
  /-- The null value used as a type by itself. -/
  | null
  /-- The class of the null value, which is what null means inside other types. -/
  | nullType
  | builtin (b : Builtin)
  /-- A declared record class. -/
  | record (name : String)
  /-- A declared schema used as a type, with the names of its members. -/
  | schema (name : String) (members : List String)
  /-- A name that stands for itself. -/
  | text (name : String)
  /-- A reference to a name not looked up yet; `owned` if it records the module it was made in. -/
  | forward (name : String) (owned : Bool)
  | union (style : UnionStyle) (members : List TypeExpr)
  | list (item : TypeExpr)
  /-- A built-in class with parameters, which are kept as they are written. -/
  | plain (cls : Builtin) (params : List TypeExpr)
  | dict (key value : TypeExpr)
  | tuple (items : List TypeExpr)
  | literal (values : List Constant)
  | classVar (t : TypeExpr)
  | column (t : ColumnType)
  /-- Something used as a type that is none: its name, if it has one, and its shown form. -/
  | thing (name : Option String) (shown : String)
deriving Inhabited

namespace TypeExpr

/-- A list type in the built-in spelling. -/
def plainList (item : TypeExpr) : TypeExpr :=
  .plain .list [item]

mutual

/-- Equality of types. Unions are compared as sets, whatever their spelling, and so are the
constants of literal types. A column type equals the words that name it. The members of a union are
distinct, so of two unions of one size it is enough to look at the members of one. -/
def same : TypeExpr → TypeExpr → Bool
  | .any, .any | .null, .null | .nullType, .nullType => true
  | .builtin a, .builtin b => a == b
  | .record a, .record b => a == b
  | .schema a _, .schema b _ => a == b
  | .text a, .text b => a == b
  | .forward a o, .forward b p => a == b && o == p
  | .union _ as, .union _ bs => as.length == bs.length && within as bs
  | .list a, .list b => same a b
  | .plain a as, .plain b bs => a == b && sameAll as bs
  | .dict a b, .dict c d => same a c && same b d
  | .tuple as, .tuple bs => sameAll as bs
  | .literal as, .literal bs => as.all bs.contains && bs.all as.contains
  | .classVar a, .classVar b => same a b
  | .column a, .column b => a.same b
  | .column a, .text b | .text b, .column a => a.isNamed b
  | .thing m a, .thing n b => m == n && a == b
  | _, _ => false

/-- Is every type of the first list the same as one of the second? -/
def within : List TypeExpr → List TypeExpr → Bool
  | [], _ => true
  | a :: as, bs => bs.any (same a) && within as bs

def sameAll : List TypeExpr → List TypeExpr → Bool
  | [], [] => true
  | a :: as, b :: bs => same a b && sameAll as bs
  | _, _ => false

end

mutual

/-- The type with the words for each column type in its place. -/
def worded : TypeExpr → TypeExpr
  | .column t => .text t.text
  | .union style members => .union style (wordedAll members)
  | .list item => .list (worded item)
  | .plain cls params => .plain cls (wordedAll params)
  | .dict key value => .dict (worded key) (worded value)
  | .tuple items => .tuple (wordedAll items)
  | .classVar t => .classVar (worded t)
  | t => t

def wordedAll : List TypeExpr → List TypeExpr
  | [] => []
  | t :: ts => worded t :: wordedAll ts

end

/-- Equal types that hash alike. A column type equals all words that name it, but only one of them
hashes like it. -/
def hashesAs (a b : TypeExpr) : Bool :=
  a.same b && a.worded.same b.worded

/-- Is the type a text by itself? -/
def isText : TypeExpr → Bool
  | .text _ => true
  | _ => false

/-- Are the types one key where a single type is looked up? A text by itself never is one with
another type there. -/
def sameKey (a b : TypeExpr) : Bool :=
  a.isText == b.isText && a.hashesAs b

theorem same_of_sameKey {a b : TypeExpr} (h : a.sameKey b = true) : a.same b = true := by
  simp only [sameKey, hashesAs, Bool.and_eq_true] at h
  exact h.2.1

/-- A type as a part of another type: null means its class, and a bare name is looked up later. -/
def asPart : TypeExpr → TypeExpr
  | .null => .nullType
  | .text name => .forward name false
  | t => t

/-- The members that a type adds to a union. -/
def unionMembers : TypeExpr → List TypeExpr
  | .union _ members => members
  | t => [t]

/-- The types without those that are the same as an earlier one. -/
def distinct (ts : List TypeExpr) : List TypeExpr :=
  ts.foldl (fun kept t => if kept.any (·.same t) then kept else kept ++ [t]) []

/-- A union of the given style; a union of one member is that member. -/
def unionIn (style : UnionStyle) (ts : List TypeExpr) : TypeExpr :=
  match distinct (ts.flatMap fun t => t.asPart.unionMembers) with
  | [t] => t
  | members => .union style members

/-- The union of the types in the named spelling. -/
def unionOf (ts : List TypeExpr) : TypeExpr :=
  unionIn .named ts

def optional (t : TypeExpr) : TypeExpr :=
  unionOf [t, .null]

/-- `X` for a union of `X` and null, and any other type unchanged. -/
def unwrapOptional : TypeExpr → TypeExpr
  | t@(.union _ members) =>
    match members.filter fun m => !m.same .nullType with
    | [x] => x
    | _ => t
  | t => t

end TypeExpr
end RecordQuery
