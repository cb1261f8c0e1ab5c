import RecordQuery.Text.Casing

/-!
The types of table columns.
-/

namespace RecordQuery

/-- The type of a column, or of a value inside one. -/
inductive ColumnType where
  | null | bool | int8 | int16 | int32 | int64 | uint8 | uint16 | uint32 | uint64
  | float32 | float64 | string | binary
  | list (item : ColumnType)
  | struct (fields : List (String × ColumnType))
  /-- A type of a further kind: the name of the kind, the text of the type, and the words for it. -/
  | other (kind text : String) (words : List String)
deriving Inhabited

namespace ColumnType

mutual

/-- Two column types are the same: structs have the same fields in the same order. -/
def same : ColumnType → ColumnType → Bool
  | .null, .null | .bool, .bool | .int8, .int8 | .int16, .int16 | .int32, .int32
  | .int64, .int64 | .uint8, .uint8 | .uint16, .uint16 | .uint32, .uint32 | .uint64, .uint64
  | .float32, .float32 | .float64, .float64 | .string, .string | .binary, .binary => true
  | .list a, .list b => same a b
  | .struct fs, .struct gs => sameFields fs gs
  | .other k s ws, .other l t vs => k == l && s == t && ws == vs
  | _, _ => false

def sameFields : List (String × ColumnType) → List (String × ColumnType) → Bool
  | [], [] => true
  | (n, a) :: fs, (m, b) :: gs => n == m && same a b && sameFields fs gs
  | _, _ => false

end

mutual

/-- The name of a column type, with the types of its parts. -/
def text : ColumnType → String
  | .null => "null"
  | .bool => "bool"
  | .int8 => "int8"
  | .int16 => "int16"
  | .int32 => "int32"
  | .int64 => "int64"
  | .uint8 => "uint8"
  | .uint16 => "uint16"
  | .uint32 => "uint32"
  | .uint64 => "uint64"
  | .float32 => "float"
  | .float64 => "double"
  | .string => "string"
  | .binary => "binary"
  | .list item => "list<item: " ++ text item ++ ">"
  | .struct fields => "struct<" ++ ", ".intercalate (fieldTexts fields) ++ ">"
  | .other _ text _ => text

def fieldTexts : List (String × ColumnType) → List String
  | [] => []
  | (n, a) :: fs => (n ++ ": " ++ text a) :: fieldTexts fs

end

/-- The name of the kind of a column type. -/
def kindName : ColumnType → String
  | .list _ => "ListType"
  | .struct _ => "StructType"
  | .other kind _ _ => kind
  | _ => "DataType"

/-- The text of a column type inside another type: it says which kind of type it is. -/
def tagged (a : ColumnType) : String :=
  a.kindName ++ "(" ++ a.text ++ ")"

/-- The words that name a column type that is not made of others. -/
def aliases : ColumnType → List String
  | .null => ["null"]
  | .bool => ["bool", "boolean"]
  | .int8 => ["i1", "int8"]
  | .int16 => ["i2", "int16"]
  | .int32 => ["i4", "int32"]
  | .int64 => ["i8", "int64"]
  | .uint8 => ["u1", "uint8"]
  | .uint16 => ["u2", "uint16"]
  | .uint32 => ["u4", "uint32"]
  | .uint64 => ["u8", "uint64"]
  | .float32 => ["f4", "float", "float32"]
  | .float64 => ["f8", "double", "float64"]
  | .string => ["string", "str", "utf8"]
  | .binary => ["binary"]
  | .list _ | .struct _ => []
  | .other _ _ words => words

/-- Does the word name the column type, whatever its case? -/
def isNamed (t : ColumnType) (word : String) : Bool :=
  t.aliases.contains (String.ofList (Text.lower word.toList))

/-- The bounds of an integer type. -/
def range? : ColumnType → Option (Int × Int)
  | .int8 => some (-Int.pow 2 7, Int.pow 2 7 - 1)
  | .int16 => some (-Int.pow 2 15, Int.pow 2 15 - 1)
  | .int32 => some (-Int.pow 2 31, Int.pow 2 31 - 1)
  | .int64 => some (-Int.pow 2 63, Int.pow 2 63 - 1)
  | .uint8 => some (0, Int.pow 2 8 - 1)
  | .uint16 => some (0, Int.pow 2 16 - 1)
  | .uint32 => some (0, Int.pow 2 32 - 1)
  | .uint64 => some (0, Int.pow 2 64 - 1)
  | _ => none

/-- Is the integer in the range? -/
def inRange (range : Int × Int) (i : Int) : Bool :=
  range.1 ≤ i && i ≤ range.2

/-- The number of bits of an integer type. -/
def width? : ColumnType → Option Nat
  | .int8 | .uint8 => some 8
  | .int16 | .uint16 => some 16
  | .int32 | .uint32 => some 32
  | .int64 | .uint64 => some 64
  | _ => none

end ColumnType
end RecordQuery
