/-!
Faults: what goes wrong when an operation is applied to values that it does not apply to. A fault
says of what kind it is and carries no message.
-/

namespace RecordQuery

/-- An operation on values that does not apply to them. -/
inductive Fault where
  /-- The operation does not apply to values of these types. -/
  | wrongType
  /-- The type is right and the value is not. -/
  | wrongValue
  | noAttribute
  | noKey
  | noIndex
  /-- A name that stands for nothing. -/
  | noName
  | overflow
  | divisionByZero
  | badDecoding
  /-- A reference that is no expression. -/
  | badSyntax
  | outOfMemory
  | tooDeep
  /-- An attribute of a frozen record was assigned. -/
  | frozen
  /-- The lambda raised an error of its own. -/
  | raised
  /-- A value that a column cannot hold. -/
  | columnValue
  /-- A value of a type that a column cannot hold. -/
  | columnType
  | columnUnsupported
deriving DecidableEq, Repr, Inhabited

end RecordQuery
