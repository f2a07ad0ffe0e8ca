import HostSql.Number.Shortest
import HostSql.Text.Utf8

/-!
# Host values

`Value` is what a host closure may hand back or keep between the rows of a group. `display` is its
text; `eq` compares as numbers do, so NaN differs from itself and the two zeros are equal.
-/

namespace HostSql

/-- A value on the host's side. -/
inductive Value where
  | integer (n : Int64)
  | float (x : Binary64)
  | text (s : String)
  | blob (bytes : List UInt8)
  | null
  deriving Repr, DecidableEq, Inhabited

namespace Value

/-- The short name of the value's type, used in diagnostics. -/
def typeName : Value → String
  | .integer _ => "integer"
  | .float _ => "float"
  | .text _ => "text"
  | .blob _ => "blob"
  | .null => "null"

/-- The integer in an integer value. -/
def asInt? : Value → Option Int64
  | .integer n => some n
  | _ => none

/-- The text of a value; a blob shows its length only. -/
def display : Value → String
  | .integer n => toString n.toInt
  | .float x => x.display
  | .text s => s
  | .blob bytes => "<" ++ toString bytes.length ++ " byte blob>"
  | .null => "NULL"

/-- Equality within one type; floats compare as numbers. -/
def eq : Value → Value → Bool
  | .integer a, .integer b => a == b
  | .float a, .float b => a.eq b
  | .text a, .text b => a == b
  | .blob a, .blob b => a == b
  | .null, .null => true
  | _, _ => false

/-- The value of an optional one: nothing is `null`. -/
def ofOption (wrap : α → Value) : Option α → Value
  | none => .null
  | some a => wrap a

end Value

/-- The class of a value inside the engine, as reported for function arguments. -/
inductive StorageClass where
  | integer
  | float
  | text
  | blob
  | null
  deriving Repr, DecidableEq

end HostSql
