import HostSql.Text.Quote
import HostSql.Value

/-!
# Calls as SQL

The commands that call a function on given values. Values are written as literals that denote
exactly themselves, except that a NaN is NULL.
-/

namespace HostSql.CallText

/-- The two hexadecimal digits of a byte. -/
def hexByte (b : UInt8) : List Char :=
  [Nat.digitChar (b.toNat / 16), Nat.digitChar (b.toNat % 16)]

/-- A literal of bytes. -/
def blobLiteral (bytes : List UInt8) : String :=
  "X'" ++ String.ofList (bytes.flatMap hexByte) ++ "'"

/-- A literal of a text. A quoted text cannot hold a NUL, so such a text is written by its bytes. -/
def textLiteral (s : String) : String :=
  if s.toList.contains '\x00' then "CAST(" ++ blobLiteral (Utf8.encode s) ++ " AS TEXT)"
  else Text.enclose '\'' s

/-- A literal of a double. Infinities are numerals that are too large. -/
def floatLiteral (x : Binary64) : String :=
  if x.isNaN then "NULL"
  else if x.isInfinite then if x.negative then "-9e999" else "9e999"
  else x.displayScientific

/-- A literal of a value. -/
def literal : Value → String
  | .null => "NULL"
  | .integer n => toString n.toInt
  | .float x => floatLiteral x
  | .text s => textLiteral s
  | .blob bytes => blobLiteral bytes

/-- A function's name with its arguments. -/
def application (name : String) (args : List String) : String :=
  Text.enclose '"' name ++ "(" ++ ", ".intercalate args ++ ")"

/-- The command that calls a function once. -/
def call (name : String) (args : List Value) : String :=
  "SELECT " ++ application name (args.map literal)

/-- A row for an aggregate: the key of its group and the arguments. -/
structure InputRow where
  key : Value
  args : List Value
  deriving Repr, DecidableEq

def InputRow.values (r : InputRow) : String :=
  "(" ++ ", ".intercalate ((r.key :: r.args).map literal) ++ ")"

/-- The `n`-th column of a list of rows. -/
def column (n : Nat) : String := "column" ++ toString n

/-- The command that calls an aggregate on rows, one group for each key or a single one. Without
rows it has `arity` arguments. -/
def aggregate (name : String) (grouped : Bool) (arity : Nat) (rows : List InputRow) : String :=
  let width := (rows.head?.map (·.args.length)).getD arity
  let result := application name ((List.range width).map fun i => column (i + 2))
  let source :=
    if rows.isEmpty then
      "(VALUES " ++ InputRow.values ⟨.null, List.replicate width .null⟩ ++ ") WHERE 0"
    else "(VALUES " ++ ", ".intercalate (rows.map (·.values)) ++ ")"
  if grouped then
    "SELECT " ++ column 1 ++ ", " ++ result ++ " FROM " ++ source ++ " GROUP BY " ++ column 1
  else "SELECT " ++ result ++ " FROM " ++ source

end HostSql.CallText
