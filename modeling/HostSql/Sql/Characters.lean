/-!
# Character classes of SQL text

Words are made of ASCII letters and digits, `_`, `$` and everything outside ASCII.
-/

namespace HostSql.Sql

/-- The characters of an unquoted word. -/
def isIdChar (c : Char) : Bool := c.isAlphanum || c == '_' || c == '$' || 0x80 ≤ c.toNat

/-- The characters that may begin a run of blanks. -/
def isBlankStart (c : Char) : Bool :=
  c == ' ' || c == '\t' || c == '\n' || c == '\x0c' || c == '\r'

/-- The characters that continue a run of blanks. -/
def isSpace (c : Char) : Bool := isBlankStart c || c == '\x0b'

/-- Hexadecimal digits. -/
def isHexDigit (c : Char) : Bool :=
  c.isDigit || ('a' ≤ c && c ≤ 'f') || ('A' ≤ c && c ≤ 'F')

/-- The value of a hexadecimal digit. -/
def hexDigitValue (c : Char) : Nat :=
  if c.isDigit then c.toNat - 48 else if 'a' ≤ c then c.toNat - 87 else c.toNat - 55

end HostSql.Sql
