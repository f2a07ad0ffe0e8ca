import HostSql.Sql.Token
import HostSql.Text.Fold

/-!
# Keywords

A word is a keyword when its capitals are one of the words below. Reserved keywords are never names;
the others are names wherever a keyword makes no sense, so only the reserved ones are listed.
-/

namespace HostSql.Sql

/-- The words that cannot be names unless they are quoted. -/
def reservedWords : List String :=
  ["ADD", "ALL", "ALTER", "AND", "AS", "AUTOINCREMENT", "CASE", "CHECK", "COLLATE", "COMMIT",
    "CONSTRAINT", "CREATE", "DEFAULT", "DEFERRABLE", "DELETE", "DISTINCT", "DROP", "ELSE", "ESCAPE",
    "EXISTS", "FOREIGN", "FROM", "GROUP", "HAVING", "IN", "INDEX", "INSERT", "INTO", "IS",
    "ISNULL", "JOIN", "LIMIT", "NOT", "NOTHING", "NOTNULL", "NULL", "ON", "OR", "ORDER", "PRIMARY",
    "REFERENCES", "RETURNING", "SELECT", "SET", "TABLE", "THEN", "TO", "TRANSACTION", "UNION",
    "UNIQUE", "UPDATE", "USING", "VALUES", "WHEN", "WHERE", "BETWEEN", "EXCEPT", "INTERSECT"]

/-- The words that join tables: names inside expressions, but not after them. -/
def joinWords : List String := ["CROSS", "FULL", "INNER", "LEFT", "NATURAL", "OUTER", "RIGHT"]

/-- The capitals of a word; quoted names have none. -/
def Token.keyword? (t : Token) : Option String :=
  if t.kind = .word then some (Text.raiseCase (String.ofList t.text)) else none

/-- Whether a token is the keyword `k`. -/
def Token.isKeyword (t : Token) (k : String) : Bool := t.keyword? == some k

/-- Whether a token is the mark `m`. -/
def Token.isMark (t : Token) (m : String) : Bool := t.kind = .mark && String.ofList t.text == m

/-- Whether a token may be a name. -/
def Token.isName (t : Token) : Bool :=
  t.kind = .quoted || (t.keyword?.any fun k => !reservedWords.contains k)

/-- Whether a token may be a name that follows an expression or a table without a word between. -/
def Token.isBareAlias (t : Token) : Bool :=
  t.kind = .string || (t.isName && t.keyword?.all fun k => !joinWords.contains k)

/-- A token's text without quotes. -/
def Token.content (t : Token) : String :=
  String.ofList (if t.kind = .quoted ∨ t.kind = .string then unquote t.text else t.text)

end HostSql.Sql
