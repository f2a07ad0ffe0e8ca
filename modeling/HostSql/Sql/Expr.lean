/-!
# Expressions and queries as written

The trees that the grammar builds. Names are not looked up yet and numerals are not evaluated.
Operators that are calls in disguise (`LIKE` and its kin) are calls here, and negated forms stand
under `not`.
-/

namespace HostSql.Sql

inductive UnaryOp where
  | negate
  | plus
  | not
  | bitNot
  deriving Repr, DecidableEq

inductive BinaryOp where
  | or
  | and
  | equal
  | notEqual
  | is
  | isNot
  | less
  | lessEqual
  | greater
  | greaterEqual
  | bitAnd
  | bitOr
  | shiftLeft
  | shiftRight
  | add
  | subtract
  | multiply
  | divide
  | remainder
  | concat
  deriving Repr, DecidableEq

/-- An expression. -/
inductive Expr where
  | integer (n : Nat)
  /-- Hexadecimal digits after their mark: a pattern of 64 bits. -/
  | pattern (mark : Char) (digits : List Char)
  | real (digits : List Char)
  | string (s : String)
  | blob (bytes : List UInt8)
  | null
  | parameter (text : String)
  /-- A name; one in double quotes that names nothing is a string. -/
  | name (doubleQuoted : Bool) (s : String)
  | qualified (table column : String)
  | unary (op : UnaryOp) (e : Expr)
  | binary (op : BinaryOp) (l r : Expr)
  | isNull (e : Expr)
  | between (e low high : Expr)
  | among (e : Expr) (items : List Expr)
  /-- The operand if there is one, pairs of condition and value, the value after `ELSE` if any. -/
  | choice (hasOperand : Bool) (items : List Expr)
  | cast (e : Expr) (typeName : String)
  | collate (e : Expr) (name : String)
  | call (name : String) (distinct : Bool) (args : List Expr)
  /-- A call with a star in place of arguments. -/
  | callStar (name : String)
  /-- Several expressions in parentheses. -/
  | row (items : List Expr)
  deriving Repr, BEq, Inhabited

/-- An entry between `SELECT` and `FROM`. -/
inductive ResultColumn where
  | all
  | allOf (table : String)
  /-- An expression, the name it is given, and its text. -/
  | expr (e : Expr) (label : Option String) (text : String)
  deriving Repr, Inhabited

/-- A key of `ORDER BY`. `nullsFirst` is present when the place of nulls is given. -/
structure OrderTerm where
  key : Expr
  descending : Bool
  nullsFirst : Option Bool
  deriving Repr, Inhabited

inductive CompoundOp where
  | union
  | unionAll
  | intersect
  | except
  deriving Repr, DecidableEq

/-- A table's name with the name of its database, if given. -/
structure TableName where
  schema : Option String
  name : String
  deriving Repr, DecidableEq, Inhabited

mutual

/-- What stands after `FROM`. -/
inductive Source where
  | table (name : TableName) (label : Option String)
  | query (q : Query) (label : Option String)

/-- One part of a compound query. -/
inductive Core where
  | select (distinct : Bool) (columns : List ResultColumn) (sources : List Source)
      (condition : Option Expr) (groupBy : List Expr) (having : Option Expr)
  | values (rows : List (List Expr))

/-- A query: named queries it may use, its parts, and what applies to the whole. A part that is not
the last may carry an order or a limit only by mistake, which `misplaced` names. -/
inductive Query where
  | mk (named : List NamedQuery) (first : Core) (rest : List (CompoundOp × Core))
      (misplaced : Option (String × CompoundOp)) (order : List OrderTerm)
      (limit : Option Expr) (offset : Option Expr)

/-- A query with a name and names for its columns. -/
inductive NamedQuery where
  | mk (name : String) (columns : List String) (query : Query)

end

instance : Inhabited Core := ⟨.values []⟩

instance : Inhabited Query := ⟨.mk [] default [] none [] none none⟩

def NamedQuery.name : NamedQuery → String
  | .mk name _ _ => name

def NamedQuery.columns : NamedQuery → List String
  | .mk _ columns _ => columns

def NamedQuery.query : NamedQuery → Query
  | .mk _ _ q => q

end HostSql.Sql
