import HostSql.Sql.Expr

/-!
# Commands as written

A command is a query, a change of rows, a change of tables, or a step of a transaction. The
definition of a table keeps where each column stands in the text, because changing a table later
means editing that text.
-/

namespace HostSql.Sql

/-- What to do when a row breaks a constraint. -/
inductive Conflict where
  | rollback
  | abort
  | fail
  | ignore
  | replace
  deriving Repr, DecidableEq, Inhabited

/-- A condition on one column. -/
inductive ColumnRule where
  | default (e : Expr)
  | notNull (conflict : Option Conflict)
  | primaryKey (descending : Bool) (conflict : Option Conflict) (increasing : Bool)
  | unique (conflict : Option Conflict)
  /-- A condition and its name, or its text when it has no name. -/
  | check (label : String) (e : Expr)
  | collate (name : String)
  /-- A rule without effect here. -/
  | other
  deriving Repr, Inhabited

/-- A column of a table: name, type as written, rules, and the offsets of its first character and of
the end of its name and of its last character. -/
structure ColumnDef where
  name : String
  typeName : Option String
  rules : List ColumnRule
  start : Nat
  nameStop : Nat
  stop : Nat
  deriving Repr, Inhabited

/-- A condition on the whole table. -/
inductive TableRule where
  | primaryKey (columns : List String) (conflict : Option Conflict)
  | unique (columns : List String) (conflict : Option Conflict)
  | check (label : String) (e : Expr)
  | other
  deriving Repr, Inhabited

/-- The columns and rules of a table, and the offset of the mark after its last column. -/
structure TableDef where
  columns : List ColumnDef
  rules : List TableRule
  columnsStop : Nat
  deriving Repr, Inhabited

/-- Which lock a transaction takes at once. -/
inductive BeginMode where
  | deferred
  | immediate
  | exclusive
  deriving Repr, DecidableEq

/-- A command. -/
inductive Command where
  | query (q : Query)
  /-- Without a source all columns take their defaults. -/
  | insert (conflict : Option Conflict) (table : TableName) (columns : Option (List String))
      (source : Option Query)
  | update (conflict : Option Conflict) (table : TableName) (sets : List (String × Expr))
      (condition : Option Expr)
  | delete (table : TableName) (condition : Option Expr)
  /-- `text` is the definition from the table's name on. -/
  | createTable (ifAbsent : Bool) (name : TableName) (definition : TableDef) (text : String)
  | dropTable (ifPresent : Bool) (name : TableName)
  | renameTable (table : TableName) (newName : String)
  | renameColumn (table : TableName) (column : String) (newText : String) (newName : String)
  | addColumn (table : TableName) (column : ColumnDef) (text : String)
  | dropColumn (table : TableName) (column : String)
  | begin (mode : BeginMode)
  | commit
  | rollback
  | savepoint (name : String)
  | release (name : String)
  | rollbackTo (name : String)
  | setting (name : String) (value : Option String)

end HostSql.Sql
