import HostSql.Engine.Store
import HostSql.Sql.Grammar.Command

/-!
# The catalog

The catalog table holds one row for each table: kind, name, table, root and the text that defines
it. `Catalog.read` parses those texts. Nothing else describes the tables, so changing a table
means changing its text.
-/

namespace HostSql.Engine

open Sql

/-- A column of a table. -/
structure Column where
  name : String
  typeName : Option String
  affinity : Affinity
  collation : Collation
  notNull : Option Conflict
  default : Option Expr
  definition : ColumnDef
  deriving Repr, Inhabited

/-- Columns whose values together occur once. -/
structure UniqueKey where
  columns : List Nat
  conflict : Option Conflict
  deriving Repr, DecidableEq

/-- A table. When `numberColumn` is set, that column holds the row number. -/
structure Table where
  name : String
  root : Nat
  columns : List Column
  numberColumn : Option Nat
  numberConflict : Option Conflict
  uniques : List UniqueKey
  checks : List (String × Expr)
  /-- The text that defines the table, from its name on, and where its last column ends in it. -/
  text : String
  columnsStop : Nat
  deriving Repr, Inhabited

namespace Table

/-- The position of a column. -/
def column? (t : Table) (name : String) : Option Nat :=
  t.columns.findIdx? fun c => Text.sameName c.name name

def width (t : Table) : Nat := t.columns.length

end Table

/-- The type names that are written in capitals whatever their spelling. -/
def standardTypes : List String := ["ANY", "BLOB", "INT", "INTEGER", "REAL", "TEXT"]

/-- A declared type as it is reported. -/
def standardType (typeName : String) : String :=
  (standardTypes.find? (Text.sameName · typeName)).getD typeName

/-- The column that a definition describes. -/
def Column.ofDef (d : ColumnDef) : Column where
  name := d.name
  typeName := d.typeName.map standardType
  affinity := Affinity.ofTypeName (d.typeName.getD "")
  collation := (d.rules.findSome? fun
    | .collate name => Collation.ofName? name
    | _ => none).getD .binary
  notNull := d.rules.findSome? fun
    | .notNull conflict => some (conflict.getD .abort)
    | _ => none
  default := d.rules.findSome? fun
    | .default e => some e
    | _ => none
  definition := d

/-- Whether a column with a primary key of its own holds the row number. -/
def isNumberType (typeName : Option String) : Bool := typeName.any (Text.sameName · "INTEGER")

/-- The keys of a definition in the order in which they are written; the flag marks the primary
key. -/
def keysOf (d : TableDef) : List (Bool × List String × Option Conflict) :=
  let ofColumn (c : ColumnDef) : List (Bool × List String × Option Conflict) :=
    c.rules.filterMap fun
      | .primaryKey _ conflict _ => some (true, [c.name], conflict)
      | .unique conflict => some (false, [c.name], conflict)
      | _ => none
  d.columns.flatMap ofColumn ++ d.rules.filterMap fun
    | .primaryKey columns conflict => some (true, columns, conflict)
    | .unique columns conflict => some (false, columns, conflict)
    | _ => none

/-- Whether a descending primary key is declared on a column; such a key does not number rows. -/
def isDescendingKey (c : ColumnDef) : Bool :=
  c.rules.any fun
    | .primaryKey true _ _ => true
    | _ => false

/-- The table that a definition describes. -/
def Table.ofDef (name : String) (root : Nat) (d : TableDef) (text : String) : Table :=
  let columns := d.columns.map Column.ofDef
  let position (called : String) : Option Nat :=
    columns.findIdx? fun c => Text.sameName c.name called
  let numbering (key : Bool × List String × Option Conflict) : Option Nat :=
    match key with
    | (true, [called], _) =>
      (position called).filter fun i =>
        (d.columns[i]?).any fun c => isNumberType c.typeName && !isDescendingKey c
    | _ => none
  let keys := keysOf d
  let uniques := keys.filterMap fun key =>
    if (numbering key).isSome then none else some ⟨key.2.1.filterMap position, key.2.2⟩
  let checksOf (rules : List ColumnRule) : List (String × Expr) :=
    rules.filterMap fun
      | .check label e => some (label, e)
      | _ => none
  { name, root, columns, text
    numberColumn := keys.findSome? numbering
    numberConflict := (keys.find? fun key => (numbering key).isSome).bind (·.2.2)
    uniques := uniques.foldl
      (fun us u => if us.any (·.columns == u.columns) then us else us ++ [u]) []
    checks := d.columns.flatMap (fun c => checksOf c.rules) ++ d.rules.filterMap (fun
      | .check label e => some (label, e)
      | _ => none)
    columnsStop := d.columnsStop }

/-- The tables of a database. -/
structure Catalog where
  cookie : Nat
  tables : List Table
  deriving Repr, Inhabited

namespace Catalog

/-- The text that defines the catalog itself. -/
def catalogText : String := "x(type text,name text,tbl_name text,rootpage int,sql text)"

/-- The name of the catalog, and the other name it has. -/
def catalogName : String := "sqlite_master"
def catalogAlias : String := "sqlite_schema"

/-- What a text that creates a table creates. -/
def parseTable (text : String) : Except String (String × TableDef × String) :=
  match nextCommand text.toList with
  | .ok ⟨some (.createTable _ name d rest), _, _⟩ =>
    let skipped := text.length - rest.length
    let shift (c : ColumnDef) : ColumnDef :=
      { c with
        start := c.start - skipped
        nameStop := c.nameStop - skipped
        stop := c.stop - skipped }
    .ok (name.name, ⟨d.columns.map shift, d.rules, d.columnsStop - skipped⟩, rest)
  | .ok _ => .error ""
  | .error e => .error e.message

/-- The catalog as a table of its own. -/
def catalogTable : Table :=
  match parseTable ("CREATE TABLE " ++ catalogText) with
  | .ok (_, d, rest) => Table.ofDef catalogName Database.catalogRoot d rest
  | .error _ => default

/-- Whether a text begins as a definition does. -/
def looksLikeDefinition (text : String) : Bool :=
  (text.toList.take 2).map Char.toLower == ['c', 'r']

/-- The table that a row of the catalog describes, if any; the error is the message about a row that
makes no sense. -/
def readRow (r : Row) : Except String (Option Table) :=
  let text? (i : Nat) : Option String := (r[i]?).bind fun d => d.readText?
  let name := (text? 1).getD ""
  let malformed (why : String) : Except String (Option Table) :=
    .error ("malformed database schema (" ++ name ++ ")"
      ++ (if why.isEmpty then "" else " - " ++ why))
  match text? 4 with
  | none => if (text? 1).isSome then .ok none else malformed ""
  | some sql =>
    if sql.isEmpty then .ok none
    else if !looksLikeDefinition sql then malformed ""
    else
      match parseTable sql with
      | .error why => malformed why
      | .ok (_, d, rest) =>
        let root := ((r[3]?).getD Datum.null).asInteger.toInt.toNat
        .ok (some (Table.ofDef name root d rest))

/-- Reads the catalog of a database. -/
def read (db : Database) : Except String Catalog := do
  let tables ← (db.rows Database.catalogRoot).mapM fun r => readRow r.2
  return ⟨db.cookie, tables.filterMap id⟩

/-- Looks a table up by name. -/
def table? (c : Catalog) (name : String) : Option Table :=
  if Text.sameName name catalogName || Text.sameName name catalogAlias then some catalogTable
  else c.tables.find? fun t => Text.sameName t.name name

end Catalog

end HostSql.Engine
