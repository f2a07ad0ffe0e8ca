import HostSql.Engine.Definition
import HostSql.Engine.Transaction

/-!
# Changing tables

A change of a table is a change of its catalog rows, of the rows it stores, or of both. The catalog
counts it, so statements that were compiled before are compiled again.
-/

namespace HostSql.Engine

open Sql

variable {H : Type}

/-! ## Catalog rows -/

/-- The catalog row of a table. -/
def catalogRow (name : String) (root : Nat) (text : String) : Row :=
  [.ofString "table", .ofString name, .ofString name, .integer (Int64.ofNat root),
    .ofString (createWords ++ text)]

/-- The name of the structure behind a table's `i`-th key, counted from one. -/
def keyName (table : String) (i : Nat) : String :=
  "sqlite_autoindex_" ++ table ++ "_" ++ toString i

/-- The catalog row of a table's `i`-th key. -/
def keyRow (table : String) (i root : Nat) : Row :=
  [.ofString "index", .ofString (keyName table i), .ofString table,
    .integer (Int64.ofNat root), .null]

/-- Adds a row to the catalog. -/
def addCatalogRow (db : Database) (r : Row) : Database :=
  match Database.freshNumber? (db.rows Database.catalogRoot) with
  | some n => db.insert Database.catalogRoot n r
  | none => db

/-- Adds a table with its keys. -/
def createTable (name : String) (d : TableDef) (text : String) (db : Database) : Database :=
  let (root, db) := db.addTable
  let db := addCatalogRow db (catalogRow name root text)
  let keys := (Table.ofDef name root d text).uniques.length
  (List.range keys).foldl (fun db i =>
    let (root, db) := db.addTable
    addCatalogRow db (keyRow name (i + 1) root)) db

/-- Whether a catalog row belongs to a table. -/
def belongsTo (name : String) (r : Row) : Bool :=
  ((r[2]?).bind fun d => d.readText?).any (Text.sameName · name)

/-- The root that a catalog row names. -/
def rowRoot (r : Row) : Nat := ((r[3]?).getD Datum.null).asInteger.toInt.toNat

/-- Removes a table with its keys. -/
def dropTable (t : Table) (db : Database) : Database :=
  let rows := db.rows Database.catalogRoot
  let own := rows.filter fun r => belongsTo t.name r.2
  let db := own.foldl (fun db r => db.dropTable (rowRoot r.2)) db
  db.setRows Database.catalogRoot (rows.filter fun r => !belongsTo t.name r.2)

/-- What a row becomes when columns change. -/
def ColumnChange.apply : ColumnChange → Row → Row
  | keep, r => r
  | add d, r => r ++ [d]
  | remove i, r => r.eraseIdx i

/-- Gives a table a new name and definition, and its rows a new form. -/
def redefineTable (t : Table) (newName text : String) (change : ColumnChange) (db : Database) :
    Database :=
  let rename (r : Row) : Row :=
    if !belongsTo t.name r then r
    else if ((r[0]?).bind fun d => d.readText?) = some "table" then
      catalogRow newName (rowRoot r) text
    else
      let old := ((r[1]?).bind fun d => d.readText?).getD ""
      let number := String.ofList (old.toList.drop (keyName t.name 0).length.pred)
      [.ofString "index", .ofString ("sqlite_autoindex_" ++ newName ++ "_" ++ number),
        .ofString newName] ++ r.drop 3
  let db := db.setRows Database.catalogRoot
    ((db.rows Database.catalogRoot).map fun (n, r) => (n, rename r))
  db.setRows t.root ((db.rows t.root).map fun (n, r) => (n, change.apply r))

/-! ## Applying changes -/

/-- Edits the tables. The catalog counts one more change, and the connection reads it again. -/
def editTables (scope : Scope H) (edit : Database → Database) : Run H Unit := do
  writeDatabase scope.connection fun db =>
    let db := edit db
    { db with cookie := db.cookie + 1 }
  World.modifyConnection (H := H) scope.connection fun c => { c with catalogChanged := true }
  match Catalog.read (← currentDatabase scope.connection) with
  | .ok catalog =>
    World.modifyConnection (H := H) scope.connection fun c => { c with catalog := some catalog }
  | .error message => throw (.malformed message)

/-- Applies a change of tables. A table cannot be dropped while another statement reads. -/
def applyTableChange (scope : Scope H) (change : TableChange) : Run H Unit := do
  match change with
  | .create name d text => editTables scope (createTable name d text)
  | .drop t =>
    let others ← otherUsers (H := H) scope.connection scope.statement
    if !others.isEmpty then throw .tableLocked
    editTables scope (dropTable t)
  | .redefine t newName text columns => editTables scope (redefineTable t newName text columns)

end HostSql.Engine
