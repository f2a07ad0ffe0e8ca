import HostSql.Engine.Datum

/-!
# Stored tables

A `Database` maps root numbers to tables; a table is a list of rows with ascending row numbers, and
root 1 is the catalog. `rowAfter?` is how rows are visited: it asks for the next row number in the
table as it is now, so a visit goes on correctly after any change of the table. `cookie` counts the
changes of the catalog.
-/

namespace HostSql.Engine

/-- A stored row with its number. -/
abbrev NumberedRow := Int64 × Row

/-- The contents of a database. -/
structure Database where
  cookie : Nat
  tables : List (Nat × List NumberedRow)
  deriving Repr, DecidableEq

namespace Database

/-- The root of the catalog. -/
def catalogRoot : Nat := 1

def empty : Database := ⟨0, [(catalogRoot, [])]⟩

instance : Inhabited Database := ⟨empty⟩

/-- The rows of a table. -/
def rows (db : Database) (root : Nat) : List NumberedRow := (db.tables.lookup root).getD []

/-- Replaces the rows of a table. -/
def setRows (db : Database) (root : Nat) (rs : List NumberedRow) : Database :=
  { db with tables := db.tables.map fun t => if t.1 = root then (root, rs) else t }

/-- Puts a row in its place; a row with the same number gives way. -/
def insertRow (n : Int64) (r : Row) : List NumberedRow → List NumberedRow
  | [] => [(n, r)]
  | (m, s) :: rest =>
    if m < n then (m, s) :: insertRow n r rest
    else if m = n then (n, r) :: rest
    else (n, r) :: (m, s) :: rest

def insert (db : Database) (root : Nat) (n : Int64) (r : Row) : Database :=
  db.setRows root (insertRow n r (db.rows root))

def erase (db : Database) (root : Nat) (n : Int64) : Database :=
  db.setRows root ((db.rows root).filter (·.1 != n))

/-- The row with a number. -/
def row? (db : Database) (root : Nat) (n : Int64) : Option Row := (db.rows root).lookup n

/-- The first row, or the first after a number. -/
def rowAfter? (db : Database) (root : Nat) : Option Int64 → Option NumberedRow
  | none => (db.rows root).head?
  | some n => (db.rows root).find? (n < ·.1)

/-- Adds an empty table under a new root. -/
def addTable (db : Database) : Nat × Database :=
  let root := db.tables.foldl (fun m t => max m t.1) 0 + 1
  (root, { db with tables := db.tables ++ [(root, [])] })

def dropTable (db : Database) (root : Nat) : Database :=
  { db with tables := db.tables.filter (·.1 != root) }

/-- Where the search for a number begins once the last number is taken. -/
def searchTop : Nat := powTwo 62

/-- The number that a row gets when none is given: one more than the largest. When the largest is
the last number, one that is free, from the middle of the range. -/
def freshNumber? (rs : List NumberedRow) : Option Int64 :=
  match rs.getLast? with
  | none => some 1
  | some (n, _) =>
    if n < Int64.maxValue then some (n + 1)
    else
      ((List.range (rs.length + 1)).map fun i => Int64.ofNat (searchTop - i)).find? fun i =>
        !rs.any (·.1 == i)

end Database

end HostSql.Engine
