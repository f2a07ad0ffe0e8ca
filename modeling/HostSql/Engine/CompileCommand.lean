import HostSql.Engine.Compile
import HostSql.Engine.Definition

/-!
# From commands to programs

`compileCommand` turns a command into a program: it looks names up, checks what can be checked
before anything runs, and says what the program needs of its volume. Where several things are
wrong the first in the order of the checks is reported.
-/

namespace HostSql.Engine

open Sql

/-- What compiling may ask about the connection. -/
structure Settings where
  functions : List HostFunction
  catalog : Option Catalog
  /-- Whether the catalog may be changed as a table. -/
  writableCatalog : Bool

/-- Where names are looked up. -/
def Settings.environment (s : Settings) : Environment := ⟨s.catalog, s.functions, []⟩

/-- A program without result columns. -/
def silent (settings : Settings) (access : Access) (action : Action) : Program :=
  ⟨action, [], access, if access = .none then none else settings.catalog.map (·.cookie)⟩

/-- Whether a name is kept for the engine itself. -/
def isReservedName (name : String) : Bool :=
  "sqlite_".toList.isPrefixOf (Text.foldCase name).toList

/-- The first name that occurs twice. -/
def repeated? : List String → Option String
  | [] => none
  | s :: rest =>
    match rest.find? (Text.sameName s) with
    | some t => some t
    | none => repeated? rest

/-! ## Changes of rows -/

/-- The table that is to be changed. -/
def targetTable (s : Settings) (name : TableName) : Except Fault Table := do
  let t ← s.environment.table name
  if t.root = Database.catalogRoot && !s.writableCatalog then
    throw (.general ("table " ++ t.name ++ " may not be modified"))
  return t

/-- Names of a table's columns. -/
def tableNames (s : Settings) (t : Table) : Names :=
  ⟨tableColumns t t.name 0, t.width + 1, [], s.functions⟩

/-- The values of columns that are not given. -/
def defaultTerms (s : Settings) (t : Table) : Except Fault (List Term) :=
  t.columns.mapM fun c =>
    match c.default with
    | some e => do
      return (← resolvePlain { (default : Names) with functions := s.functions } e).term
    | none => return .value .null

/-- A table as the target of a change. -/
def targetOf (s : Settings) (t : Table) (conflict : Option Conflict) : Except Fault Target := do
  let checks ← t.checks.mapM fun (label, e) => do
    return (label, (← resolvePlain (tableNames s t) e).term)
  return ⟨t, checks, ← defaultTerms s t, conflict⟩

/-- The terms of a table's columns and of the row number, given the terms of the listed columns. -/
def placeColumns (t : Table) (listed : Option (List String)) (given defaults : List Term) :
    List Term × Option Term :=
  let position (i : Nat) (c : Column) : Option Nat :=
    match listed with
    | some names => names.findIdx? fun s => Text.sameName s c.name
    | none => some i
  let terms := (t.columns.zip defaults).zipIdx.map fun ((c, d), i) =>
    ((position i c).bind fun p => given[p]?).getD d
  let number :=
    match t.numberColumn with
    | some i => terms[i]?
    | none =>
      listed.bind fun names =>
        (names.findIdx? fun s => numberNames.any (Text.sameName s ·)).bind fun p => given[p]?
  (terms, number)

/-- Checks the list of columns of an insertion. -/
def checkListed (t : Table) (listed : Option (List String)) : Except Fault Unit :=
  (listed.getD []).forM fun s =>
    if (t.column? s).isSome || numberNames.any (Text.sameName s ·) then pure ()
    else throw (.general ("table " ++ t.name ++ " has no column named " ++ s))

/-- Checks the number of values of an insertion. -/
def checkCount (t : Table) (listed : Option (List String)) (count : Nat) : Except Fault Unit :=
  match listed with
  | none =>
    if count = t.width then .ok ()
    else .error (.general ("table " ++ t.name ++ " has " ++ toString t.width ++ " columns but "
      ++ toString count ++ " values were supplied"))
  | some names =>
    if count = names.length then .ok ()
    else .error (.general (toString count ++ " values for " ++ toString names.length ++ " columns"))

/-- Whether a plan reads a given table. -/
def Plan.readsRoot (root : Nat) : Plan → Bool
  | .scan r _ => r == root
  | .rows _ | .working | .values _ => false
  | .loop s | .filter _ s | .project _ s | .total _ _ s | .group _ _ s | .sort _ s | .distinct s
  | .limit _ _ s => s.readsRoot root
  | .join l r | .append l r | .combine _ l r | .recursive _ l r =>
    l.readsRoot root || r.readsRoot root

def compileInsert (s : Settings) (conflict : Option Conflict) (name : TableName)
    (listed : Option (List String)) (source : Option Query) : Except Fault Program := do
  let t ← targetTable s name
  checkListed t listed
  let target ← targetOf s t conflict
  let insertion (plan : Plan) (terms : List Term) : Program :=
    let (columns, number) := placeColumns t listed terms target.defaults
    silent s .write (.changeRows target (.insert plan columns number))
  match source with
  | none => return insertion (.rows [[]]) []
  | some q =>
    let (plan, outs) ← compileQuery s.environment queryDepth q
    checkCount t listed outs.length
    match plan with
    | .values [terms] => return insertion (.rows [[]]) terms
    | plan =>
      let plan := if plan.readsRoot t.root then .sort [] plan else .loop plan
      return insertion plan ((List.range outs.length).map Term.column)

def compileUpdate (s : Settings) (conflict : Option Conflict) (name : TableName)
    (sets : List (String × Expr)) (condition : Option Expr) : Except Fault Program := do
  let t ← targetTable s name
  let names := tableNames s t
  let resolved ← sets.mapM fun (column, e) => do
    let place ← match t.column? column with
      | some i => pure (some i)
      | none =>
        if numberNames.any (Text.sameName column ·) then pure none
        else throw (.general ("no such column: " ++ column))
    return (place, (← resolvePlain names e).term)
  let condition ← condition.mapM (resolvePlain names)
  let isNumber (place : Option Nat) : Bool := place.isNone || place == t.numberColumn
  let number := (resolved.find? fun r => isNumber r.1).map (·.2)
  let changes := resolved.filterMap fun (place, e) => place.map fun i => (i, e)
  return silent s .write (.changeRows (← targetOf s t conflict)
    (.update changes number (condition.map (·.term))))

def compileDelete (s : Settings) (name : TableName) (condition : Option Expr) :
    Except Fault Program := do
  let t ← targetTable s name
  let condition ← condition.mapM (resolvePlain (tableNames s t))
  return silent s .write (.changeRows (← targetOf s t none) (.delete (condition.map (·.term))))

/-! ## Changes of tables -/

/-- Checks the keys and conditions of a definition. -/
def checkDefinition (s : Settings) (name : String) (d : TableDef) : Except Fault Unit := do
  if let some c := repeated? (d.columns.map (·.name)) then
    throw (.general ("duplicate column name: " ++ c))
  let keys := keysOf d
  if 1 < (keys.filter (·.1)).length then
    throw (.general ("table \"" ++ name ++ "\" has more than one primary key"))
  let t := Table.ofDef name 0 d ""
  let increasing := d.columns.any fun c => c.rules.any fun
    | .primaryKey _ _ true => true
    | _ => false
  if increasing && t.numberColumn.isNone then
    throw (.general "AUTOINCREMENT is only allowed on an INTEGER PRIMARY KEY")
  for (_, columns, _) in keys do
    for c in columns do
      if (t.column? c).isNone then throw (.general ("no such column: " ++ c))
  for (_, e) in t.checks do
    let _ ← resolvePlain (tableNames s t) e

/-- The catalog, which must have been read. -/
def Settings.needCatalog (s : Settings) : Except Fault Catalog :=
  match s.catalog with
  | some c => .ok c
  | none => .error .catalogChanged

def compileCreate (s : Settings) (ifAbsent : Bool) (name : TableName) (d : TableDef)
    (text : String) : Except Fault Program := do
  let catalog ← s.needCatalog
  if isReservedName name.name then
    throw (.general ("object name reserved for internal use: " ++ name.name))
  match catalog.table? name.name with
  | some t =>
    if ifAbsent then return silent s .read .nothing
    else
      throw (.general ("table " ++ (if isReservedName name.name then name.name else t.name)
        ++ " already exists"))
  | none =>
    checkDefinition s name.name d
    return silent s .write (.changeTables (.create name.name d text))

/-- A table whose definition may be changed. -/
def alterable (s : Settings) (name : TableName) : Except Fault Table := do
  let t ← s.environment.table name
  if t.root = Database.catalogRoot then
    throw (.general ("table " ++ t.name ++ " may not be altered"))
  return t

/-- Checks that a changed definition still makes sense. -/
def checkChanged (s : Settings) (t : Table) (when' text : String) : Except Fault Unit :=
  let failed (message : String) : Except Fault Unit :=
    .error (.general ("error in table " ++ t.name ++ " " ++ when' ++ ": " ++ message))
  match Catalog.parseTable (createWords ++ text) with
  | .error message => failed message
  | .ok (_, d, _) =>
    match checkDefinition s t.name d with
    | .error fault => failed fault.message
    | .ok _ => .ok ()

/-- The value that rows already stored have in a new column. -/
def addedValue (c : Column) : Except Fault Datum :=
  match c.default with
  | none => .ok .null
  | some e =>
    match resolvePlain default e with
    | .ok t =>
      match t.term with
      | .value d => .ok (c.affinity.apply d)
      | _ => .error (.general "Cannot add a column with non-constant default")
    | .error _ => .error (.general "Cannot add a column with non-constant default")

/-- Checks that a column can be added to a table. -/
def checkAdded (t : Table) (c : ColumnDef) (value : Datum) : Except Fault Unit := do
  if (t.column? c.name).isSome then throw (.general ("duplicate column name: " ++ c.name))
  for rule in c.rules do
    match rule with
    | .primaryKey _ _ _ => throw (.general "Cannot add a PRIMARY KEY column")
    | .unique _ => throw (.general "Cannot add a UNIQUE column")
    | .notNull _ =>
      if value.isNull then
        throw (.general "Cannot add a NOT NULL column with default value NULL")
    | _ => pure ()

/-- Checks that a column can be dropped. -/
def checkDropped (t : Table) (i : Nat) (column : String) : Except Fault Unit := do
  let inKey (primary : Bool) : Bool :=
    (t.columns[i]?).any fun c => (keysOf ⟨t.columns.map (·.definition), [], 0⟩).any fun k =>
      k.1 == primary && k.2.1.any (Text.sameName · c.name)
  if inKey true || t.numberColumn = some i then
    throw (.general ("cannot drop PRIMARY KEY column: \"" ++ column ++ "\""))
  if inKey false then throw (.general ("cannot drop UNIQUE column: \"" ++ column ++ "\""))
  if t.width ≤ 1 then
    throw (.general ("cannot drop column \"" ++ column ++ "\": no other columns exist"))

/-- The change of a table's name. -/
def compileRename (s : Settings) (name : TableName) (newName : String) :
    Except Fault TableChange := do
  let t ← alterable s name
  let catalog ← s.needCatalog
  if isReservedName newName then
    throw (.general ("object name reserved for internal use: " ++ newName))
  if (catalog.table? newName).isSome then
    throw (.general ("there is already another table or index with this name: " ++ newName))
  return .redefine t newName (textWithTableName t newName) .keep

/-- The change of a column's name. -/
def compileRenameColumn (s : Settings) (name : TableName) (column newText newName : String) :
    Except Fault TableChange := do
  let t ← alterable s name
  match t.column? column with
  | none => throw (.general ("no such column: \"" ++ column ++ "\""))
  | some i =>
    let quoted := newText.toList.head?.any fun c => c = '"' || c = '[' || c = '\x60' || c = '\''
    let text := textWithName t i (if quoted then quoteName newName else newName)
    checkChanged s t "after rename" text
    return .redefine t t.name text .keep

/-- The addition of a column. -/
def compileAddColumn (s : Settings) (name : TableName) (c : ColumnDef) (text : String) :
    Except Fault TableChange := do
  let t ← alterable s name
  let value ← addedValue (Column.ofDef c)
  checkAdded t c value
  return .redefine t t.name (textWithColumn t text) (.add value)

/-- The removal of a column. -/
def compileDropColumn (s : Settings) (name : TableName) (column : String) :
    Except Fault TableChange := do
  let t ← alterable s name
  match t.column? column with
  | none => throw (.general ("no such column: \"" ++ column ++ "\""))
  | some i =>
    checkDropped t i column
    let text := textWithoutColumn t i
    checkChanged s t "after drop column" text
    return .redefine t t.name text (.remove i)

def compileDrop (s : Settings) (ifPresent : Bool) (name : TableName) : Except Fault Program := do
  let catalog ← s.needCatalog
  if (catalog.table? name.name).isNone && ifPresent then return silent s .read .nothing
  let t ← s.environment.table name
  if t.root = Database.catalogRoot then
    throw (.general ("table " ++ t.name ++ " may not be dropped"))
  return silent s .write (.changeTables (.drop t))

/-! ## Settings -/

/-- Whether a written value switches a setting on. -/
def isOn (value : String) : Bool :=
  ["on", "yes", "true"].any (Text.sameName · value)
    || (value.toList.takeWhile Char.isDigit).any (· != '0')

/-- The names of settings that are known. -/
def writableCatalogSetting : String := "writable_schema"

/-- The program that reports a setting; settings that are not known report nothing. -/
def compileSetting (s : Settings) (name : String) (value : Option String) : Program :=
  let report (d : Datum) : Program :=
    ⟨.query (.rows [[d]]), [(Text.foldCase name, none)], .none, none⟩
  match value with
  | some _ => silent s .none .nothing
  | none =>
    if Text.sameName name writableCatalogSetting then report (.ofBool s.writableCatalog)
    else if Text.sameName name "encoding" then report (.ofString "UTF-8")
    else if Text.sameName name "foreign_keys" then report (.ofBool true)
    else silent s .none .nothing

/-- The program of a command. -/
def compileCommand (s : Settings) : Command → Except Fault Program
  | .query q => do
    let (plan, outs) ← compileQuery s.environment queryDepth q
    let access : Access := if plan.readsTable then .read else .none
    let program := silent s access (.query plan)
    return { program with columns := outs.map fun o => (o.name, o.typeName) }
  | .insert conflict table columns source => compileInsert s conflict table columns source
  | .update conflict table sets condition => compileUpdate s conflict table sets condition
  | .delete table condition => compileDelete s table condition
  | .createTable ifAbsent name d text => compileCreate s ifAbsent name d text
  | .dropTable ifPresent name => compileDrop s ifPresent name
  | .renameTable table newName => alter (compileRename s table newName)
  | .renameColumn table column newText newName =>
    alter (compileRenameColumn s table column newText newName)
  | .addColumn table c text => alter (compileAddColumn s table c text)
  | .dropColumn table column => alter (compileDropColumn s table column)
  | .begin mode => return ⟨.begin mode, [], if mode = .deferred then .none else .write, none⟩
  | .commit => return silent s .none .commit
  | .rollback => return silent s .none .rollback
  | .savepoint name => return silent s .none (.savepoint name)
  | .release name => return silent s .none (.release name)
  | .rollbackTo name => return silent s .none (.rollbackTo name)
  | .setting name value => return compileSetting s name value
where
  /-- The program of a change of a table. -/
  alter (change : Except Fault TableChange) : Except Fault Program :=
    change.map fun c => silent s .write (.changeTables c)

end HostSql.Engine
