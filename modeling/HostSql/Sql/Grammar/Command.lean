import HostSql.Sql.Grammar.Query

/-!
# Reading commands

`nextCommand` reads the first command of a text and says where the text goes on: just after the
semicolon that ends the command, or at the end. Semicolons before the command are skipped, and a
text without a command is used up whole.
-/

namespace HostSql.Sql

open Reader

/-- Reads `OR` and a policy, if there. -/
def orConflict? : Reader (Option Conflict) := do
  if ← keyword? "OR" then return some (← policy) else return none
where
  policy : Reader Conflict := do
    if ← keyword? "ROLLBACK" then return .rollback
    if ← keyword? "ABORT" then return .abort
    if ← keyword? "FAIL" then return .fail
    if ← keyword? "IGNORE" then return .ignore
    if ← keyword? "REPLACE" then return .replace
    unexpected

/-- Reads `ON CONFLICT` and a policy, if there. -/
def onConflict? : Reader (Option Conflict) := do
  if ← keyword? "ON" then
    keyword "CONFLICT"
    return some (← orConflict?.policy)
  else return none

/-- Skips what a `REFERENCES` clause says. -/
def references : Reader Unit := do
  let _ ← name
  let _ ← nameList?
  let rec more : Nat → Reader Unit
    | 0 => return
    | fuel + 1 => do
      if ← keyword? "ON" then
        let _ ← token fun t => t.isKeyword "DELETE" || t.isKeyword "UPDATE"
        if ← keyword? "SET" then
          let _ ← token fun t => t.isKeyword "NULL" || t.isKeyword "DEFAULT"
        else if ← keyword? "NO" then keyword "ACTION"
        else
          let _ ← token fun t => t.isKeyword "CASCADE" || t.isKeyword "RESTRICT"
        more fuel
      else if ← keyword? "MATCH" then
        let _ ← name
        more fuel
      else return
  more (← input).tokens.length
  let (t, next) ← peekTwo
  let negated := t.any (·.isKeyword "NOT") && next.any (·.isKeyword "DEFERRABLE")
  if negated then keyword "NOT"
  if ← keyword? "DEFERRABLE" then
    if ← keyword? "INITIALLY" then
      let _ ← token fun t => t.isKeyword "DEFERRED" || t.isKeyword "IMMEDIATE"

/-- Reads a condition in parentheses together with its text. -/
def checkCondition : Reader (String × Expr) := do
  mark "("
  let start := (← input).stop
  let e ← fullExpr
  let text ← trimmedSlice start (← offset)
  mark ")"
  return (text, e)

/-- Reads the value after `DEFAULT`. -/
def defaultValue : Reader Expr := do
  let (some t, _) ← peekTwo | throw .incomplete
  if t.isMark "(" then
    parenthesized fullExpr
  else if t.isMark "-" then
    mark "-"
    return .unary .negate (← literal)
  else if t.isMark "+" then
    mark "+"
    literal
  else literal
where
  literal : Reader Expr := do
    let t ← token fun t =>
      [TokenKind.integer, .float, .string, .blob].contains t.kind || t.isKeyword "NULL" || t.isName
    match t.kind with
    | .integer => return integerExpr t.text
    | .float => return .real t.text
    | .string => return .string t.content
    | .blob => return .blob (hexBytes (t.text.drop 2).dropLast)
    | _ =>
      if t.isKeyword "NULL" then return .null
      else if t.isKeyword "TRUE" then return .integer 1
      else if t.isKeyword "FALSE" then return .integer 0
      else return .string t.content

/-- Reads the name of a constraint, if there is one. -/
def constraintName? : Reader (Option String) := do
  if ← keyword? "CONSTRAINT" then return some (← name) else return none

/-- Reads the rules of a column. -/
def columnRules : Nat → Reader (List ColumnRule)
  | 0 => throw .tooDeep
  | fuel + 1 => do
    let label ← constraintName?
    let (t, next) ← peekTwo
    let is (k : String) : Bool := t.any (·.isKeyword k)
    let take : Reader Unit := do let _ ← token fun _ => true
    let rule? : Option ColumnRule ←
      if is "DEFAULT" then do take; pure (some (.default (← defaultValue)))
      else if is "NULL" then do
        take
        let _ ← onConflict?
        pure (some .other)
      else if is "NOT" && next.any (·.isKeyword "NULL") then do
        take; take
        pure (some (.notNull (← onConflict?)))
      else if is "PRIMARY" then do
        take
        keyword "KEY"
        let descending ← if ← keyword? "DESC" then pure true else do
          let _ ← keyword? "ASC"
          pure false
        let conflict ← onConflict?
        pure (some (.primaryKey descending conflict (← keyword? "AUTOINCREMENT")))
      else if is "UNIQUE" then do
        take
        pure (some (.unique (← onConflict?)))
      else if is "CHECK" then do
        take
        let (text, e) ← checkCondition
        pure (some (.check (label.getD text) e))
      else if is "COLLATE" then do
        take
        pure (some (.collate (← name)))
      else if is "REFERENCES" then do
        take
        references
        pure (some .other)
      else pure none
    match rule? with
    | some rule => return rule :: (← columnRules fuel)
    | none => if label.isSome then unexpected else return []

/-- Reads a column of a table. -/
def columnDef : Reader ColumnDef := do
  let start ← offset
  let called ← name
  let nameStop := (← input).stop
  let typeName ← typeName?
  let rules ← columnRules (← fuel)
  return ⟨called, typeName, rules, start, nameStop, (← input).stop⟩

/-- Reads the names of the columns of a key; orders and collations are not kept. -/
def keyColumns : Reader (List String) :=
  parenthesized <| commaList do
    let called ← name
    if ← keyword? "COLLATE" then let _ ← name
    let _ ← token? fun t => t.isKeyword "ASC" || t.isKeyword "DESC"
    return called

/-- Reads one rule of a table. -/
def tableRule : Reader TableRule := do
  let label ← constraintName?
  if ← keyword? "PRIMARY" then
    keyword "KEY"
    let columns ← keyColumns
    return .primaryKey columns (← onConflict?)
  else if ← keyword? "UNIQUE" then
    let columns ← keyColumns
    return .unique columns (← onConflict?)
  else if ← keyword? "CHECK" then
    let (text, e) ← checkCondition
    let _ ← onConflict?
    return .check (label.getD text) e
  else if ← keyword? "FOREIGN" then
    keyword "KEY"
    let _ ← parenthesized (commaList name)
    keyword "REFERENCES"
    references
    return .other
  else unexpected

/-- Reads the columns and the rules of a table, without the parentheses. Rules follow the columns;
a comma between two rules may be missing. -/
def tableBody : Nat → Bool → TableDef → Reader TableDef
  | 0, _, _ => throw .tooDeep
  | fuel + 1, inRules, d => do
    let t ← peek?
    let isRule := t.any fun t =>
      ["CONSTRAINT", "PRIMARY", "UNIQUE", "CHECK", "FOREIGN"].any t.isKeyword
    if isRule then
      let rule ← tableRule
      let d := { d with rules := d.rules ++ [rule] }
      if ← mark? "," then tableBody fuel true d
      else if ← atMark ")" then return d
      else tableBody fuel true d
    else if inRules then unexpected
    else
      let c ← columnDef
      let d := { d with columns := d.columns ++ [c], columnsStop := ← offset }
      if ← mark? "," then tableBody fuel false d else return d

/-- Reads the definition of a table in parentheses. -/
def tableDef : Reader TableDef := do
  mark "("
  let d ← tableBody (← fuel) false ⟨[], [], 0⟩
  mark ")"
  return d

/-- Reads `IF EXISTS`, or with `NOT` between the two words. -/
def ifExists? (negated : Bool) : Reader Bool := do
  if ← keyword? "IF" then
    if negated then keyword "NOT"
    keyword "EXISTS"
    return true
  else return false

/-- Reads the rest of `ALTER TABLE`. -/
def alterTable : Reader Command := do
  let table ← tableName
  if ← keyword? "RENAME" then
    if ← keyword? "TO" then return .renameTable table (← name)
    let _ ← keyword? "COLUMN"
    let column ← name
    keyword "TO"
    let start ← offset
    let newName ← name
    return .renameColumn table column (← slice start (← input).stop) newName
  else if ← keyword? "ADD" then
    let _ ← keyword? "COLUMN"
    let c ← columnDef
    return .addColumn table c (← slice c.start c.stop)
  else if ← keyword? "DROP" then
    let _ ← keyword? "COLUMN"
    return .dropColumn table (← name)
  else unexpected

/-- Reads the rest of an insertion, from `INTO` on. -/
def insertion (conflict : Option Conflict) : Reader Command := do
  keyword "INTO"
  let table ← tableName
  if ← keyword? "AS" then let _ ← name
  let columns ← nameList?
  if ← keyword? "DEFAULT" then
    keyword "VALUES"
    return .insert conflict table columns none
  return .insert conflict table columns (some (← fullQuery))

/-- Reads the word `TRANSACTION` and a name, if there. -/
def transactionWords : Reader Unit := do
  if ← keyword? "TRANSACTION" then let _ ← token? (·.isName)

/-- Reads a command. -/
def command : Reader Command := do
  let t ← peek?
  let is (k : String) : Bool := t.any (·.isKeyword k)
  let take : Reader Unit := do let _ ← token fun _ => true
  if is "SELECT" || is "VALUES" || is "WITH" then return .query (← fullQuery)
  else if is "INSERT" then
    take
    insertion (← orConflict?)
  else if is "REPLACE" then
    take
    insertion (some .replace)
  else if is "UPDATE" then
    take
    let conflict ← orConflict?
    let table ← tableName
    keyword "SET"
    let sets ← commaList do
      let column ← name
      mark "="
      return (column, ← fullExpr)
    return .update conflict table sets (← clause? "WHERE")
  else if is "DELETE" then
    take
    keyword "FROM"
    let table ← tableName
    return .delete table (← clause? "WHERE")
  else if is "CREATE" then
    take
    keyword "TABLE"
    let ifAbsent ← ifExists? true
    let (table, start) ← tableNameAt
    let definition ← tableDef
    return .createTable ifAbsent table definition (← slice start (← input).stop)
  else if is "DROP" then
    take
    keyword "TABLE"
    let ifPresent ← ifExists? false
    return .dropTable ifPresent (← tableName)
  else if is "ALTER" then
    take
    keyword "TABLE"
    alterTable
  else if is "BEGIN" then
    take
    let mode : BeginMode ←
      if ← keyword? "IMMEDIATE" then pure .immediate
      else if ← keyword? "EXCLUSIVE" then pure .exclusive
      else do
        let _ ← keyword? "DEFERRED"
        pure .deferred
    transactionWords
    return .begin mode
  else if is "COMMIT" || is "END" then
    take
    transactionWords
    return .commit
  else if is "ROLLBACK" then
    take
    transactionWords
    if ← keyword? "TO" then
      let _ ← keyword? "SAVEPOINT"
      return .rollbackTo (← name)
    return .rollback
  else if is "SAVEPOINT" then
    take
    return .savepoint (← name)
  else if is "RELEASE" then
    take
    let _ ← keyword? "SAVEPOINT"
    return .release (← name)
  else if is "PRAGMA" then
    take
    let called ← tableName
    let value : Reader String := do
      let sign ← token? fun t => t.isMark "-" || t.isMark "+"
      let t ← token fun t => [TokenKind.integer, .float, .string].contains t.kind || t.isName
        || ["ON", "DELETE", "DEFAULT"].any t.isKeyword
      return String.ofList ((sign.map (·.text)).getD []) ++ t.content
    if ← mark? "=" then return .setting called.name (some (← value))
    if ← mark? "(" then
      let v ← value
      mark ")"
      return .setting called.name (some v)
    return .setting called.name none
  else unexpected

/-- What was read from the front of a text. -/
structure NextCommand where
  /-- The command, if the text holds one. -/
  command? : Option Command
  /-- The offset just after the command's semicolon, or the end of the text. -/
  stop : Nat
  /-- Whether the end of the text was reached. -/
  atEnd : Bool

/-- The input of a whole text. -/
def Input.ofText (cs : List Char) : Input :=
  ⟨(tokenize cs).filter (·.kind != .blank), 0, cs.length⟩

/-- Reads a command and the semicolon after it. -/
def commandAndEnd : Reader NextCommand := do
  let c ← command
  if ← mark? ";" then return ⟨some c, (← input).stop, false⟩
  if (← peek?).isSome then unexpected
  return ⟨some c, (← input).length, true⟩

/-- Reads the first command of a text. -/
def nextCommand (cs : List Char) : Except SyntaxError NextCommand :=
  let input := Input.ofText cs
  let tokens := input.tokens.dropWhile (·.isMark ";")
  if tokens.isEmpty then .ok ⟨none, cs.length, true⟩
  else (commandAndEnd cs { input with tokens := tokens }).map (·.1)

/-- The offset of the first blank, of the first character of no token, or of the end. -/
def firstPause (cs : List Char) : Nat :=
  (((tokenize cs).find? fun t => t.kind = .blank || t.kind = .illegal).map (·.start)).getD cs.length

/-- Whether reading the first command of a text comes past a pause. -/
def pausesInFirst (cs : List Char) : Bool :=
  match nextCommand cs with
  | .ok r => r.atEnd || firstPause cs < r.stop
  | .error (.unexpected t) => firstPause cs ≤ t.start
  | .error _ => true

end HostSql.Sql
