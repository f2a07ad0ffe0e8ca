import HostSql.Sql.Grammar.Expr

/-!
# Reading queries

A query is a row of parts joined by `UNION` and its kin, with one order and one limit at its end.
-/

namespace HostSql.Sql

open Reader

/-- Reads the name given to a column or a table, with or without `AS`. -/
def label? : Reader (Option String) := do
  if ← keyword? "AS" then return some (← name)
  return (← token? (·.isBareAlias)).map (·.content)

/-- Reads a list of names in parentheses, if there is one. -/
def nameList? : Reader (Option (List String)) := do
  if ← atMark "(" then return some (← parenthesized (commaList name)) else return none

/-- Reads a table's name; the number is where the name without its database starts. -/
def tableNameAt : Reader (TableName × Nat) := do
  let start ← offset
  let first ← name
  if ← mark? "." then
    let start ← offset
    return (⟨some first, ← name⟩, start)
  return (⟨none, first⟩, start)

/-- Reads a table's name. -/
def tableName : Reader TableName := do return (← tableNameAt).1

/-- Reads an entry of the result. -/
def resultColumn : Reader ResultColumn := do
  if ← mark? "*" then return .all
  match (← input).tokens with
  | t :: dot :: star :: _ =>
    if t.isName && dot.isMark "." && star.isMark "*" then
      let table ← name
      mark "."
      mark "*"
      return .allOf table
  | _ => pure ()
  let start ← offset
  let e ← fullExpr
  let text ← trimmedSlice start (← offset)
  return .expr e (← label?) text

/-- Reads the keys of an order. -/
def orderTerms : Reader (List OrderTerm) :=
  commaList do
    let key ← fullExpr
    let descending ← if ← keyword? "DESC" then pure true else do
      let _ ← keyword? "ASC"
      pure false
    let nullsFirst ← if ← keyword? "NULLS" then
        if ← keyword? "FIRST" then pure (some true) else do
          keyword "LAST"
          pure (some false)
      else pure none
    return ⟨key, descending, nullsFirst⟩

/-- Both conditions. -/
def conjunction : Option Expr → Option Expr → Option Expr
  | some a, some b => some (.binary .and a b)
  | some a, none => some a
  | none, b => b

/-- Reads an expression after a keyword, if the keyword is there. -/
def clause? (k : String) : Reader (Option Expr) := do
  if ← keyword? k then return some (← fullExpr) else return none

/-- Reads rows of expressions. -/
def valueRows : Reader (List (List Expr)) :=
  commaList (parenthesized (commaList fullExpr))

/-- Reads the operator between two parts of a query, if there is one. -/
def compoundOp? : Reader (Option CompoundOp) := do
  if ← keyword? "UNION" then return some (if ← keyword? "ALL" then .unionAll else .union)
  if ← keyword? "INTERSECT" then return some .intersect
  if ← keyword? "EXCEPT" then return some .except
  return none

/-- Reads what stands between two joined tables, if anything. -/
def joinMark? : Reader Bool := do
  if ← mark? "," then return true
  let _ ← token? fun t => t.isKeyword "INNER" || t.isKeyword "CROSS"
  keyword? "JOIN"

mutual

/-- Reads a query. -/
def query : Nat → Reader Query
  | 0 => throw .tooDeep
  | fuel + 1 => do
    let named ← if ← keyword? "WITH" then do
        let _ ← keyword? "RECURSIVE"
        namedQueries fuel
      else pure []
    let (first, limited) ← core fuel
    let (rest, misplaced, order, limit, offset) ← parts fuel limited
    return .mk named first rest misplaced order limit offset

/-- Reads the named queries after `WITH`. -/
def namedQueries : Nat → Reader (List NamedQuery)
  | 0 => throw .tooDeep
  | fuel + 1 => do
    let called ← name
    let columns ← nameList?
    keyword "AS"
    if ← keyword? "NOT" then keyword "MATERIALIZED" else
      let _ ← keyword? "MATERIALIZED"
    mark "("
    let q ← query fuel
    mark ")"
    let one : NamedQuery := .mk called (columns.getD []) q
    if ← mark? "," then return one :: (← namedQueries fuel) else return [one]

/-- Reads one part of a query; the flag says whether an order and a limit may follow it. -/
def core : Nat → Reader (Core × Bool)
  | 0 => throw .tooDeep
  | fuel + 1 => do
    if ← keyword? "VALUES" then return (.values (← valueRows), false)
    keyword "SELECT"
    let distinct ← keyword? "DISTINCT"
    if !distinct then let _ ← keyword? "ALL"
    let columns ← commaList resultColumn
    let (sources, on) ← if ← keyword? "FROM" then sources fuel else pure ([], none)
    let condition ← clause? "WHERE"
    let groupBy ← if ← keyword? "GROUP" then do
        keyword "BY"
        commaList fullExpr
      else pure []
    let having ← clause? "HAVING"
    return (.select distinct columns sources (conjunction condition on) groupBy having, true)

/-- Reads the order, the limit and the further parts after a part. -/
def parts : Nat → Bool → Reader (List (CompoundOp × Core) × Option (String × CompoundOp)
      × List OrderTerm × Option Expr × Option Expr)
  | 0, _ => throw .tooDeep
  | fuel + 1, limited => do
    let order ← if limited && (← atKeyword "ORDER") then do
        keyword "ORDER"
        keyword "BY"
        orderTerms
      else pure []
    let (limit, offset) ← if limited && (← keyword? "LIMIT") then do
        let e ← fullExpr
        if ← keyword? "OFFSET" then pure (some e, some (← fullExpr))
        else if ← mark? "," then pure (some (← fullExpr), some e)
        else pure (some e, none)
      else pure (none, none)
    match ← compoundOp? with
    | none => return ([], none, order, limit, offset)
    | some op =>
      let here : Option (String × CompoundOp) :=
        if !order.isEmpty then some ("ORDER BY", op)
        else if limit.isSome then some ("LIMIT", op)
        else none
      let (next, limited) ← core fuel
      let (rest, misplaced, order, limit, offset) ← parts fuel limited
      return ((op, next) :: rest, here <|> misplaced, order, limit, offset)

/-- Reads the tables after `FROM` and the conditions that join them. -/
def sources : Nat → Reader (List Source × Option Expr)
  | 0 => throw .tooDeep
  | fuel + 1 => do
    let one ← source fuel
    let on ← clause? "ON"
    if ← joinMark? then
      let (rest, further) ← sources fuel
      return (one :: rest, conjunction on further)
    else return ([one], on)

/-- Reads a table or a query in parentheses. -/
def source : Nat → Reader Source
  | 0 => throw .tooDeep
  | fuel + 1 => do
    if ← mark? "(" then
      let q ← query fuel
      mark ")"
      return .query q (← label?)
    else
      let table ← tableName
      return .table table (← label?)

end

/-- Reads a query. -/
def fullQuery : Reader Query := do query (← fuel)

end HostSql.Sql
