import HostSql.Sql.Grammar.Reader
import HostSql.Sql.Command

/-!
# Reading expressions

Operators are grouped in levels; an expression of a level contains operators of that level and of
tighter ones, grouped from the left. Signs and `~` bind tightest, `NOT` looser than comparisons.
Each function takes fuel for the depth and length of what it reads, and every step of fuel but a few
per token reads a token.
-/

namespace HostSql.Sql

open Reader

/-- Levels of operators, from loose to tight. -/
def Level.or : Nat := 1
def Level.and : Nat := 2
def Level.not : Nat := 3
def Level.equality : Nat := 4
def Level.comparison : Nat := 5

/-- The operator that a token is, with its level. -/
def binaryOp? (t : Token) : Option (BinaryOp × Nat) :=
  match t.kind, String.ofList t.text with
  | .mark, "=" | .mark, "==" => some (.equal, 4)
  | .mark, "!=" | .mark, "<>" => some (.notEqual, 4)
  | .mark, "<" => some (.less, 5)
  | .mark, "<=" => some (.lessEqual, 5)
  | .mark, ">" => some (.greater, 5)
  | .mark, ">=" => some (.greaterEqual, 5)
  | .mark, "&" => some (.bitAnd, 7)
  | .mark, "|" => some (.bitOr, 7)
  | .mark, "<<" => some (.shiftLeft, 7)
  | .mark, ">>" => some (.shiftRight, 7)
  | .mark, "+" => some (.add, 8)
  | .mark, "-" => some (.subtract, 8)
  | .mark, "*" => some (.multiply, 9)
  | .mark, "/" => some (.divide, 9)
  | .mark, "%" => some (.remainder, 9)
  | .mark, "||" => some (.concat, 10)
  | .word, w =>
    if Text.sameName w "OR" then some (.or, Level.or)
    else if Text.sameName w "AND" then some (.and, Level.and)
    else none
  | _, _ => none

/-- The name of a table in a schema. Only tables of the main schema are known without it. -/
def inSchema (schema table : String) : String :=
  if Text.sameName schema "main" then table else schema ++ "." ++ table

/-- Whether a parameter is a number after `#`, which stands for nothing. -/
def isRegister : List Char → Bool
  | '#' :: c :: _ => c.isDigit
  | _ => false

/-- Words that are calls written between their arguments. -/
def isLikeWord (t : Token) : Bool :=
  t.keyword?.any fun k => ["LIKE", "GLOB", "REGEXP", "MATCH"].contains k

/-- The bytes of pairs of hexadecimal digits. -/
def hexBytes : List Char → List UInt8
  | a :: b :: rest => UInt8.ofNat (16 * hexDigitValue a + hexDigitValue b) :: hexBytes rest
  | _ => []

/-- The expression of an integer token. -/
def integerExpr (cs : List Char) : Expr :=
  match cs with
  | '0' :: x :: hex =>
    if x = 'x' ∨ x = 'X' then .pattern x hex
    else .integer (digitsOf cs)
  | _ => .integer (digitsOf cs)
where
  digitsOf (cs : List Char) : Nat := cs.foldl (fun n c => 10 * n + (c.toNat - 48)) 0

/-- The words of a type and the numbers in parentheses after it, as written. -/
def typeName? : Reader (Option String) := do
  let start ← offset
  let rec words : Nat → Nat → Reader Nat
    | 0, n => return n
    | fuel + 1, n => do
      match ← token? fun t => t.kind = .string || t.isBareAlias with
      | some _ => words fuel (n + 1)
      | none => return n
  if (← words (← input).tokens.length 0) = 0 then return none
  if ← mark? "(" then
    let number : Reader Unit := do
      let _ ← token? fun t => t.isMark "+" || t.isMark "-"
      let _ ← token fun t => t.kind = .integer || t.kind = .float
    number
    if ← mark? "," then number
    mark ")"
  return some (← trimmedSlice start (← input).stop)

mutual

/-- Reads an expression whose operators have at least the given level. -/
def expr (level : Nat) : Nat → Reader Expr
  | 0 => throw .tooDeep
  | fuel + 1 => do
    let left ← operand fuel
    operators level left fuel

/-- Reads operators and right operands after a left operand. -/
def operators (level : Nat) (left : Expr) : Nat → Reader Expr
  | 0 => throw .tooDeep
  | fuel + 1 => do
    match ← peekTwo with
    | (some t, next) =>
      match binaryOp? t with
      | some (op, l) =>
        if l < level then return left
        let _ ← token fun _ => true
        operators level (.binary op left (← expr (l + 1) fuel)) fuel
      | none =>
        if t.isKeyword "COLLATE" then
          let _ ← token fun _ => true
          operators level (.collate left (← name)) fuel
        else if Level.equality < level then return left
        else if t.isKeyword "IS" then
          let _ ← token fun _ => true
          let negated ← keyword? "NOT"
          let op : BinaryOp ←
            if ← keyword? "DISTINCT" then do
              keyword "FROM"
              pure (if negated then .is else .isNot)
            else pure (if negated then .isNot else .is)
          operators level (.binary op left (← expr Level.comparison fuel)) fuel
        else if t.isKeyword "ISNULL" then
          let _ ← token fun _ => true
          operators level (.isNull left) fuel
        else if t.isKeyword "NOTNULL" then
          let _ ← token fun _ => true
          operators level (.unary .not (.isNull left)) fuel
        else if t.isKeyword "NOT" && next.any (·.isKeyword "NULL") then
          let _ ← token fun _ => true
          let _ ← token fun _ => true
          operators level (.unary .not (.isNull left)) fuel
        else if t.isKeyword "NOT" then
          let _ ← token fun _ => true
          operators level (.unary .not (← membership left fuel)) fuel
        else if t.isKeyword "BETWEEN" || t.isKeyword "IN" || isLikeWord t then
          operators level (← membership left fuel) fuel
        else return left
    | (none, _) => return left

/-- Reads what follows the left operand of `BETWEEN`, `IN` and the words that are calls. -/
def membership (left : Expr) : Nat → Reader Expr
  | 0 => throw .tooDeep
  | fuel + 1 => do
    if ← keyword? "BETWEEN" then
      let low ← expr Level.not fuel
      keyword "AND"
      let high ← expr Level.comparison fuel
      return .between left low high
    else if ← keyword? "IN" then
      mark "("
      if ← mark? ")" then return .among left []
      let items ← exprList fuel
      mark ")"
      return .among left items
    else
      let t ← token isLikeWord
      let pattern ← expr Level.comparison fuel
      let escape ← if ← keyword? "ESCAPE" then do pure [← expr Level.comparison fuel] else pure []
      return .call (String.ofList t.text) false (pattern :: left :: escape)

/-- Reads expressions with commas between them. -/
def exprList : Nat → Reader (List Expr)
  | 0 => throw .tooDeep
  | fuel + 1 => do
    let e ← expr Level.or fuel
    if ← mark? "," then return e :: (← exprList fuel) else return [e]

/-- Reads the pairs of `WHEN` and `THEN`. -/
def arms : Nat → Reader (List Expr)
  | 0 => throw .tooDeep
  | fuel + 1 => do
    if ← keyword? "WHEN" then
      let c ← expr Level.or fuel
      keyword "THEN"
      let v ← expr Level.or fuel
      return c :: v :: (← arms fuel)
    else return []

/-- Reads an operand with the signs before it. -/
def operand : Nat → Reader Expr
  | 0 => throw .tooDeep
  | fuel + 1 => do
    let (some t, next) ← peekTwo | throw .incomplete
    let take : Reader Unit := do let _ ← token fun _ => true
    match t.kind with
    | .integer => take; return integerExpr t.text
    | .float => take; return .real t.text
    | .string => take; return .string t.content
    | .blob => take; return .blob (hexBytes (t.text.drop 2).dropLast)
    | .variable =>
      if isRegister t.text then unexpected else take; return .parameter (String.ofList t.text)
    | .mark =>
      if t.isMark "(" then
        take
        let items ← exprList fuel
        mark ")"
        match items with
        | [e] => return e
        | _ => return .row items
      else if t.isMark "-" then take; return .unary .negate (← operand fuel)
      else if t.isMark "+" then take; return .unary .plus (← operand fuel)
      else if t.isMark "~" then take; return .unary .bitNot (← operand fuel)
      else unexpected
    | .word | .quoted =>
      if t.isKeyword "NULL" then take; return .null
      else if t.isKeyword "NOT" then take; return .unary .not (← expr Level.equality fuel)
      else if t.isKeyword "CAST" then
        take
        mark "("
        let e ← expr Level.or fuel
        keyword "AS"
        let typeName ← typeName?
        mark ")"
        return .cast e (typeName.getD "")
      else if t.isKeyword "CASE" then
        take
        let base ← if ← atKeyword "WHEN" then pure [] else do pure [← expr Level.or fuel]
        if !(← atKeyword "WHEN") then unexpected
        let pairs ← arms fuel
        let other ← if ← keyword? "ELSE" then do pure [← expr Level.or fuel] else pure []
        keyword "END"
        return .choice (!base.isEmpty) (base ++ pairs ++ other)
      else if !t.isName then unexpected
      else if next.any (·.isMark "(") then
        take; take
        let called := t.content
        if ← mark? "*" then
          mark ")"
          return .callStar called
        let distinct ← keyword? "DISTINCT"
        if !distinct then let _ ← keyword? "ALL"
        if ← mark? ")" then return .call called distinct []
        let args ← exprList fuel
        mark ")"
        if maxArguments < args.length then throw (.tooManyArguments t.text)
        return .call called distinct args
      else if next.any (·.isMark ".") then
        take; take
        let second ← name
        if ← mark? "." then return .qualified (inSchema t.content second) (← name)
        return .qualified t.content second
      else
        take
        return .name (t.text.head? = some '"') t.content
    | .blank | .illegal => unexpected

end

/-- Fuel enough for the tokens that are left. -/
def fuel : Reader Nat := do return 6 * (← input).tokens.length + 20

/-- Reads an expression. -/
def fullExpr : Reader Expr := do expr Level.or (← fuel)

end HostSql.Sql
