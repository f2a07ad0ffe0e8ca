import HostSql.Engine.World

/-!
# Looking up names

`Names` is what an expression may refer to: the columns of its sources, the labels of the result
and the functions of the connection. `resolve` turns an expression into a term and says which
affinity and collation it has. Calls of aggregates are collected on the way; each stands for a
column after those of the source row, and equal calls share one.
-/

namespace HostSql.Engine

open Sql

/-- A column that a name may refer to. Row numbers are columns that only their own names find. -/
structure SourceColumn where
  table : Option String
  name : String
  typeName : Option String
  affinity : Option Affinity
  collation : Collation
  position : Nat
  isNumber : Bool
  deriving Repr, Inhabited

/-- A term with what comparisons want to know about it. A collation is explicit if it was asked for
in the expression itself. -/
structure Typed where
  term : Term
  affinity : Option Affinity
  collation : Option (Bool × Collation)
  /-- The column that the term is, if it is nothing else. -/
  column : Option SourceColumn
  deriving Repr, Inhabited

/-- A term without any of these. -/
def Typed.plain (t : Term) : Typed := ⟨t, none, none, none⟩

/-- The collation of a term by itself. -/
def Typed.order (t : Typed) : Collation := (t.collation.map (·.2)).getD .binary

/-- What an expression may refer to. -/
structure Names where
  columns : List SourceColumn
  /-- The length of a source row. -/
  width : Nat
  labels : List (String × Typed)
  functions : List HostFunction
  deriving Inhabited

/-- The names by which a row number is known. -/
def numberNames : List String := ["rowid", "oid", "_rowid_"]

/-- A computation that collects aggregate calls. -/
abbrev Resolve := StateT (List AggregateCall) (Except Fault)

def refuse {α : Type} (message : String) : Resolve α := throw (.general message)

/-! ## Comparisons -/

/-- The affinity that both operands of a comparison take. -/
def comparisonAffinity : Option Affinity → Option Affinity → Option Affinity
  | some a, some b => some (if a.isNumeric || b.isNumeric then .numeric else .blob)
  | some a, none => some a
  | none, b => b

/-- How two terms are compared. An explicit collation wins, then the left operand's. -/
def compareRule (l r : Typed) : CompareRule where
  affinity := comparisonAffinity l.affinity r.affinity
  collation :=
    match l.collation, r.collation with
    | some (true, c), _ => c
    | _, some (true, c) => c
    | some (false, c), _ => c
    | none, some (false, c) => c
    | none, none => .binary

/-! ## Functions -/

/-- What a function's name and argument count lead to. -/
inductive Callee where
  | scalar (f : Scalar)
  | aggregate (f : Accumulating)
  | host (record : Nat)
  /-- The first argument that is not missing. -/
  | coalesce
  /-- The second or third argument by the truth of the first. -/
  | choose
  /-- The first argument. -/
  | identity
  deriving Repr, DecidableEq

/-- Functions that are not calls at all, with the argument counts they take. -/
def forms : List (String × Callee × Nat × Option Nat) :=
  [("coalesce", .coalesce, 2, none), ("ifnull", .coalesce, 2, some 2), ("iif", .choose, 3, some 3),
    ("likely", .identity, 1, some 1), ("unlikely", .identity, 1, some 1)]

/-- All built-in functions. -/
def builtins : List (String × Callee × Nat × Option Nat) :=
  forms
    ++ Scalar.table.map (fun (name, f, least, most) => (name, .scalar f, least, most))
    ++ Aggregate.table.map fun (name, f, least, most) =>
      (name, .aggregate (.builtin f), least, most)

/-- Whether an argument count is allowed. -/
def countAllowed (least : Nat) (most : Option Nat) (n : Nat) : Bool :=
  least ≤ n && most.all (n ≤ ·)

/-- The host function that a call selects: one of that many arguments before one of any number. -/
def hostFunction? (functions : List HostFunction) (name : String) (n : Nat) : Option HostFunction :=
  let named := functions.filter fun f => Text.sameName f.name name
  (named.find? fun f => f.arity == (n : Int)) <|> (named.find? (·.arity == -1))

/-- The function that a call selects. Host functions come before built-in ones. -/
def callee (functions : List HostFunction) (name : String) (n : Nat) : Except String Callee :=
  match hostFunction? functions name n with
  | some f => .ok (if f.isAggregate then .aggregate (.host f.record) else .host f.record)
  | none =>
    let named := builtins.filter fun b => Text.sameName b.1 name
    match named.find? fun b => countAllowed b.2.2.1 b.2.2.2 n with
    | some b => .ok b.2.1
    | none =>
      if !named.isEmpty || functions.any (Text.sameName ·.name name) then
        .error ("wrong number of arguments to function " ++ name ++ "()")
      else .error ("no such function: " ++ name)

/-! ## Columns -/

/-- The term of a column. -/
def SourceColumn.typed (c : SourceColumn) : Typed :=
  ⟨.column c.position, c.affinity, some (false, c.collation), some c⟩

/-- The columns that a name finds. -/
def findColumns (columns : List SourceColumn) (table : Option String) (name : String) :
    List SourceColumn :=
  let inTable := columns.filter fun c =>
    table.all fun t => c.table.any (Text.sameName · t)
  let named := inTable.filter fun c => !c.isNumber && Text.sameName c.name name
  if named.isEmpty && numberNames.any (Text.sameName · name) then inTable.filter (·.isNumber)
  else named

/-- Looks up a name that may belong to a table. -/
def findColumn (names : Names) (table : Option String) (name : String) :
    Resolve (Option Typed) := do
  match findColumns names.columns table name with
  | [c] => return some c.typed
  | [] => return none
  | _ => refuse ("ambiguous column name: " ++ (table.map (· ++ ".")).getD "" ++ name)

/-! ## Literals -/

/-- The value of decimal digits: a real if they do not fit an integer. -/
def integerLiteral (negative : Bool) (n : Nat) : Datum :=
  let i : Int := if negative then -n else n
  if Datum.fitsInteger i then .integer (Int64.ofInt i)
  else .real (Binary64.ofDecimal negative n 0)

/-- The value of hexadecimal digits, a pattern of 64 bits. The least integer has no negative. -/
def patternLiteral (negative : Bool) (mark : Char) (digits : List Char) : Except Fault Datum :=
  let n := digits.foldl (fun n c => 16 * n + hexDigitValue c) 0
  if n < powTwo 64 && !(negative && n == powTwo 63) then
    let i := (UInt64.ofNat n).toInt64
    .ok (.integer (if negative then -i else i))
  else
    .error (.general ("hex literal too big: " ++ (if negative then "-" else "")
      ++ String.ofList ('0' :: mark :: digits)))

/-- The value of a numeral with point or exponent. -/
def realLiteral (negative : Bool) (digits : List Char) : Datum :=
  let x := RealText.read digits
  Datum.ofReal (if negative then x.neg else x)

/-- The largest number of a parameter. -/
def maxParameter : Nat := 32766

/-- Checks a parameter's number. -/
def checkParameter (text : String) : Resolve Unit :=
  match text.toList with
  | '?' :: d :: ds =>
    let n := (d :: ds).foldl (fun n c => 10 * n + (c.toNat - 48)) 0
    if n = 0 ∨ maxParameter < n then
      refuse ("variable number must be between ?1 and ?" ++ toString maxParameter)
    else pure ()
  | _ => pure ()

/-! ## Expressions -/

/-- The arithmetic operator of a written one. -/
def arithmeticOf? : BinaryOp → Option Arithmetic
  | .add => some .add
  | .subtract => some .subtract
  | .multiply => some .multiply
  | .divide => some .divide
  | .remainder => some .remainder
  | .bitAnd => some .bitAnd
  | .bitOr => some .bitOr
  | .shiftLeft => some .shiftLeft
  | .shiftRight => some .shiftRight
  | .concat => some .concat
  | _ => none

/-- The comparison of a written one. -/
def comparisonOf? : BinaryOp → Option Comparison
  | .equal => some .equal
  | .notEqual => some .notEqual
  | .less => some .less
  | .lessEqual => some .lessEqual
  | .greater => some .greater
  | .greaterEqual => some .greaterEqual
  | _ => none

/-- The term of an operator between two terms. -/
def binaryTerm (op : BinaryOp) (l r : Typed) : Term :=
  match arithmeticOf? op, comparisonOf? op with
  | some a, _ => .arithmetic a l.term r.term
  | none, some c => .compare c (compareRule l r) l.term r.term
  | none, none =>
    match op with
    | .and => .and l.term r.term
    | .is => .same false (compareRule l r) l.term r.term
    | .isNot => .same true (compareRule l r) l.term r.term
    | _ => .or l.term r.term

/-- The term of an aggregate call: a new column, or that of an equal call. -/
def aggregateTerm (names : Names) (call : AggregateCall) : Resolve Term := do
  let calls ← get
  let equal (c : AggregateCall) : Bool :=
    c.target == call.target && c.args == call.args && c.distinct == call.distinct
  match calls.findIdx? equal with
  | some i => return .column (names.width + i)
  | none =>
    set (calls ++ [call])
    return .column (names.width + calls.length)

mutual

/-- The term of an expression. `aggregates` says whether aggregates may be called. -/
def resolve (names : Names) (aggregates : Bool) : Expr → Resolve Typed
  | .integer n => return .plain (.value (integerLiteral false n))
  | .pattern mark digits => return .plain (.value (← patternLiteral false mark digits))
  | .real digits => return .plain (.value (realLiteral false digits))
  | .string s => return .plain (.value (.ofString s))
  | .blob bytes => return .plain (.value (.blob bytes))
  | .null => return .plain (.value .null)
  | .parameter text => do
    checkParameter text
    return .plain (.value .null)
  | .name doubleQuoted s => do
    match ← findColumn names none s with
    | some t => return t
    | none =>
      match names.labels.find? fun l => Text.sameName l.1 s with
      | some (_, t) => return t
      | none =>
        if doubleQuoted then return .plain (.value (.ofString s))
        else if Text.sameName s "true" then return .plain (.value (.integer 1))
        else if Text.sameName s "false" then return .plain (.value (.integer 0))
        else refuse ("no such column: " ++ s)
  | .qualified table column => do
    match ← findColumn names (some table) column with
    | some t => return t
    | none => refuse ("no such column: " ++ table ++ "." ++ column)
  | .unary .negate (.integer n) => return .plain (.value (integerLiteral true n))
  | .unary .negate (.pattern mark digits) =>
    return .plain (.value (← patternLiteral true mark digits))
  | .unary .negate (.real digits) => return .plain (.value (realLiteral true digits))
  | .unary op e => do
    let t ← resolve names aggregates e
    match op with
    | .negate => return .plain (.negate t.term)
    | .plus => return { t with affinity := none, column := none }
    | .not => return .plain (.not t.term)
    | .bitNot => return .plain (.bitNot t.term)
  | .binary op l r => do
    let a ← resolve names aggregates l
    let b ← resolve names aggregates r
    return .plain (binaryTerm op a b)
  | .isNull e => do return .plain (.isNull (← resolve names aggregates e).term)
  | .between e low high => do
    let t ← resolve names aggregates e
    let l ← resolve names aggregates low
    let h ← resolve names aggregates high
    return .plain (.between (compareRule t l) (compareRule t h) t.term l.term h.term)
  | .among e items => do
    let t ← resolve names aggregates e
    let ts ← resolveAll names aggregates items
    return .plain (.among ⟨t.affinity, t.order⟩ t.term (ts.map (·.term)))
  | .choice hasOperand items => do
    let ts ← resolveAll names aggregates items
    match hasOperand, ts with
    | true, operand :: rest =>
      return .plain (.select (compareRule operand (rest.headD operand)) operand.term
        (rest.map (·.term)))
    | _, ts => return .plain (.choice (ts.map (·.term)))
  | .cast e typeName => do
    let t ← resolve names aggregates e
    let a := Affinity.ofTypeName typeName
    return ⟨.cast a t.term, some a, t.collation, none⟩
  | .collate e name => do
    let t ← resolve names aggregates e
    match Collation.ofName? name with
    | some c => return { t with collation := some (true, c), column := none }
    | none => refuse ("no such collation sequence: " ++ name)
  | .call name distinct args => do
    match callee names.functions name args.length with
    | .error message =>
      let _ ← resolveAll names aggregates args
      refuse message
    | .ok (.aggregate target) =>
      if !aggregates then
        let _ ← resolveAll names false args
        refuse ("misuse of aggregate function " ++ name ++ "()")
      let ts ← resolveAll names false args
      if distinct && ts.length != 1 then
        refuse "DISTINCT aggregates must have exactly one argument"
      return .plain (← aggregateTerm names ⟨target, ts.map (·.term), distinct⟩)
    | .ok f =>
      let ts := (← resolveAll names aggregates args).map (·.term)
      match f with
      | .scalar g => return .plain (.scalar g ts)
      | .host record => return .plain (.host record ts)
      | .coalesce => return .plain (.coalesce ts)
      | .choose => return .plain (.choice ts)
      | _ => return .plain (.coalesce (ts.take 1))
  | .callStar name => do
    match callee names.functions name 0 with
    | .error message => refuse message
    | .ok (.aggregate target) =>
      if !aggregates then refuse ("misuse of aggregate function " ++ name ++ "()")
      return .plain (← aggregateTerm names ⟨target, [], false⟩)
    | .ok (.scalar g) => return .plain (.scalar g [])
    | .ok (.host record) => return .plain (.host record [])
    | .ok _ => return .plain (.value .null)
  | .row _ => refuse "row value misused"

/-- The terms of several expressions. -/
def resolveAll (names : Names) (aggregates : Bool) : List Expr → Resolve (List Typed)
  | [] => return []
  | e :: es => do
    let t ← resolve names aggregates e
    return t :: (← resolveAll names aggregates es)

end

/-- The term of an expression in which no aggregate may be called. -/
def resolvePlain (names : Names) (e : Expr) : Except Fault Typed :=
  ((resolve names false e).run []).map (·.1)

end HostSql.Engine
