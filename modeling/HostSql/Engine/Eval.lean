import HostSql.Engine.World

/-!
# Evaluating terms

A term is evaluated from left to right over one row. Host functions may do anything between two
evaluations, so evaluation runs in the world; all else here is a function on values. Operators on
numbers give nothing when an operand is nothing; integers that leave 64 bits become reals, and a
division by zero gives nothing.
-/

namespace HostSql.Engine

/-! ## Operators on values -/

namespace Arithmetic

/-- A result of integer arithmetic: the integer if it fits, else the real result. -/
def integerOr (n : Int) (x : Binary64) : Datum :=
  if Datum.fitsInteger n then .integer (Int64.ofInt n) else Datum.ofReal x

/-- The operators on reals; division by zero has no result. -/
def onReals (op : Arithmetic) (a b : Datum) : Datum :=
  let x := a.asReal
  let y := b.asReal
  match op with
  | add => Datum.ofReal (x.add y)
  | subtract => Datum.ofReal (x.sub y)
  | multiply => Datum.ofReal (x.mul y)
  | divide => if y.isZero then .null else Datum.ofReal (x.div y)
  | remainder =>
    let m := b.asInteger.toInt
    if m = 0 then .null else Datum.ofReal (Binary64.ofInt (a.asInteger.toInt.tmod m))
  | _ => .null

/-- The operators on integers. -/
def onIntegers (op : Arithmetic) (m n : Int64) : Datum :=
  let a := m.toInt
  let b := n.toInt
  let real := onReals op (.integer m) (.integer n)
  let orReal (k : Int) : Datum := if Datum.fitsInteger k then .integer (Int64.ofInt k) else real
  match op with
  | add => orReal (a + b)
  | subtract => orReal (a - b)
  | multiply => orReal (a * b)
  | divide => if b = 0 then .null else orReal (a.tdiv b)
  | remainder => if b = 0 then .null else .integer (Int64.ofInt (a.tmod b))
  | _ => .null

/-- Shifts to the left, or to the right by a negative amount. -/
def shift (n : Int64) (by' : Int) : Int64 :=
  if by' ≤ -64 then (if n < 0 then -1 else 0)
  else if 64 ≤ by' then 0
  else if 0 ≤ by' then n <<< Int64.ofInt by'
  else n >>> Int64.ofInt (-by')

/-- The value of an operator for two values. -/
def apply (op : Arithmetic) (a b : Datum) : Datum :=
  if a.isNull || b.isNull then .null
  else
    match op with
    | concat => .text (a.textBytes ++ b.textBytes)
    | bitAnd => .integer (a.asInteger &&& b.asInteger)
    | bitOr => .integer (a.asInteger ||| b.asInteger)
    | shiftLeft => .integer (shift a.asInteger b.asInteger.toInt)
    | shiftRight => .integer (shift a.asInteger (-b.asInteger.toInt))
    | op =>
      match a.number, b.number with
      | .integer m, .integer n => onIntegers op m n
      | x, y => onReals op x y

end Arithmetic

namespace CompareRule

/-- Both operands as the rule's affinity makes them. -/
def convert (rule : CompareRule) (a b : Datum) : Datum × Datum :=
  match rule.affinity with
  | some .text => (Affinity.apply .text a, Affinity.apply .text b)
  | some f =>
    if f.isNumeric then (number a, number b) else (a, b)
  | none => (a, b)
where
  /-- A text that is a numeral as its number. -/
  number : Datum → Datum
    | .text bytes => (Datum.wholeNumber? bytes).getD (.text bytes)
    | d => d

/-- The order of two operands. -/
def order (rule : CompareRule) (a b : Datum) : Ordering :=
  let (x, y) := rule.convert a b
  Datum.compare rule.collation x y

/-- The truth of a comparison; nothing leaves it open. -/
def compare (rule : CompareRule) (op : Comparison) (a b : Datum) : Option Bool :=
  if a.isNull || b.isNull then none else some (op.holds (rule.order a b))

end CompareRule

/-- Conjunction with an open truth. -/
def and? : Option Bool → Option Bool → Option Bool
  | some false, _ | _, some false => some false
  | some true, some true => some true
  | _, _ => none

/-- Disjunction with an open truth. -/
def or? : Option Bool → Option Bool → Option Bool
  | some true, _ | _, some true => some true
  | some false, some false => some false
  | _, _ => none

/-- Whether a value is among others; open if it equals none of them and nothing is among them. -/
def among? (rule : CompareRule) (d : Datum) (items : List Datum) : Option Bool :=
  if items.isEmpty then some false
  else items.foldl (fun found item => or? found (rule.compare .equal d item)) (some false)

/-! ## Evaluation -/

/-- Where a term is evaluated: the connection and the statement, and the host that serves them. -/
structure Scope (H : Type) where
  connection : Nat
  statement : Nat
  hooks : Hooks H

variable {H : Type}

/-- The result of a call of a host function on a row. -/
def callHost (scope : Scope H) (record : Nat) (args : List Datum) : Run H Datum := do
  let reply ← scope.hooks.call record none args
  match reply.result with
  | .ok d => return d
  | .error message => throw (.general message)

mutual

/-- The value of a term for a row. -/
def Term.eval (scope : Scope H) (row : Row) : Term → Run H Datum
  | .value d => return d
  | .column i => return row.getD i .null
  | .negate e => do return Arithmetic.apply .subtract (.integer 0) (← e.eval scope row)
  | .bitNot e => do
    let d ← e.eval scope row
    return if d.isNull then .null else .integer (~~~d.asInteger)
  | .not e => do return .ofTruth? ((← e.eval scope row).truth?.map fun b => !b)
  | .isNull e => do return .ofBool (← e.eval scope row).isNull
  | .and l r => do
    let a ← l.eval scope row
    let b ← r.eval scope row
    return .ofTruth? (and? a.truth? b.truth?)
  | .or l r => do
    let a ← l.eval scope row
    let b ← r.eval scope row
    return .ofTruth? (or? a.truth? b.truth?)
  | .arithmetic op l r => do
    let a ← l.eval scope row
    let b ← r.eval scope row
    return op.apply a b
  | .compare op rule l r => do
    let a ← l.eval scope row
    let b ← r.eval scope row
    return .ofTruth? (rule.compare op a b)
  | .same negated rule l r => do
    let a ← l.eval scope row
    let b ← r.eval scope row
    return .ofBool ((rule.order a b == .eq) != negated)
  | .between low high e l h => do
    let d ← e.eval scope row
    let a ← l.eval scope row
    let b ← h.eval scope row
    return .ofTruth? (and? (low.compare .greaterEqual d a) (high.compare .lessEqual d b))
  | .among rule e items => do
    let d ← e.eval scope row
    return .ofTruth? (among? rule d (← Term.evalAll scope row items))
  | .choice items => Term.evalChoice scope row items
  | .select rule operand items => do
    Term.evalSelect scope row rule (← operand.eval scope row) items
  | .coalesce items => Term.evalFirst scope row items
  | .cast a e => do return a.cast (← e.eval scope row)
  | .scalar f args => do
    let ds ← Term.evalAll scope row args
    match f.eval (← connectionOf scope.connection).counters ds with
    | .ok d => return d
    | .error message => throw (.general message)
  | .host record args => do callHost scope record (← Term.evalAll scope row args)

/-- The values of several terms. -/
def Term.evalAll (scope : Scope H) (row : Row) : List Term → Run H (List Datum)
  | [] => return []
  | t :: ts => do
    let d ← t.eval scope row
    return d :: (← Term.evalAll scope row ts)

/-- The value after the first condition that is true. -/
def Term.evalChoice (scope : Scope H) (row : Row) : List Term → Run H Datum
  | [] => return .null
  | [other] => other.eval scope row
  | c :: v :: rest => do
    if (← c.eval scope row).truth? = some true then v.eval scope row
    else Term.evalChoice scope row rest

/-- The value after the first term that equals the operand. -/
def Term.evalSelect (scope : Scope H) (row : Row) (rule : CompareRule) (operand : Datum) :
    List Term → Run H Datum
  | [] => return .null
  | [other] => other.eval scope row
  | c :: v :: rest => do
    if rule.compare .equal operand (← c.eval scope row) = some true then v.eval scope row
    else Term.evalSelect scope row rule operand rest

/-- The first value that is not missing. -/
def Term.evalFirst (scope : Scope H) (row : Row) : List Term → Run H Datum
  | [] => return .null
  | t :: ts => do
    let d ← t.eval scope row
    if d.isNull then Term.evalFirst scope row ts else return d

end

/-- Whether a condition is true of a row. As a condition, a conjunction ends at its first part that
is not true, and a disjunction at its first part that is. -/
def Term.isTrue (scope : Scope H) (row : Row) : Term → Run H Bool
  | .and l r => do if ← l.isTrue scope row then r.isTrue scope row else return false
  | .or l r => do if ← l.isTrue scope row then return true else r.isTrue scope row
  | t => do return (← t.eval scope row).truth? = some true

end HostSql.Engine
