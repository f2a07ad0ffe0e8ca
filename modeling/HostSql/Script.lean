import HostSql.Host.Program

/-!
# Scripts for closures

A small language in which closures are written as data. A script is a list of instructions that
run in order; expressions read the arguments, the group or the declared type. An error of a
request ends the closure with that error, unless the instruction says what it reports instead.
`Script.program` gives a script its meaning as a program.
-/

namespace HostSql

/-- An expression of a script. -/
inductive ScriptExpr where
  | value (v : Value)
  | argument (position : Nat)
  | argumentCount
  | rowCount
  | state (key : String)
  | resultType
  /-- The texts of some values, one after the other. -/
  | joined (parts : List ScriptExpr)
  /-- The sum of two integers; other values count as zero. -/
  | sum (a b : ScriptExpr)
  /-- The length of a value's text in bytes. -/
  | length (e : ScriptExpr)
  /-- The characters of a value's text in order. -/
  | sorted (e : ScriptExpr)
  | orElse (e otherwise : ScriptExpr)
  deriving Repr, Inhabited

mutual

/-- An instruction of a script. -/
inductive Instruction where
  | set (e : ScriptExpr)
  /-- Sets a result and reports what that returned, be it an error. -/
  | trySet (e : ScriptExpr)
  | error (e : ScriptExpr)
  | put (key : String) (e : ScriptExpr)
  | log (e : ScriptExpr)
  | state
  | count
  | ifEqual (a b : ScriptExpr) (yes no : List Instruction)
  | return
  | fail (error : Error)
  | panic
  | interrupt (handle : String)
  | execute (connection sql : String)
  | query (connection sql : String)
  | declare (connection name : String) (type : ResultType)
  | register (connection name : String) (arity : Int32) (function : ScriptFunction)

/-- The scripts of a function. -/
inductive ScriptFunction where
  | scalar (body : List Instruction)
  | aggregate (step final : List Instruction)

end

instance : Inhabited Instruction := ⟨.return⟩

/-- A list of instructions. -/
abbrev Script := List Instruction

/-- Goes on with the value of a request that succeeded; otherwise the closure fails. -/
def Program.orFail {α : Type} (next : α → Program) : Except Error α → Program
  | .ok a => next a
  | .error e => .finish (.failed e)

/-- The sum of two values as integers. -/
def Value.plus (a b : Value) : Value := .integer (a.asInt?.getD 0 + b.asInt?.getD 0)

/-- The value of an optional text. -/
def Value.ofText? (s : Option String) : Value := Value.ofOption .text s

namespace ScriptExpr

mutual

/-- Evaluates an expression for a closure with the given arguments, and goes on with its value. -/
def eval (args : List (Option String)) : ScriptExpr → (Value → Program) → Program
  | value v, next => next v
  | argument position, next =>
    match args[position]? with
    | some arg => next (.ofText? arg)
    | none => .finish .panicked
  | argumentCount, next => next (.integer (Int64.ofNat args.length))
  | rowCount, next => .readCount (Program.orFail fun n => next (.integer (Int64.ofNat n)))
  | state key, next => .readState (Program.orFail fun s => next ((s.get? key).getD .null))
  | resultType, next => .readType fun t => next (.integer (Int64.ofInt t.code.toInt))
  | joined parts, next => evalTexts args parts fun texts => next (.text (String.join texts))
  | sum a b, next => a.eval args fun x => b.eval args fun y => next (x.plus y)
  | length e, next =>
    e.eval args fun v => next (.integer (Int64.ofNat (Utf8.encode v.display).length))
  | sorted e, next =>
    e.eval args fun v => next (.text (String.ofList (v.display.toList.mergeSort (· ≤ ·))))
  | orElse e otherwise, next =>
    e.eval args fun v => if v = .null then otherwise.eval args next else next v

/-- Evaluates expressions from left to right and goes on with their texts. -/
def evalTexts (args : List (Option String)) : List ScriptExpr → (List String → Program) → Program
  | [], next => next []
  | e :: rest, next =>
    e.eval args fun v => evalTexts args rest fun texts => next (v.display :: texts)

end

end ScriptExpr

mutual

/-- What an instruction does before the rest of its closure. -/
def Instruction.program (args : List (Option String)) : Instruction → Program → Program
  | .set e, rest => e.eval args fun v => .setResult v (Program.orFail fun _ => rest)
  | .trySet e, rest => e.eval args fun v => .setResult v fun r => .emit (.resultSet r) rest
  | .error e, rest =>
    e.eval args fun v => .setError v.display (.emit (.errorSet v.display) rest)
  | .put key e, rest => e.eval args fun v => .insert key v (Program.orFail fun _ => rest)
  | .log e, rest => e.eval args fun v => .emit (.logged v) rest
  | .state, rest => .readState fun r => .emit (.stateRead r) rest
  | .count, rest => .readCount fun r => .emit (.countRead r) rest
  | .ifEqual a b yes no, rest =>
    a.eval args fun x => b.eval args fun y =>
      if x.eq y then Script.thenDo args yes rest else Script.thenDo args no rest
  | .return, _ => .finish .ok
  | .fail e, _ => .finish (.failed e)
  | .panic, _ => .finish .panicked
  | .interrupt handle, rest => .interrupt handle rest
  | .execute connection sql, rest =>
    .execute connection sql fun r => .emit (.executed r) rest
  | .query connection sql, rest => .query connection sql fun r => .emit (.queried r) rest
  | .declare connection name type, rest =>
    .declare connection name type fun r => .emit (.declared r) rest
  | .register connection name arity function, rest =>
    .register connection name arity function.callbacks fun r => .emit (.registered r) rest

/-- What a script does before the rest of its closure. -/
def Script.thenDo (args : List (Option String)) : List Instruction → Program → Program
  | [], rest => rest
  | i :: is, rest => i.program args (Script.thenDo args is rest)

/-- The closures of scripts. The end of a group has no arguments. -/
def ScriptFunction.callbacks : ScriptFunction → Callbacks
  | .scalar body => .scalar fun args => Script.thenDo args body (.finish .ok)
  | .aggregate step final =>
    .aggregate (fun args => Script.thenDo args step (.finish .ok))
      (Script.thenDo [] final (.finish .ok))

end

/-- The closure of a script, applied to its arguments. -/
def Script.program (s : Script) (args : List (Option String)) : Program :=
  Script.thenDo args s (.finish .ok)

end HostSql
