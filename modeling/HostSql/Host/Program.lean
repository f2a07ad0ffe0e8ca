import HostSql.Host.Event
import HostSql.ResultType

/-!
# Host closures

A closure that runs inside a statement is a `Program`: a tree of requests, each with what to do
after every possible answer, ending in an `Outcome`. Requests about the call itself set its result
or read its group; the others use connections by name, and may run statements that call host
functions in turn. Every path through a program is finite.
-/

namespace HostSql

/-- How a closure ends. -/
inductive Outcome where
  | ok
  | failed (error : Error)
  | panicked
  deriving Repr, DecidableEq, Inhabited

mutual

/-- A closure, applied to its arguments. -/
inductive Program where
  | finish (outcome : Outcome)
  | setResult (v : Value) (next : Except Error Value → Program)
  | setError (message : String) (next : Program)
  | readState (next : Except Error GroupState → Program)
  | insert (key : String) (v : Value) (next : Except Error Unit → Program)
  | readCount (next : Except Error Nat → Program)
  | readType (next : ResultType → Program)
  | emit (event : Event) (next : Program)
  | interrupt (handle : String) (next : Program)
  | execute (connection sql : String) (next : Except Error Unit → Program)
  | query (connection sql : String) (next : QueryAnswer → Program)
  | declare (connection name : String) (type : ResultType) (next : Except Error Unit → Program)
  | register (connection name : String) (arity : Int32) (callbacks : Callbacks)
      (next : Except Error Unit → Program)

/-- The closures of a function. Arguments arrive as texts, `none` for NULL. -/
inductive Callbacks where
  | scalar (body : List (Option String) → Program)
  | aggregate (step : List (Option String) → Program) (final : Program)

end

instance : Inhabited Program := ⟨.finish .ok⟩

/-- Whether the closures are those of an aggregate. -/
def Callbacks.isAggregate : Callbacks → Bool
  | scalar _ => false
  | aggregate _ _ => true

/-- A closure that is asked whether to wait for a locked resource. -/
inductive BusyProgram where
  | answer (retry : Bool)
  | panic
  | emit (event : Event) (next : BusyProgram)
  | execute (connection sql : String) (next : Except Error Unit → BusyProgram)

instance : Inhabited BusyProgram := ⟨.answer false⟩

end HostSql
