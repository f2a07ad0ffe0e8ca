import HostSql.Error
import HostSql.Host.Group

/-!
# What closures report

Closures run in the middle of other work, so what they see is told through events, in the order in
which it happened. `QueryAnswer` is the outcome of a query as a whole, inside a closure or not.
-/

namespace HostSql

/-- The rows of a query as texts, with the names and declared types of its columns and the text
after its command. -/
structure QueryResult where
  rows : List (List (Option String))
  columns : List String
  types : List (Option String)
  remainder : String
  deriving Repr, DecidableEq

/-- The outcome of a query. -/
inductive QueryAnswer where
  | finished (result : QueryResult)
  /-- It could not be compiled. -/
  | rejected (error : Error)
  /-- It failed after some rows. -/
  | failed (error : Error) (rows : List (List (Option String)))
  deriving Repr, DecidableEq

/-- One thing that a closure reports. -/
inductive Event where
  | logged (v : Value)
  /-- What setting a result returned. -/
  | resultSet (answer : Except Error Value)
  /-- What setting an error returned. -/
  | errorSet (message : String)
  | stateRead (answer : Except Error GroupState)
  | countRead (answer : Except Error Nat)
  | executed (answer : Except Error Unit)
  | queried (answer : QueryAnswer)
  | declared (answer : Except Error Unit)
  | registered (answer : Except Error Unit)
  /-- A closure was asked whether to wait for a resource. -/
  | asked (resource : String) (attempt : UInt32)
  deriving Repr

end HostSql
