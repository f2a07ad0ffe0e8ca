import HostSql.Host.Busy
import HostSql.OpenFlags

/-!
# What connections are made of

A `Native` is an engine as connections and statements use it, over any state: its connections and
statements are numbers, its failures a code with a message. It also keeps what the engine calls
back, the function records and busy policies, and takes log records. Nothing above it knows more
about the engine, so what is said about connections and statements holds for every engine.
-/

namespace HostSql

/-- A failure of the engine. -/
structure NativeFailure where
  code : Int32
  message : String
  deriving Repr, DecidableEq

/-- The error of a failure. -/
def NativeFailure.toError (f : NativeFailure) : Error := .ofCode f.code f.message

/-- A failure to open a connection. The engine may have made one all the same. -/
structure ConnectFailure extends NativeFailure where
  connection? : Option Nat
  deriving Repr, DecidableEq

/-- How a native step ended: its code and, if it failed, the engine's message. -/
structure NativeStatus where
  code : Int32
  message : String
  deriving Repr, DecidableEq

/-- An engine over a state. -/
structure Native (σ : Type) where
  connect : (path : String) → OpenFlags → StateM σ (Except ConnectFailure Nat)
  /-- Releases a connection. -/
  disconnect : (connection : Nat) → StateM σ (Option NativeFailure)
  isOpen : (connection : Nat) → StateM σ Bool
  /-- Compiles the first command of a text: the statement, if there is one, and how many bytes of
  the text were used. -/
  prepare : (connection : Nat) → (sql : String) → StateM σ (Except NativeFailure (Option Nat × Nat))
  execute : (connection : Nat) → (sql : String) → StateM σ (Option NativeFailure)
  changes : (connection : Nat) → StateM σ Int64
  lastInsertRowId : (connection : Nat) → StateM σ Int64
  interrupt : (connection : Nat) → StateM σ Unit
  setPolicy : (connection : Nat) → Option BusyPolicy → StateM σ Unit
  /-- Registers a function; the result is the number of its record, or a code. -/
  register : (connection : Nat) → FunctionRecord → StateM σ (Except Int32 Nat)
  declareType : (record : Nat) → ResultType → StateM σ Unit
  step : (statement : Nat) → StateM σ NativeStatus
  columnCount : (statement : Nat) → StateM σ Nat
  columnName : (statement column : Nat) → StateM σ String
  /-- The declared type of a column; expressions have none. -/
  columnType : (statement column : Nat) → StateM σ (Option String)
  /-- The current row's value in a column as text, `none` for NULL. -/
  columnText : (statement column : Nat) → StateM σ (Option String)
  /-- Releases a statement. -/
  finalize : (statement : Nat) → StateM σ (Option NativeFailure)
  log : LogRecord → StateM σ Unit

/-- A text that the engine takes must not hold a NUL; the result says where one is. -/
def nulError? (s : String) : Option String :=
  (Utf8.nulPosition? s).map fun n =>
    "nul byte found in provided data at position: " ++ toString n

end HostSql
