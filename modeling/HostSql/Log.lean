/-!
# Log records

What the library reports besides its results: a level and named texts, the wording among them under
the name `message`.
-/

namespace HostSql

/-- How serious a record is. -/
inductive LogLevel where
  | debug
  | warn
  | error
  deriving Repr, DecidableEq

def LogLevel.name : LogLevel → String
  | debug => "DEBUG"
  | warn => "WARN"
  | error => "ERROR"

/-- One report. -/
structure LogRecord where
  level : LogLevel
  fields : List (String × String)
  deriving Repr, DecidableEq

namespace LogRecord

/-- A record of a level with a wording and further fields. -/
def of (level : LogLevel) (message : String) (fields : List (String × String)) : LogRecord :=
  ⟨level, ("message", message) :: fields⟩

/-- The value of a field. -/
def field? (r : LogRecord) (name : String) : Option String := List.lookup name r.fields

end LogRecord

end HostSql
