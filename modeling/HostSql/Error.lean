import HostSql.Value

/-!
# Errors

Every engine result code belongs to one `ErrorKind` through a fixed table, indexed by the code's
low byte. All kinds share a root, which also stands for unknown codes and for failures that the
library finds by itself. An `Error` says what failed; `message` is its wording and `display` the
wording with the kind in front.
-/

namespace HostSql

/-- The code of errors that arise without the engine. -/
def bindingError : Int32 := -1

/-- The kind of an error. The order of the constructors is the order of the engine's primary result
codes; the first is the root. -/
inductive ErrorKind where
  | database
  | sql
  | internal
  | permissions
  | abort
  | busy
  | locked
  | outOfMemory
  | readOnly
  | interrupt
  | ioError
  | corrupt
  | notFound
  | full
  | cantOpen
  | protocol
  | empty
  | schemaChanged
  | tooBig
  | constraint
  | mismatch
  | misuse
  | unsupportedOsFeature
  | authorization
  | format
  | range
  | notADatabase
  deriving Repr, DecidableEq, Inhabited

namespace ErrorKind

/-- All kinds; a kind's position is its primary result code. -/
def all : List ErrorKind :=
  [.database, .sql, .internal, .permissions, .abort, .busy, .locked, .outOfMemory, .readOnly,
    .interrupt, .ioError, .corrupt, .notFound, .full, .cantOpen, .protocol, .empty, .schemaChanged,
    .tooBig, .constraint, .mismatch, .misuse, .unsupportedOsFeature, .authorization, .format,
    .range, .notADatabase]

/-- The kind of a result code. Extended codes count as their primary code; zero, negative and
unknown codes belong to the root. -/
def ofCode (code : Int32) : ErrorKind :=
  if code.toInt ≤ 0 then .database else (all[(code.toInt % 256).toNat]?).getD .database

/-- The primary result code of a kind; the root has none. -/
def code? (k : ErrorKind) : Option Int32 :=
  ((all.findIdx? (· == k)).filter (0 < ·)).map fun i => Int32.ofNat i

/-- Whether a code is a failure code of the table, as it stands. -/
def isKnownFailure (code : Int32) : Bool := 0 < code.toInt && code.toInt < all.length

/-- The name under which a kind is reported. -/
def name : ErrorKind → String
  | .database => "DatabaseException"
  | .sql => "SQLException"
  | .internal => "InternalException"
  | .permissions => "PermissionsException"
  | .abort => "AbortException"
  | .busy => "BusyException"
  | .locked => "LockedException"
  | .outOfMemory => "OutOfMemoryException"
  | .readOnly => "ReadOnlyException"
  | .interrupt => "InterruptException"
  | .ioError => "IOErrorException"
  | .corrupt => "CorruptException"
  | .notFound => "NotFoundException"
  | .full => "FullException"
  | .cantOpen => "CantOpenException"
  | .protocol => "ProtocolException"
  | .empty => "EmptyException"
  | .schemaChanged => "SchemaChangedException"
  | .tooBig => "TooBigException"
  | .constraint => "ConstraintException"
  | .mismatch => "MismatchException"
  | .misuse => "MisuseException"
  | .unsupportedOsFeature => "UnsupportedOSFeatureException"
  | .authorization => "AuthorizationException"
  | .format => "FormatException"
  | .range => "RangeException"
  | .notADatabase => "NotADatabaseException"

end ErrorKind

/-- The kind of object that a closed handle stood for. -/
inductive Handle where
  | database
  | statement
  deriving Repr, DecidableEq

def Handle.name : Handle → String
  | .database => "database"
  | .statement => "statement"

/-- Why an operation failed. -/
inductive Error where
  /-- A result code of the engine, with its message or one of the library's own. -/
  | engine (kind : ErrorKind) (code : Int32) (message : String)
  /-- The database could not be opened. -/
  | opening (code : Int32) (message : String)
  /-- An operation on a closed connection or a finalized statement. -/
  | closedHandle (handle : Handle)
  /-- A function result of a type that the engine cannot take. -/
  | badResultType (typeName : String)
  /-- A step ended with a status that has no meaning. -/
  | unknownStep (code : Int32)
  deriving Repr, DecidableEq

namespace Error

/-- The error of a result code. -/
def ofCode (code : Int32) (message : String) : Error := .engine (ErrorKind.ofCode code) code message

def kind : Error → ErrorKind
  | .engine kind _ _ => kind
  | .opening code _ => ErrorKind.ofCode code
  | .closedHandle _ | .badResultType _ | .unknownStep _ => .database

def code : Error → Int32
  | .engine _ code _ | .opening code _ => code
  | .closedHandle _ | .badResultType _ | .unknownStep _ => bindingError

/-- The message without the kind. -/
def message : Error → String
  | .engine _ _ message | .opening _ message => message
  | .closedHandle handle => "attempt to access a closed " ++ handle.name
  | .badResultType typeName => "bad type in set result (" ++ typeName ++ ")"
  | .unknownStep code => "[BUG] unknown result " ++ toString code.toInt ++ " from step"

/-- The message with what went wrong in front. -/
def display : Error → String
  | .engine kind _ message => kind.name ++ ": " ++ message
  | .opening _ message => "unable to open database: " ++ message
  | e => e.message

end Error

/-! The result codes that the library itself compares with or raises. -/

namespace ResultCode

def ok : Int32 := 0
def error : Int32 := 1
def busy : Int32 := 5
def misuse : Int32 := 21
def row : Int32 := 100
def done : Int32 := 101

end ResultCode

end HostSql
