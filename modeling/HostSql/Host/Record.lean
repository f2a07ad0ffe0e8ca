import HostSql.Host.Program
import HostSql.Text.Fold

/-!
# Registered functions

A `FunctionRecord` is what a registration leaves behind: the name and arity it was made under, the
closures, the declared result type, and the groups that are under way. A connection's
`FunctionRegistry` says which record answers to a name and arity; letter case of ASCII letters
does not matter there.
-/

namespace HostSql

/-- A registered function. -/
structure FunctionRecord where
  name : String
  arity : Int32
  callbacks : Callbacks
  resultType : ResultType
  groups : GroupTable

namespace FunctionRecord

/-- A function that has just been registered keeps the types of its results. -/
def new (name : String) (arity : Int32) (callbacks : Callbacks) : FunctionRecord where
  name := name
  arity := arity
  callbacks := callbacks
  resultType := .args
  groups := .empty

/-- How a function is named in log records. -/
def signature (r : FunctionRecord) : String := r.name ++ "(" ++ toString r.arity.toInt ++ ")"

end FunctionRecord

/-- The records of a connection's functions, by folded name and arity. -/
abbrev FunctionRegistry := Assoc (String × Int32) Nat

namespace FunctionRegistry

/-- The name under which a function is found. -/
def key (name : String) : String := Text.foldCase name

/-- Notes a registration; it takes the place of an earlier one of the same name and arity. -/
def insert (r : FunctionRegistry) (name : String) (arity : Int32) (record : Nat) :
    FunctionRegistry :=
  r.set (key name, arity) record

/-- The records of all functions of a name, whatever their arity. -/
def named (r : FunctionRegistry) (name : String) : List Nat :=
  (r.filter fun p => p.1.1 == key name).map (·.2)

end FunctionRegistry

end HostSql
