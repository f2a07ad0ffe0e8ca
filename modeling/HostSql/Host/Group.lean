import HostSql.Assoc
import HostSql.Value

/-!
# Groups of an aggregate

While an aggregate runs over a group of rows, the group's row count and its state live in the
function's `GroupTable` under an id that the engine keeps for the group. A group is taken out of
the table while its closure runs and put back afterwards, so calls that the closure causes for
other groups find the table free. Ids start at one and are never used twice.
-/

namespace HostSql

/-- What the closures of an aggregate keep between the rows of a group. -/
abbrev GroupState := Assoc String Value

/-- One group: how many rows it has had, and its state. -/
structure Group where
  rows : Nat
  state : GroupState
  deriving Repr, DecidableEq, Inhabited

/-- A group before its first row. -/
def Group.empty : Group := ⟨0, []⟩

/-- The group with one more row. -/
def Group.nextRow (g : Group) : Group := { g with rows := g.rows + 1 }

/-- The groups of an aggregate whose closures are not running at the moment. -/
structure GroupTable where
  lastId : Nat
  groups : Assoc Nat Group
  deriving Repr, DecidableEq, Inhabited

namespace GroupTable

def empty : GroupTable := ⟨0, []⟩

/-- Begins a group. -/
def allocate (t : GroupTable) : Nat × GroupTable :=
  (t.lastId + 1, ⟨t.lastId + 1, t.groups.set (t.lastId + 1) .empty⟩)

/-- Takes a group out of the table. An id without a group stands for one that has had no rows. -/
def take (t : GroupTable) (id : Nat) : Group × GroupTable :=
  ((t.groups.get? id).getD .empty, { t with groups := Assoc.erase t.groups id })

/-- Puts a group back. -/
def putBack (t : GroupTable) (id : Nat) (g : Group) : GroupTable :=
  { t with groups := t.groups.set id g }

end GroupTable

end HostSql
