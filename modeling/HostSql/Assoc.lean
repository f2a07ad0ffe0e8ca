/-!
# Association lists

A finite map as a list of pairs with distinct keys. `set` replaces a key's value where it stands or
adds the pair at the end, so entries keep the order in which their keys first came.
-/

namespace HostSql

/-- A finite map as a list of pairs. -/
abbrev Assoc (κ α : Type) := List (κ × α)

namespace Assoc

variable {κ α : Type} [BEq κ]

/-- The value of a key. -/
def get? (m : Assoc κ α) (k : κ) : Option α := List.lookup k m

/-- Gives a key a value. -/
def set (m : Assoc κ α) (k : κ) (a : α) : Assoc κ α :=
  match m with
  | [] => [(k, a)]
  | (j, b) :: rest => if j == k then (k, a) :: rest else (j, b) :: set rest k a

/-- Removes a key. -/
def erase (m : Assoc κ α) (k : κ) : Assoc κ α := m.filter fun p => !(p.1 == k)

/-- Changes the value of a key, if it has one. -/
def update (m : Assoc κ α) (k : κ) (f : α → α) : Assoc κ α :=
  m.map fun p => if p.1 == k then (p.1, f p.2) else p

end Assoc

end HostSql
