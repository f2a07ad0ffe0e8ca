/-!
# Powers of the two bases

Binary numbers are scaled by powers of two, decimal ones by powers of ten.
-/

namespace HostSql

abbrev powTwo (n : Nat) : Nat := Nat.pow 2 n

abbrev powTen (n : Nat) : Nat := Nat.pow 10 n

end HostSql
