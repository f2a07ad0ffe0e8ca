import HostSql.Number.Binary64
import Mathlib.Order.Compare
import Mathlib.Order.Monotone.Basic

/-!
# The size of a double

The size of a finite double grows with its bits, so that the bits of a double can be compared, or
counted up and down, in place of the number. `unitsOf` is the size as a function of the magnitude
bits alone. It goes on above the largest finite double: infinity has a size as well, the next that a
wider exponent would give.

> `unitsOf_strictMono`: more bits, a larger double;
> `compare_order`: doubles are ordered by their bits as by their size.
-/

namespace HostSql

namespace Binary64

/-- The size in units of a double with the given magnitude bits. -/
def unitsOf (m : Nat) : Nat :=
  if m / powTwo 52 = 0 then m % powTwo 52
  else (m % powTwo 52 + powTwo 52) * powTwo (m / powTwo 52 - 1)

theorem units_eq (x : Binary64) : x.units = unitsOf x.magnitude := rfl

theorem unitsOf_strictMono : StrictMono unitsOf := by
  refine strictMono_nat_of_lt_succ fun m => ?_
  have hpos : 0 < powTwo 52 := by decide
  have hfraction : m % powTwo 52 < powTwo 52 := Nat.mod_lt m hpos
  have hm := Nat.div_add_mod m (powTwo 52)
  by_cases hcarry : m % powTwo 52 + 1 = powTwo 52
  · -- The fraction is full, so the field goes up by one.
    have hsucc : m + 1 = powTwo 52 * (m / powTwo 52 + 1) := by
      rw [Nat.mul_add, Nat.mul_one]
      omega
    have hdiv : (m + 1) / powTwo 52 = m / powTwo 52 + 1 := by
      rw [hsucc, Nat.mul_div_cancel_left _ hpos]
    have hmod : (m + 1) % powTwo 52 = 0 := by rw [hsucc, Nat.mul_mod_right]
    unfold unitsOf
    rw [hdiv, hmod, if_neg (Nat.succ_ne_zero _), Nat.zero_add, Nat.add_sub_cancel]
    split
    · next hfield => rw [hfield]; simpa using hfraction
    · next hfield =>
      obtain ⟨field, hfield⟩ := Nat.exists_eq_succ_of_ne_zero hfield
      rw [hfield, Nat.succ_sub_one, Nat.succ_eq_add_one,
        show powTwo (field + 1) = powTwo field * 2 from rfl, ← Nat.mul_assoc, Nat.mul_right_comm]
      exact Nat.mul_lt_mul_of_pos_right (by omega) (Nat.two_pow_pos field)
  · have hdiv : (m + 1) / powTwo 52 = m / powTwo 52 := by
      rw [Nat.div_eq_iff hpos, Nat.mul_comm]
      omega
    have hmod : (m + 1) % powTwo 52 = m % powTwo 52 + 1 := by
      have := Nat.div_add_mod (m + 1) (powTwo 52)
      rw [hdiv] at this
      omega
    unfold unitsOf
    rw [hdiv, hmod]
    split
    · exact Nat.lt_succ_self _
    · exact Nat.mul_lt_mul_of_pos_right (by omega) (Nat.two_pow_pos _)

/-- The signed size that a key of the order stands for. -/
def unitsAt (z : Int) : Int := if z < 0 then -(unitsOf z.natAbs : Int) else unitsOf z.natAbs

theorem unitsAt_lt {y z : Int} (hlt : y < z) : unitsAt y < unitsAt z := by
  have hmono {m n : Nat} (h : m < n) : (unitsOf m : Int) < unitsOf n := by
    exact_mod_cast unitsOf_strictMono h
  unfold unitsAt
  by_cases hy : y < 0 <;> by_cases hz : z < 0
  · rw [if_pos hy, if_pos hz]
    have := hmono (m := z.natAbs) (n := y.natAbs) (by omega)
    omega
  · rw [if_pos hy, if_neg hz]
    have := hmono (m := 0) (n := y.natAbs) (by omega)
    omega
  · omega
  · rw [if_neg hy, if_neg hz]
    exact hmono (by omega)

theorem signedUnits_eq (x : Binary64) : x.signedUnits = unitsAt x.order := by
  unfold signedUnits order unitsAt
  rw [units_eq]
  have hzero : unitsOf 0 = 0 := rfl
  cases x.negative with
  | true =>
    rcases Nat.eq_zero_or_pos x.magnitude with h | h
    · simp [h, hzero]
    · simp [h]
  | false => simp

/-- Reals are ordered by their bits as by their size. -/
theorem compare_order (x y : Binary64) :
    compare x.order y.order = compare x.signedUnits y.signedUnits := by
  have hmono : StrictMono unitsAt := fun _ _ => unitsAt_lt
  rw [signedUnits_eq, signedUnits_eq]
  rw [← cmp_eq_compare, ← cmp_eq_compare, hmono.cmp_map_eq]

/-- Infinity is larger than every integer, or smaller. -/
theorem compare_infinite {y : Binary64} (h : y.isInfinite = true) (a : Int64) :
    compare (a.toInt * unitsPerOne) y.signedUnits = if y.negative then .gt else .lt := by
  have hbits : y.magnitude = infinityBits := by simpa [isInfinite] using h
  have hlarge : 2 ^ 63 * (unitsPerOne : Int) < unitsOf infinityBits := by decide +kernel
  have hone : (0 : Int) ≤ unitsPerOne := Int.natCast_nonneg _
  have hlow : -2 ^ 63 * (unitsPerOne : Int) ≤ a.toInt * unitsPerOne :=
    Int.mul_le_mul_of_nonneg_right (Int64.le_toInt a) hone
  have hhigh : a.toInt * (unitsPerOne : Int) ≤ 2 ^ 63 * unitsPerOne :=
    Int.mul_le_mul_of_nonneg_right (Int.le_of_lt (Int64.toInt_lt a)) hone
  unfold signedUnits
  rw [units_eq, hbits]
  cases y.negative with
  | true =>
    rw [Int.neg_mul] at hlow
    exact Int.compare_eq_gt.mpr (by simp only [if_true]; omega)
  | false => exact Int.compare_eq_lt.mpr (by simp only [Bool.false_eq_true, if_false]; omega)

end Binary64

end HostSql
