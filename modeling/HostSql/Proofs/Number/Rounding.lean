import HostSql.Proofs.Number.Size
import Mathlib.Algebra.Order.Field.Power
import Mathlib.Data.Rat.Cast.Order
import Mathlib.Tactic.FieldSimp
import Mathlib.Tactic.Linarith
import Mathlib.Tactic.NormNum
import Mathlib.Tactic.Positivity
import Mathlib.Tactic.Ring

/-!
# Rounding is to the nearest

`magnitudeOfUnits` divides once, on the grid of doubles around the quotient, and rounds to the
nearest whole number there. This file shows that what it finds is the double nearest to the quotient
among all of them, the even one of two that are equally near:

> `exists_nearestUnits`: with an exponent of any width, the bits found are the nearest;
> `NearestUnits.finite_iff`: they stay below infinity exactly for numbers below `2¹⁰²⁴ - 2⁹⁷⁰`;
> `NearestUnits.unique`: there is only one nearest.

Three facts carry this: what `roundHalfEven` does to a fraction (`roundHalfEven_nearest`), where the
doubles lie (`unitsOf_grid`: on the grid, or below all of its doubles), and that the rounded number of
grid steps is the significand of the bits found (`unitsOf_significand`).

`ofDecimal` is then read off: it is the double nearest to the decimal (`ofDecimal_rounds`), and it
is the same for two spellings of one number (`ofDecimal_congr`).
-/

namespace HostSql.Binary64

/-! ## Rounding a fraction -/

/-- A rounded fraction is off by a half at most, and is even if it is off by a half. -/
theorem roundHalfEven_error (n d : Nat) (hd : 0 < d) :
    |(roundHalfEven n d : ℚ) - n / d| ≤ 1 / 2 ∧
      (|(roundHalfEven n d : ℚ) - n / d| = 1 / 2 → roundHalfEven n d % 2 = 0) := by
  have hpos : (0 : ℚ) < d := by exact_mod_cast hd
  have hsplit : (n : ℚ) / d = (n / d : Nat) + (n % d : Nat) / d := by
    rw [eq_comm, ← eq_sub_iff_add_eq', div_eq_iff hpos.ne', sub_mul, div_mul_cancel₀ _ hpos.ne']
    have := Nat.div_add_mod n d
    rw [eq_sub_iff_add_eq]
    exact_mod_cast (by rw [Nat.mul_comm] at this; omega)
  have hlow : (0 : ℚ) ≤ (n % d : Nat) / d := by positivity
  have hhigh : ((n % d : Nat) : ℚ) / d < 1 := by
    rw [div_lt_one hpos]
    exact_mod_cast Nat.mod_lt n hd
  rw [hsplit]
  unfold roundHalfEven
  simp only []
  split
  · next hbelow =>
    have hhalf : ((n % d : Nat) : ℚ) / d < 1 / 2 := by
      rw [div_lt_iff₀ hpos]
      have : (2 * (n % d : Nat) : ℚ) < d := by exact_mod_cast hbelow
      linarith
    rw [sub_add_cancel_left, abs_neg, abs_of_nonneg hlow]
    exact ⟨hhalf.le, fun h => absurd h hhalf.ne⟩
  · split
    · next habove =>
      have hhalf : 1 / 2 < ((n % d : Nat) : ℚ) / d := by
        rw [lt_div_iff₀ hpos]
        have : (d : ℚ) < 2 * (n % d : Nat) := by exact_mod_cast habove
        linarith
      have habs : |((n / d + 1 : Nat) : ℚ) - ((n / d : Nat) + (n % d : Nat) / d)| =
          1 - (n % d : Nat) / d := by
        rw [Nat.cast_succ, add_sub_add_left_eq_sub, abs_of_pos (by linarith)]
      rw [habs]
      exact ⟨by linarith, fun h => by linarith⟩
    · next hnotBelow hnotAbove =>
      have hhalf : ((n % d : Nat) : ℚ) / d = 1 / 2 := by
        rw [div_eq_div_iff hpos.ne' two_ne_zero]
        have : (2 * (n % d) : Nat) = d := by omega
        rw [one_mul, mul_comm]
        exact_mod_cast this
      rw [hhalf]
      -- The neighbour below is even or the one above is.
      rcases Nat.mod_two_eq_zero_or_one (n / d) with heven | hodd
      · rw [heven, Nat.add_zero, sub_add_cancel_left, abs_neg]
        exact ⟨le_of_eq (abs_of_pos (by norm_num)), fun _ => heven⟩
      · rw [hodd, Nat.cast_succ, add_sub_add_left_eq_sub]
        exact ⟨by norm_num, fun _ => by omega⟩

/-- A rounded fraction is the nearest whole number, the even one of two. -/
theorem roundHalfEven_nearest (n d k : Nat) (hd : 0 < d) :
    |(roundHalfEven n d : ℚ) - n / d| ≤ |(k : ℚ) - n / d| ∧
      (k ≠ roundHalfEven n d → |(k : ℚ) - n / d| = |(roundHalfEven n d : ℚ) - n / d| →
        roundHalfEven n d % 2 = 0) := by
  obtain ⟨herror, heven⟩ := roundHalfEven_error n d hd
  by_cases hsame : k = roundHalfEven n d
  · exact ⟨by rw [hsame], fun h => absurd hsame h⟩
  · -- Two whole numbers are a step apart, so one of them is off by a half.
    have hstep : (1 : ℚ) ≤ |(k : ℚ) - roundHalfEven n d| := by
      exact_mod_cast Int.one_le_abs (show (k : ℤ) - roundHalfEven n d ≠ 0 by omega)
    have htriangle : |(k : ℚ) - roundHalfEven n d| ≤
        |(k : ℚ) - n / d| + |(roundHalfEven n d : ℚ) - n / d| := by
      rw [abs_sub_comm (roundHalfEven n d : ℚ)]
      exact abs_sub_le _ _ _
    refine ⟨by linarith, fun _ hequal => heven ?_⟩
    linarith

theorem roundHalfEven_le {n d k : Nat} (hd : 0 < d) (h : n ≤ k * d) : roundHalfEven n d ≤ k := by
  have hquotient : (n : ℚ) / d ≤ k := by
    rw [div_le_iff₀ (by exact_mod_cast hd)]
    exact_mod_cast h
  obtain ⟨herror, -⟩ := roundHalfEven_error n d hd
  have hupper := (abs_le.mp herror).2
  have : (roundHalfEven n d : ℚ) < (k + 1 : Nat) := by
    push_cast
    linarith
  have : roundHalfEven n d < k + 1 := by exact_mod_cast this
  omega

theorem le_roundHalfEven {n d k : Nat} (hd : 0 < d) (h : k * d ≤ n) : k ≤ roundHalfEven n d := by
  have hquotient : (k : ℚ) ≤ n / d := by
    rw [le_div_iff₀ (by exact_mod_cast hd)]
    exact_mod_cast h
  obtain ⟨herror, -⟩ := roundHalfEven_error n d hd
  have hlower := (abs_le.mp herror).1
  have : (k : ℚ) < (roundHalfEven n d + 1 : Nat) := by
    push_cast
    linarith
  have : k < roundHalfEven n d + 1 := by exact_mod_cast this
  omega

/-! ## Where the doubles lie -/

/-- A double is on the grid of `2ˢ` units, or below the doubles whose own grid that is. -/
theorem unitsOf_grid (s m : Nat) : 2 ^ s ∣ unitsOf m ∨ unitsOf m < 2 ^ (52 + s) := by
  have hfraction : m % powTwo 52 < powTwo 52 := Nat.mod_lt m (Nat.two_pow_pos 52)
  unfold unitsOf
  split
  · right
    exact lt_of_lt_of_le hfraction (Nat.pow_le_pow_right (by omega) (by omega))
  · next hfield =>
    rcases le_or_gt s (m / powTwo 52 - 1) with hle | hlt
    · left
      exact Dvd.dvd.mul_left (pow_dvd_pow 2 hle) _
    · right
      calc (m % powTwo 52 + powTwo 52) * powTwo (m / powTwo 52 - 1)
          < (powTwo 52 + powTwo 52) * powTwo (m / powTwo 52 - 1) :=
            Nat.mul_lt_mul_of_pos_right (by omega) (Nat.two_pow_pos _)
        _ = 2 ^ (53 + (m / powTwo 52 - 1)) := by rw [pow_add]; rfl
        _ ≤ 2 ^ (52 + s) := Nat.pow_le_pow_right (by omega) (by omega)

/-- The bits found from a significand and a shift are those of a double of this size. A significand
of `2⁵³` carries into the exponent. -/
theorem unitsOf_significand {q s : Nat} (hq : q ≤ 2 ^ 53) (hs : s = 0 ∨ 2 ^ 52 ≤ q) :
    unitsOf (q + s * powTwo 52) = q * 2 ^ s := by
  have hone : powTwo 52 = 2 ^ 52 := rfl
  have hpos : 0 < 2 ^ 52 := Nat.two_pow_pos 52
  unfold unitsOf
  rw [hone, Nat.add_mul_div_right _ _ hpos, Nat.add_mul_mod_self_right]
  rcases Nat.lt_or_ge q (2 ^ 52) with hsmall | hlarge
  · have : s = 0 := by omega
    subst this
    rw [Nat.div_eq_of_lt hsmall, Nat.mod_eq_of_lt hsmall]
    simp
  · rcases Nat.lt_or_ge q (2 ^ 53) with hfits | hcarry
    · have hdiv : q / 2 ^ 52 = 1 := by omega
      have hmod : q % 2 ^ 52 + 2 ^ 52 = q := by omega
      rw [hdiv, hmod, if_neg (by omega), Nat.add_sub_cancel_left]
      rfl
    · have heq : q = 2 ^ 53 := by omega
      rw [heq]
      have hdiv : 2 ^ 53 / 2 ^ 52 = 2 := by norm_num
      have hmod : 2 ^ 53 % 2 ^ 52 = 0 := by norm_num
      rw [hdiv, hmod, if_neg (by omega), Nat.zero_add, show 2 + s - 1 = s + 1 by omega,
        show powTwo (s + 1) = 2 ^ s * 2 from pow_succ 2 s, Nat.mul_comm (2 ^ s), ← Nat.mul_assoc]
      norm_num

/-! ## The nearest double -/

/-- The bits `m` are those of the double nearest to `v` units, of two the even one, where the
exponent may be of any width. -/
structure NearestUnits (v : ℚ) (m : Nat) : Prop where
  nearest : ∀ k, |(unitsOf m : ℚ) - v| ≤ |(unitsOf k : ℚ) - v|
  even : ∀ k, k ≠ m → |(unitsOf k : ℚ) - v| = |(unitsOf m : ℚ) - v| → m % 2 = 0

namespace NearestUnits

variable {v : ℚ} {m : Nat}

theorem unique {n : Nat} (hm : NearestUnits v m) (hn : NearestUnits v n) : m = n := by
  have hequal : |(unitsOf m : ℚ) - v| = |(unitsOf n : ℚ) - v| :=
    le_antisymm (hm.nearest n) (hn.nearest m)
  -- Two even neighbours have a double between them, which would be nearer.
  have hbetween {a b : Nat} (ha : NearestUnits v a) (hb : NearestUnits v b)
      (hequal : |(unitsOf a : ℚ) - v| = |(unitsOf b : ℚ) - v|) : ¬ a < b := by
    intro hlt
    have hevenA := ha.even b (by omega) hequal.symm
    have hevenB := hb.even a (by omega) hequal
    have hleft : (unitsOf a : ℚ) < unitsOf (a + 1) := by
      exact_mod_cast unitsOf_strictMono (Nat.lt_succ_self a)
    have hright : (unitsOf (a + 1) : ℚ) < unitsOf b := by
      exact_mod_cast unitsOf_strictMono (show a + 1 < b by omega)
    have hmiddle : (unitsOf a : ℚ) - v = -((unitsOf b : ℚ) - v) := by
      rcases abs_eq_abs.mp hequal with h | h
      · linarith
      · exact h
    have hcloser : |(unitsOf (a + 1) : ℚ) - v| < |(unitsOf a : ℚ) - v| := by
      rw [abs_of_neg (show (unitsOf a : ℚ) - v < 0 by linarith), abs_lt]
      constructor <;> linarith
    exact absurd (ha.nearest (a + 1)) (not_le_of_gt hcloser)
  rcases lt_trichotomy m n with hlt | heq | hgt
  · exact absurd hlt (hbetween hm hn hequal)
  · exact heq
  · exact absurd hgt (hbetween hn hm hequal.symm)

/-- Nothing is nearer to a number below half a unit than zero. -/
theorem of_small (hv : 0 ≤ v) (hsmall : v < 1 / 2) : NearestUnits v 0 := by
  have hzero : unitsOf 0 = 0 := rfl
  have hfar {k : Nat} (hk : k ≠ 0) : |(unitsOf 0 : ℚ) - v| < |(unitsOf k : ℚ) - v| := by
    have hone : (1 : ℚ) ≤ unitsOf k := by
      exact_mod_cast Nat.lt_of_le_of_lt (Nat.zero_le _) (unitsOf_strictMono (Nat.pos_of_ne_zero hk))
    rw [hzero, Nat.cast_zero, zero_sub, abs_neg, abs_of_nonneg hv, abs_of_pos (by linarith)]
    linarith
  constructor
  · intro k
    by_cases hk : k = 0
    · rw [hk]
    · exact (hfar hk).le
  · intro k hk hequal
    exact absurd hequal (hfar hk).ne'

end NearestUnits

/-- The number of units from which on a number rounds to infinity: halfway between the largest
finite double and the one that a wider exponent would give next. -/
def overflowUnits : Nat := 2 ^ 2098 - 2 ^ 2044

theorem overflowUnits_halfway :
    unitsOf infinityBits + unitsOf (infinityBits - 1) = 2 * overflowUnits := by decide +kernel

/-- The bits of the nearest double are those of a finite one exactly for the numbers below the
limit. -/
theorem NearestUnits.finite_iff {v : ℚ} {m : Nat} (h : NearestUnits v m) :
    m < infinityBits ↔ v < overflowUnits := by
  have hhalfway : (unitsOf infinityBits : ℚ) + unitsOf (infinityBits - 1) = 2 * overflowUnits := by
    exact_mod_cast overflowUnits_halfway
  have hnext : (unitsOf (infinityBits - 1) : ℚ) < unitsOf infinityBits := by
    exact_mod_cast unitsOf_strictMono (show infinityBits - 1 < infinityBits by decide)
  constructor
  · intro hfinite
    have hlargest : (unitsOf m : ℚ) ≤ unitsOf (infinityBits - 1) := by
      exact_mod_cast unitsOf_strictMono.monotone (show m ≤ infinityBits - 1 by omega)
    by_contra hlimit
    have hleft : (unitsOf m : ℚ) - v < 0 := by linarith
    -- Infinity is as near at least; it is no nearer, and its bits are the even ones.
    have hnear := h.nearest infinityBits
    rw [abs_of_neg hleft] at hnear
    have hdistance : |(unitsOf infinityBits : ℚ) - v| ≤ -((unitsOf m : ℚ) - v) := by
      rw [abs_le]
      constructor <;> linarith
    have hequal : |(unitsOf infinityBits : ℚ) - v| = |(unitsOf m : ℚ) - v| := by
      rw [abs_of_neg hleft]
      exact le_antisymm hdistance hnear
    have hodd : m ≠ infinityBits - 1 := by
      intro heq
      have heven := h.even infinityBits (by omega) hequal
      rw [heq] at heven
      exact absurd heven (by decide)
    have hsecond : (unitsOf m : ℚ) < unitsOf (infinityBits - 1) := by
      exact_mod_cast unitsOf_strictMono (show m < infinityBits - 1 by omega)
    rcases abs_cases ((unitsOf infinityBits : ℚ) - v) with hcase | hcase <;> linarith
  · intro hlimit
    by_contra hinfinite
    have hlarge : (unitsOf infinityBits : ℚ) ≤ unitsOf m := by
      exact_mod_cast unitsOf_strictMono.monotone (Nat.le_of_not_lt hinfinite)
    have hnear := h.nearest (infinityBits - 1)
    rw [abs_of_pos (show (0 : ℚ) < unitsOf m - v by linarith)] at hnear
    rcases abs_cases ((unitsOf (infinityBits - 1) : ℚ) - v) with hcase | hcase <;> linarith

/-! ## What rounding finds -/

/-- The shift that brings the quotient to 53 bits leaves at least 52 bits before the leading one, if
it shifts at all. -/
theorem quotient_bounds (num : Nat) {den : Nat} (hden : 0 < den) :
    let s := Nat.log2 (num / den) - 52
    num ≤ 2 ^ 53 * (den * 2 ^ s) ∧ (s = 0 ∨ 2 ^ 52 * (den * 2 ^ s) ≤ num) := by
  intro s
  have habove : num < 2 ^ (Nat.log2 (num / den) + 1) * den :=
    (Nat.div_lt_iff_lt_mul hden).mp Nat.lt_log2_self
  constructor
  · have hpow : 2 ^ (Nat.log2 (num / den) + 1) ≤ 2 ^ 53 * 2 ^ s := by
      rw [← pow_add]
      exact Nat.pow_le_pow_right (by omega) (by omega)
    calc num ≤ 2 ^ (Nat.log2 (num / den) + 1) * den := habove.le
      _ ≤ 2 ^ 53 * 2 ^ s * den := Nat.mul_le_mul_right den hpow
      _ = 2 ^ 53 * (den * 2 ^ s) := by rw [Nat.mul_assoc, Nat.mul_comm (2 ^ s)]
  · rcases Nat.eq_zero_or_pos s with hzero | hpos
    · exact .inl hzero
    · right
      have hne : num / den ≠ 0 := by
        intro h
        have : s = 0 := by simp only [s, h]; rfl
        omega
      calc 2 ^ 52 * (den * 2 ^ s) = 2 ^ (52 + s) * den := by
            rw [pow_add, Nat.mul_assoc, Nat.mul_comm den]
        _ = 2 ^ Nat.log2 (num / den) * den := by
            rw [show 52 + s = Nat.log2 (num / den) by omega]
        _ ≤ num / den * den := Nat.mul_le_mul_right den (Nat.log2_self_le hne)
        _ ≤ num := Nat.div_mul_le_self num den

/-- Up to the bound of the exponent, rounding finds the nearest double. -/
theorem exists_nearestUnits (num den : Nat) (hden : 0 < den) :
    ∃ m, NearestUnits (num / den) m ∧ magnitudeOfUnits num den = min m infinityBits := by
  obtain ⟨hupper, hlower⟩ := quotient_bounds num hden
  generalize hs : Nat.log2 (num / den) - 52 = s at hupper hlower
  have hscale : 0 < den * 2 ^ s := Nat.mul_pos hden (Nat.two_pow_pos s)
  have hq : roundHalfEven num (den * 2 ^ s) ≤ 2 ^ 53 := roundHalfEven_le hscale hupper
  have hfull : s = 0 ∨ 2 ^ 52 ≤ roundHalfEven num (den * 2 ^ s) :=
    hlower.imp_right (le_roundHalfEven hscale)
  have hunits := unitsOf_significand hq hfull
  refine ⟨roundHalfEven num (den * 2 ^ s) + s * powTwo 52, ?_, by rw [magnitudeOfUnits, hs]; rfl⟩
  -- On the grid, distances are those of the whole numbers of steps.
  have hdistance (c : Nat) : |((c * 2 ^ s : Nat) : ℚ) - num / den| =
      2 ^ s * |(c : ℚ) - num / (den * 2 ^ s : Nat)| := by
    have hpos : (0 : ℚ) < 2 ^ s := by positivity
    have hd : (den : ℚ) ≠ 0 := by exact_mod_cast hden.ne'
    have hfactor : ((c * 2 ^ s : Nat) : ℚ) - num / den =
        2 ^ s * ((c : ℚ) - num / (den * 2 ^ s : Nat)) := by
      push_cast
      field_simp
    rw [hfactor, abs_mul, abs_of_pos hpos]
  have hgrid (c : Nat) := roundHalfEven_nearest num (den * 2 ^ s) c hscale
  generalize roundHalfEven num (den * 2 ^ s) = q at hunits hgrid hfull
  have hnearGrid (c : Nat) :
      |((q * 2 ^ s : Nat) : ℚ) - num / den| ≤ |((c * 2 ^ s : Nat) : ℚ) - num / den| := by
    rw [hdistance, hdistance]
    exact mul_le_mul_of_nonneg_left (hgrid c).1 (by positivity)
  -- A double below the grid is farther than the least double of the grid.
  have hnearBelow (k : Nat) (hoff : ¬ 2 ^ s ∣ unitsOf k) :
      |((q * 2 ^ s : Nat) : ℚ) - num / den| < |(unitsOf k : ℚ) - num / den| := by
    have hbelow : unitsOf k < 2 ^ 52 * 2 ^ s := by
      rw [← pow_add]
      exact (unitsOf_grid s k).resolve_left hoff
    have hbelow : (unitsOf k : ℚ) < (2 ^ 52 * 2 ^ s : Nat) := by exact_mod_cast hbelow
    have hshifted : s ≠ 0 := by
      intro h
      exact hoff (h ▸ one_dvd _)
    have hleast : ((2 ^ 52 * 2 ^ s : Nat) : ℚ) ≤ num / den := by
      rw [le_div_iff₀ (by exact_mod_cast hden)]
      have := hlower.resolve_left hshifted
      rw [Nat.mul_comm den, ← Nat.mul_assoc] at this
      exact_mod_cast this
    refine lt_of_le_of_lt (hnearGrid (2 ^ 52)) ?_
    generalize ((2 ^ 52 * 2 ^ s : Nat) : ℚ) = least at hbelow hleast ⊢
    rw [abs_of_nonpos (by linarith), abs_of_neg (by linarith)]
    linarith
  constructor
  · intro k
    rw [hunits]
    by_cases hon : 2 ^ s ∣ unitsOf k
    · obtain ⟨c, hc⟩ := hon
      rw [hc, Nat.mul_comm (2 ^ s)]
      exact hnearGrid c
    · exact (hnearBelow k hon).le
  · intro k hne hequal
    rw [hunits] at hequal
    by_cases hon : 2 ^ s ∣ unitsOf k
    · obtain ⟨c, hc⟩ := hon
      rw [Nat.mul_comm] at hc
      have hcq : c ≠ q := by
        intro h
        refine hne (unitsOf_strictMono.injective ?_)
        rw [hc, hunits, h]
      rw [hc, hdistance, hdistance] at hequal
      have heven := (hgrid c).2 hcq (mul_left_cancel₀ (by positivity) hequal)
      rw [show powTwo 52 = 2 * 2 ^ 51 from rfl, Nat.mul_left_comm, Nat.add_mul_mod_self_left]
      exact heven
    · exact absurd hequal (hnearBelow k hon).ne'

/-! ## Reading a decimal -/

/-- The size of a decimal in units. -/
def decimalUnits (d : Nat) (k : Int) : ℚ := d * (10 : ℚ) ^ k * unitsPerOne

theorem decimalUnits_of_nonneg (d : Nat) {k : Int} (hk : 0 ≤ k) :
    decimalUnits d k = (d * powTen k.toNat * unitsPerOne : Nat) / (1 : Nat) := by
  obtain ⟨n, rfl⟩ := Int.eq_ofNat_of_zero_le hk
  have hten : powTen n = 10 ^ n := rfl
  rw [decimalUnits, Int.toNat_natCast, zpow_natCast, hten]
  generalize unitsPerOne = one
  push_cast
  rw [div_one]

theorem decimalUnits_of_neg (d : Nat) {k : Int} (hk : k < 0) :
    decimalUnits d k = (d * unitsPerOne : Nat) / (powTen (-k).toNat : Nat) := by
  obtain ⟨n, hn⟩ := Int.eq_ofNat_of_zero_le (show 0 ≤ -k by omega)
  have hk : k = -(n : Int) := by omega
  have hten : powTen n = 10 ^ n := rfl
  rw [decimalUnits, hn, Int.toNat_natCast, hk, zpow_neg, zpow_natCast, hten]
  generalize unitsPerOne = one
  push_cast
  rw [mul_right_comm, div_eq_mul_inv]

theorem exists_nearest_decimal (d : Nat) (k : Int) :
    ∃ m, NearestUnits (decimalUnits d k) m ∧
      (0 ≤ k → magnitudeOf (d * powTen k.toNat) 1 = min m infinityBits) ∧
      (k < 0 → magnitudeOf d (powTen (-k).toNat) = min m infinityBits) := by
  rcases le_or_gt 0 k with hk | hk
  · obtain ⟨m, hm, hbits⟩ := exists_nearestUnits (d * powTen k.toNat * unitsPerOne) 1 Nat.one_pos
    rw [← decimalUnits_of_nonneg d hk] at hm
    exact ⟨m, hm, fun _ => hbits, fun h => absurd h (not_lt_of_ge hk)⟩
  · obtain ⟨m, hm, hbits⟩ := exists_nearestUnits (d * unitsPerOne) (powTen (-k).toNat)
      (Nat.pow_pos (by decide))
    rw [← decimalUnits_of_neg d hk] at hm
    exact ⟨m, hm, fun h => absurd h (not_le_of_gt hk), fun _ => hbits⟩

/-- A decimal with a digit and an exponent past 400 is past the limit. -/
theorem decimalUnits_large {d : Nat} {k : Int} (hd : d ≠ 0) (hk : 400 < k) :
    (overflowUnits : ℚ) ≤ decimalUnits d k := by
  have hlimit : overflowUnits ≤ 10 ^ 400 * unitsPerOne := by decide +kernel
  have hlimit : (overflowUnits : ℚ) ≤ (10 : ℚ) ^ (400 : Int) * unitsPerOne := by
    rw [show (400 : Int) = (400 : Nat) from rfl, zpow_natCast]
    exact_mod_cast hlimit
  have hone : (1 : ℚ) ≤ d := by exact_mod_cast Nat.pos_of_ne_zero hd
  have hpow : (10 : ℚ) ^ (400 : Int) ≤ 10 ^ k := zpow_le_zpow_right₀ (by norm_num) hk.le
  refine hlimit.trans (mul_le_mul_of_nonneg_right ?_ (Nat.cast_nonneg _))
  calc (10 : ℚ) ^ (400 : Int) ≤ 10 ^ k := hpow
    _ ≤ d * 10 ^ k := le_mul_of_one_le_left (by positivity) hone

/-- A decimal whose digits all stand past the four hundredth place is below half a unit. -/
theorem decimalUnits_small {d : Nat} {k : Int} (hk : k < -(400 + (Nat.log2 d + 1) : Int)) :
    decimalUnits d k < 1 / 2 := by
  have hunit : 2 * unitsPerOne < 10 ^ 400 := by decide +kernel
  have hunit : 2 * (unitsPerOne : ℚ) < 10 ^ (400 : Int) := by
    rw [show (400 : Int) = (400 : Nat) from rfl, zpow_natCast]
    exact_mod_cast hunit
  have hdigits : (d : ℚ) ≤ 10 ^ (Nat.log2 d + 1 : Int) := by
    have : d ≤ 10 ^ (Nat.log2 d + 1) :=
      (Nat.lt_log2_self).le.trans (Nat.pow_le_pow_left (by omega) _)
    rw [show (Nat.log2 d + 1 : Int) = (Nat.log2 d + 1 : Nat) from rfl, zpow_natCast]
    exact_mod_cast this
  have hvalue : (d : ℚ) * 10 ^ k ≤ 10 ^ (-400 : Int) := by
    calc (d : ℚ) * 10 ^ k ≤ 10 ^ (Nat.log2 d + 1 : Int) * 10 ^ k :=
          mul_le_mul_of_nonneg_right hdigits (by positivity)
      _ = 10 ^ ((Nat.log2 d + 1 : Int) + k) := (zpow_add₀ (by norm_num) _ _).symm
      _ ≤ 10 ^ (-400 : Int) := zpow_le_zpow_right₀ (by norm_num) (by omega)
  have hone : (0 : ℚ) ≤ unitsPerOne := Nat.cast_nonneg _
  have hcancel : (10 : ℚ) ^ (-400 : Int) * 10 ^ (400 : Int) = 1 := by
    rw [← zpow_add₀ (by norm_num)]
    rfl
  have hpos : (0 : ℚ) < 10 ^ (-400 : Int) := by positivity
  rw [decimalUnits]
  calc (d : ℚ) * 10 ^ k * unitsPerOne ≤ 10 ^ (-400 : Int) * unitsPerOne :=
        mul_le_mul_of_nonneg_right hvalue hone
    _ < 10 ^ (-400 : Int) * (10 ^ (400 : Int) / 2) :=
        mul_lt_mul_of_pos_left (by linarith) hpos
    _ = 1 / 2 := by rw [← mul_div_assoc, hcancel]

/-- A decimal is read as the nearest double, or as infinity. -/
theorem ofDecimal_nearest (neg : Bool) (d : Nat) (k : Int) :
    ∃ m, NearestUnits (decimalUnits d k) m ∧
      ofDecimal neg d k = ofMagnitude neg (min m infinityBits) := by
  obtain ⟨m, hm, hnonneg, hneg⟩ := exists_nearest_decimal d k
  have hvalue : 0 ≤ decimalUnits d k :=
    mul_nonneg (mul_nonneg (Nat.cast_nonneg _) (zpow_nonneg (by norm_num) _)) (Nat.cast_nonneg _)
  refine ⟨m, hm, ?_⟩
  unfold ofDecimal
  split
  · next hzero =>
    have : decimalUnits d k = 0 := by rw [decimalUnits, hzero, Nat.cast_zero, zero_mul, zero_mul]
    rw [hm.unique (.of_small hvalue (by rw [this]; norm_num))]
    rfl
  · next hd =>
    split
    · next hlarge =>
      have hinfinite : infinityBits ≤ m := by
        rw [← Nat.not_lt, hm.finite_iff, not_lt]
        exact decimalUnits_large hd hlarge
      rw [Nat.min_eq_right hinfinite]
      rfl
    · split
      · next hsmall =>
        rw [hm.unique (.of_small hvalue (decimalUnits_small hsmall))]
        rfl
      · split
        · next hk => rw [nearest, hnonneg hk]
        · next hk => rw [nearest, hneg (by omega)]

/-- Two spellings of one number are read alike. -/
theorem ofDecimal_congr (neg : Bool) {d e : Nat} {k l : Int}
    (h : (d : ℚ) * 10 ^ k = e * 10 ^ l) : ofDecimal neg d k = ofDecimal neg e l := by
  obtain ⟨m, hm, hd⟩ := ofDecimal_nearest neg d k
  obtain ⟨n, hn, he⟩ := ofDecimal_nearest neg e l
  have hunits : decimalUnits d k = decimalUnits e l := by rw [decimalUnits, h, decimalUnits]
  rw [hd, he, hm.unique (hunits ▸ hn)]

/-! ## The nearest finite double -/

section OfMagnitude

variable (neg : Bool) {m : Nat}

theorem ofMagnitude_toNat (hm : m < signBit) :
    (ofMagnitude neg m).bits.toNat = if neg then m + signBit else m := by
  have hbit : signBit = 2 ^ 63 := rfl
  unfold ofMagnitude
  rw [UInt64.toNat_ofNat']
  refine Nat.mod_eq_of_lt ?_
  split <;> omega

theorem magnitude_ofMagnitude (hm : m < signBit) : (ofMagnitude neg m).magnitude = m := by
  unfold magnitude
  rw [ofMagnitude_toNat neg hm]
  split
  · rw [Nat.add_mod_right, Nat.mod_eq_of_lt hm]
  · exact Nat.mod_eq_of_lt hm

theorem negative_ofMagnitude (hm : m < signBit) : (ofMagnitude neg m).negative = neg := by
  unfold negative
  rw [ofMagnitude_toNat neg hm]
  cases neg with
  | true => simp
  | false => simpa using hm

end OfMagnitude

theorem infinityBits_lt_signBit : infinityBits < signBit := by decide

/-- A double is its sign and its magnitude. -/
theorem ofMagnitude_self (x : Binary64) : ofMagnitude x.negative x.magnitude = x := by
  have hbit : signBit = 2 ^ 63 := rfl
  have hlt := x.bits.toNat_lt
  have hbits : UInt64.ofNat x.bits.toNat = x.bits := by simp
  unfold ofMagnitude negative magnitude
  rcases Nat.lt_or_ge x.bits.toNat signBit with hlow | hhigh
  · rw [Nat.mod_eq_of_lt hlow, decide_eq_false (by omega), if_neg (by simp), hbits]
  · have hmod : x.bits.toNat % signBit + signBit = x.bits.toNat := by
      rw [hbit] at hhigh ⊢
      omega
    rw [decide_eq_true hhigh, if_pos rfl, hmod, hbits]

/-- The number that a finite double stands for. -/
def toRat (x : Binary64) : ℚ := x.signedUnits / unitsPerOne

theorem unitsPerOne_pos : (0 : ℚ) < unitsPerOne := by
  have hpos : 0 < unitsPerOne := by decide +kernel
  exact Nat.cast_pos.mpr hpos

/-- The double `x` is the finite double nearest to `v`, and its bits are even if another one is as
near. -/
structure RoundsTo (v : ℚ) (x : Binary64) : Prop where
  finite : x.isFinite = true
  nearest : ∀ y : Binary64, y.isFinite = true → |x.toRat - v| ≤ |y.toRat - v|
  even : ∀ y : Binary64, y.isFinite = true → y.toRat ≠ x.toRat →
    |y.toRat - v| = |x.toRat - v| → x.magnitude % 2 = 0

theorem abs_toRat (x : Binary64) : |x.toRat| = unitsOf x.magnitude / unitsPerOne := by
  have hunits : |(x.signedUnits : ℚ)| = unitsOf x.magnitude := by
    unfold signedUnits
    rw [← units_eq]
    split <;> push_cast
    · rw [abs_neg, Nat.abs_cast]
    · exact Nat.abs_cast _
  rw [toRat, abs_div, hunits, abs_of_pos unitsPerOne_pos]

theorem toRat_nonpos {x : Binary64} (h : x.negative = true) : x.toRat ≤ 0 := by
  unfold toRat signedUnits
  rw [if_pos h]
  refine div_nonpos_of_nonpos_of_nonneg ?_ unitsPerOne_pos.le
  push_cast
  exact neg_nonpos.mpr (Nat.cast_nonneg _)

theorem toRat_nonneg {x : Binary64} (h : x.negative = false) : 0 ≤ x.toRat := by
  unfold toRat signedUnits
  rw [h, if_neg (by simp)]
  refine div_nonneg ?_ unitsPerOne_pos.le
  push_cast
  exact Nat.cast_nonneg _

/-- The distance of the sizes, in units. -/
theorem abs_size_sub (y : Binary64) (v : ℚ) :
    |(|y.toRat| - |v|)| = |(unitsOf y.magnitude : ℚ) - |v| * unitsPerOne| / unitsPerOne := by
  rw [abs_toRat, ← abs_of_pos unitsPerOne_pos, ← abs_div, abs_of_pos unitsPerOne_pos, sub_div,
    mul_div_cancel_right₀ _ unitsPerOne_pos.ne']

/-- The nearest size with the sign of the number is the nearest double. -/
theorem NearestUnits.roundsTo {v : ℚ} {m : Nat} {neg : Bool}
    (h : NearestUnits (|v| * unitsPerOne) m) (hfinite : m < infinityBits)
    (hneg : neg = true → v ≤ 0) (hpos : neg = false → 0 ≤ v) :
    RoundsTo v (ofMagnitude neg m) := by
  have hm : m < signBit := hfinite.trans infinityBits_lt_signBit
  have hbits := magnitude_ofMagnitude neg hm
  have hsign := negative_ofMagnitude neg hm
  generalize ofMagnitude neg m = x at hbits hsign
  have hone := unitsPerOne_pos
  -- With one sign, the distance is that of the sizes; with any signs it is no less.
  have hsame : |x.toRat - v| = |(|x.toRat| - |v|)| := by
    cases neg with
    | true =>
      rw [abs_of_nonpos (toRat_nonpos hsign), abs_of_nonpos (hneg rfl), neg_sub_neg, abs_sub_comm]
    | false => rw [abs_of_nonneg (toRat_nonneg hsign), abs_of_nonneg (hpos rfl)]
  have hsize : |x.toRat - v| = |(unitsOf m : ℚ) - |v| * unitsPerOne| / unitsPerOne := by
    rw [hsame, abs_size_sub, hbits]
  have hother (y : Binary64) :
      |(unitsOf y.magnitude : ℚ) - |v| * unitsPerOne| / unitsPerOne ≤ |y.toRat - v| := by
    rw [← abs_size_sub]
    exact abs_abs_sub_abs_le_abs_sub _ _
  have hnearest (y : Binary64) : |x.toRat - v| ≤ |y.toRat - v| := by
    rw [hsize]
    exact (div_le_div_of_nonneg_right (h.nearest y.magnitude) hone.le).trans (hother y)
  refine ⟨?_, fun y _ => hnearest y, ?_⟩
  · rw [isFinite, hbits]
    exact decide_eq_true hfinite
  · intro y _ hne hequal
    rw [hbits]
    by_cases hmagnitude : y.magnitude = m
    · -- The other double has the other sign, so both have size zero.
      exfalso
      have hsizes : |y.toRat| = |x.toRat| := by rw [abs_toRat, abs_toRat, hmagnitude, hbits]
      have hopposite : y.toRat = -x.toRat := (abs_eq_abs.mp hsizes).resolve_left hne
      have hzero : x.toRat = 0 ∨ v = 0 := by
        rw [hopposite] at hequal
        rcases abs_eq_abs.mp hequal with h | h
        · left
          linarith
        · right
          linarith
      have hx : x.toRat = 0 := by
        rcases hzero with hx | hv
        · exact hx
        · have := hnearest (ofMagnitude false 0)
          have hzero : |(ofMagnitude false 0).toRat| = 0 := by
            rw [abs_toRat, magnitude_ofMagnitude false (by decide), show unitsOf 0 = 0 from rfl,
              Nat.cast_zero, zero_div]
          rw [hv, sub_zero, sub_zero, hzero] at this
          exact abs_nonpos_iff.mp this
      exact hne (by rw [hopposite, hx, neg_zero])
    · refine h.even y.magnitude hmagnitude (le_antisymm ?_ (h.nearest _))
      have := hother y
      rw [hequal, hsize] at this
      exact (div_le_div_iff_of_pos_right hone).mp this

/-- From this size on, numbers round to infinity. -/
def overflowLimit : ℚ := 2 ^ 1024 - 2 ^ 970

theorem overflowLimit_mul : overflowLimit * unitsPerOne = overflowUnits := by
  have hpow : overflowUnits + 2 ^ 970 * unitsPerOne = 2 ^ 1024 * unitsPerOne := by decide +kernel
  have hcast := congrArg (Nat.cast : Nat → ℚ) hpow
  rw [Nat.cast_add, Nat.cast_mul, Nat.cast_mul, Nat.cast_pow, Nat.cast_pow, Nat.cast_ofNat] at hcast
  rw [overflowLimit, sub_mul, ← hcast, add_sub_cancel_right]

/-- A decimal is read as a double of its sign: as the nearest finite one if its size is below the
limit, and as infinity if it is not. -/
theorem ofDecimal_rounds (neg : Bool) (d : Nat) (k : Int) :
    let size : ℚ := d * 10 ^ k
    let x := ofDecimal neg d k
    x.negative = neg ∧ (x.isFinite = true ↔ size < overflowLimit) ∧
      (x.isFinite = true → RoundsTo (if neg then -size else size) x) := by
  intro size x
  obtain ⟨m, hm, hx⟩ := ofDecimal_nearest neg d k
  have hsize : 0 ≤ size := mul_nonneg (Nat.cast_nonneg _) (zpow_nonneg (by norm_num) _)
  have hbits : min m infinityBits < signBit :=
    (Nat.min_le_right _ _).trans_lt infinityBits_lt_signBit
  have hfinite : x.isFinite = true ↔ m < infinityBits := by
    simp only [x, isFinite, hx, magnitude_ofMagnitude neg hbits, decide_eq_true_eq]
    omega
  refine ⟨?_, ?_, ?_⟩
  · simp only [x, hx]
    exact negative_ofMagnitude neg hbits
  · rw [hfinite, hm.finite_iff, ← overflowLimit_mul]
    exact mul_lt_mul_iff_of_pos_right unitsPerOne_pos
  · intro h
    have hlt := hfinite.mp h
    have habs : |if neg then -size else size| = size := by
      split
      · rw [abs_neg, abs_of_nonneg hsize]
      · exact abs_of_nonneg hsize
    have hm : NearestUnits (|if neg then -size else size| * unitsPerOne) m := by
      rw [habs]
      exact hm
    simp only [x, hx, Nat.min_eq_left hlt.le]
    refine hm.roundsTo hlt ?_ ?_
    · intro hneg
      rw [if_pos hneg]
      exact neg_nonpos.mpr hsize
    · intro hpos
      rw [hpos, if_neg (by simp)]
      exact hsize

end HostSql.Binary64
