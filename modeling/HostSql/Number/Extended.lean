import HostSql.Number.Binary64

/-!
# Numbers with a 64-bit significand

The engine reads and prints its reals through intermediate results with a significand of 64 bits.
Each operation here is exact except for one rounding to that width, a half to the even neighbour.
The exponent is unbounded: the results that matter stay far inside any machine range.
-/

namespace HostSql

/-- `significand · 2^exponent`. -/
structure Extended where
  significand : Nat
  exponent : Int
  deriving Repr, DecidableEq

namespace Extended

/-- `num / den · 2^e` rounded to a significand of 64 bits. The quotient is first scaled so that its
integer part has 64 bits. -/
def round (num den : Nat) (e : Int) : Extended :=
  if num = 0 then ⟨0, 0⟩
  else
    let guess : Int := (Nat.log2 num : Int) - Nat.log2 den - 63
    let scaled (k : Int) : Nat × Nat :=
      if 0 ≤ k then (num, den * powTwo k.toNat) else (num * powTwo (-k).toNat, den)
    let k := if (scaled guess).1 / (scaled guess).2 < powTwo 63 then guess - 1 else guess
    ⟨Binary64.roundHalfEven (scaled k).1 (scaled k).2, e + k⟩

def ofNat (n : Nat) : Extended := round n 1 0

/-- The power of ten nearest to `10^k`. -/
def tenTo (k : Int) : Extended :=
  if 0 ≤ k then round (powTen k.toNat) 1 0 else round 1 (powTen (-k).toNat) 0

def mul (x y : Extended) : Extended :=
  round (x.significand * y.significand) 1 (x.exponent + y.exponent)

/-- The size of a finite double; exact, since a double has at most 53 significant bits. -/
def ofBinary64 (x : Binary64) : Extended := round x.units 1 (-1074)

/-- Whether `x` is at least `num / den`. -/
def atLeast (x : Extended) (num den : Nat) : Bool :=
  if 0 ≤ x.exponent then num ≤ x.significand * powTwo x.exponent.toNat * den
  else num * powTwo (-x.exponent).toNat ≤ x.significand * den

/-- The integer part. -/
def floor (x : Extended) : Nat :=
  if 0 ≤ x.exponent then x.significand * powTwo x.exponent.toNat
  else x.significand / powTwo (-x.exponent).toNat

/-- The nearest double with the given sign. -/
def toBinary64 (neg : Bool) (x : Extended) : Binary64 :=
  if 2000 < x.exponent then Binary64.infinity neg
  else if x.exponent < -4000 then Binary64.zero neg
  else if 0 ≤ x.exponent then Binary64.nearest neg (x.significand * powTwo x.exponent.toNat) 1
  else Binary64.nearest neg x.significand (powTwo (-x.exponent).toNat)

/-- `x` times `10^step`, as often as `count` says. -/
def scaleBy (step : Int) : Nat → Extended → Extended
  | 0, x => x
  | count + 1, x => scaleBy step count (x.mul (tenTo step))

end Extended

end HostSql
