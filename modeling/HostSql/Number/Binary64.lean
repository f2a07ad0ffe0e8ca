import HostSql.Number.Power

/-!
# Double-precision numbers

A double is its 64 bits. Every finite double is a whole number of *units* of `2⁻¹⁰⁷⁴`, so
comparison and arithmetic are exact integer work followed by one rounding. `magnitudeOf num den`
is that rounding: the bits of the double nearest to `num / den`, ties to the even neighbour,
overflow to infinity. Arithmetic, the reading of numerals and the conversion of integers all go
through it.
-/

namespace HostSql

/-- A double-precision number. -/
structure Binary64 where
  bits : UInt64
  deriving Repr, DecidableEq, Inhabited

namespace Binary64

/-- The bits of positive infinity. -/
def infinityBits : Nat := 0x7FF0000000000000

/-- The sign bit. -/
def signBit : Nat := powTwo 63

/-- The bits below the sign. -/
def magnitude (x : Binary64) : Nat := x.bits.toNat % signBit

/-- Whether the sign bit is set. -/
def negative (x : Binary64) : Bool := signBit ≤ x.bits.toNat

/-- The double with the given sign and magnitude bits. -/
def ofMagnitude (neg : Bool) (m : Nat) : Binary64 :=
  ⟨UInt64.ofNat (if neg then m + signBit else m)⟩

def isNaN (x : Binary64) : Bool := infinityBits < x.magnitude

def isInfinite (x : Binary64) : Bool := x.magnitude == infinityBits

def isFinite (x : Binary64) : Bool := x.magnitude < infinityBits

def isZero (x : Binary64) : Bool := x.magnitude == 0

def nan : Binary64 := ⟨0x7FF8000000000000⟩

def infinity (neg : Bool) : Binary64 := ofMagnitude neg infinityBits

def zero (neg : Bool) : Binary64 := ofMagnitude neg 0

/-- The size of a finite double in units of `2⁻¹⁰⁷⁴`. The exponent field shifts a significand whose
leading one is implicit unless the field is zero. -/
def units (x : Binary64) : Nat :=
  let field := x.magnitude / powTwo 52
  let fraction := x.magnitude % powTwo 52
  if field = 0 then fraction else (fraction + powTwo 52) * powTwo (field - 1)

/-- How many units make one. -/
def unitsPerOne : Nat := powTwo 1074

/-- The signed size of a finite double in units. -/
def signedUnits (x : Binary64) : Int := if x.negative then -(x.units : Int) else x.units

/-- `n / d` rounded to the nearest integer, a half to the even neighbour. -/
def roundHalfEven (n d : Nat) : Nat :=
  let q := n / d
  let r := n % d
  if 2 * r < d then q else if d < 2 * r then q + 1 else q + q % 2

/-- The magnitude bits of the double nearest to `num / den` units. With at most 53 significant bits
the units themselves are the bits; each further bit raises the exponent field by one, and a
carry out of the significand lands in that field by itself. -/
def magnitudeOfUnits (num den : Nat) : Nat :=
  let shift := Nat.log2 (num / den) - 52
  min (roundHalfEven num (den * powTwo shift) + shift * powTwo 52) infinityBits

/-- The magnitude bits of the double nearest to `num / den`. -/
def magnitudeOf (num den : Nat) : Nat := magnitudeOfUnits (num * unitsPerOne) den

/-- The double nearest to `± num / den`, ties to even, overflow to infinity. -/
def nearest (neg : Bool) (num den : Nat) : Binary64 := ofMagnitude neg (magnitudeOf num den)

/-- The double nearest to an integer. -/
def ofInt (n : Int) : Binary64 := nearest (n < 0) n.natAbs 1

/-- The double nearest to `± d · 10ᵏ`. Exponents that leave the range whatever the digits are
answered without computing the power: `d` has at most `log2 d + 1` decimal digits. -/
def ofDecimal (neg : Bool) (d : Nat) (k : Int) : Binary64 :=
  if d = 0 then zero neg
  else if 400 < k then infinity neg
  else if k < -(400 + (Nat.log2 d + 1) : Int) then zero neg
  else if 0 ≤ k then nearest neg (d * powTen k.toNat) 1
  else nearest neg d (powTen (-k).toNat)

/-- Equality of numbers: NaN differs from everything, the two zeros are equal. -/
def eq (x y : Binary64) : Bool :=
  !x.isNaN && !y.isNaN && (x.bits == y.bits || (x.isZero && y.isZero))

/-- A key that orders all doubles but NaN as the numbers they are. -/
def order (x : Binary64) : Int := if x.negative then -(x.magnitude : Int) else x.magnitude

def neg (x : Binary64) : Binary64 := ofMagnitude (!x.negative) x.magnitude

/-- The double nearest to a signed number of `1 / den` units. -/
def ofSignedUnits (negZero : Bool) (num : Int) (den : Nat) : Binary64 :=
  if num = 0 then zero negZero else ofMagnitude (num < 0) (magnitudeOfUnits num.natAbs den)

def add (x y : Binary64) : Binary64 :=
  if x.isNaN || y.isNaN then nan
  else if x.isInfinite then
    if y.isInfinite && x.negative != y.negative then nan else x
  else if y.isInfinite then y
  else ofSignedUnits (x.negative && y.negative) (x.signedUnits + y.signedUnits) 1

def sub (x y : Binary64) : Binary64 := if y.isNaN then nan else add x y.neg

def mul (x y : Binary64) : Binary64 :=
  let sign := x.negative != y.negative
  if x.isNaN || y.isNaN then nan
  else if x.isInfinite || y.isInfinite then
    if x.isZero || y.isZero then nan else infinity sign
  else ofSignedUnits sign (x.signedUnits * y.signedUnits) unitsPerOne

def div (x y : Binary64) : Binary64 :=
  let sign := x.negative != y.negative
  if x.isNaN || y.isNaN then nan
  else if x.isInfinite then if y.isInfinite then nan else infinity sign
  else if y.isInfinite then zero sign
  else if y.isZero then if x.isZero then nan else infinity sign
  else if x.isZero then zero sign
  else nearest sign x.units y.units

/-- The integer part of a finite double, toward zero. -/
def truncate (x : Binary64) : Int :=
  let n : Int := x.units / unitsPerOne
  if x.negative then -n else n

/-- Whether a finite double is a whole number. -/
def isWhole (x : Binary64) : Bool := x.isFinite && x.units % unitsPerOne == 0

end Binary64

end HostSql
