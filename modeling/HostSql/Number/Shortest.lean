import HostSql.Number.Decimal

/-!
# Shortest decimal text of a double

`shortest x` is the decimal with the fewest digits that reads back as `x`, and of those the nearest
to `x`. For one digit, two digits and so on it tries the two neighbours of `x` on that decimal grid;
the exact decimal expansion, which always reads back, ends the search. Two spellings are built from
it: `positional` writes the digits out without an exponent, `scientific` with one.
-/

namespace HostSql

/-- `digits · 10^scale`. -/
structure Decimal where
  digits : Nat
  scale : Int
  deriving Repr, DecidableEq

namespace Decimal

/-- The double nearest to a non-negative decimal. -/
def toBinary64 (d : Decimal) : Binary64 := Binary64.ofDecimal false d.digits d.scale

/-- The decimal without trailing zero digits. The count of digits bounds the search. -/
def stripZeros (d : Decimal) : Decimal := go (Nat.log2 d.digits + 1) d
where
  go : Nat → Decimal → Decimal
    | 0, d => d
    | fuel + 1, d =>
      if d.digits ≠ 0 ∧ d.digits % 10 = 0 then go fuel ⟨d.digits / 10, d.scale + 1⟩ else d

end Decimal

namespace Binary64

/-- `units / 10^k` ones as a fraction. -/
def gridRatio (x : Binary64) (k : Int) : Nat × Nat :=
  if 0 ≤ k then (x.units, unitsPerOne * powTen k.toNat)
  else (x.units * powTen (-k).toNat, unitsPerOne)

/-- The exact decimal expansion: `2⁻¹⁰⁷⁴ = 5¹⁰⁷⁴ · 10⁻¹⁰⁷⁴`. -/
def exactDecimal (x : Binary64) : Decimal := ⟨x.units * Nat.pow 5 1074, -1074⟩

/-- The power of ten of the first digit of a positive double. No positive double is below
`10⁻³²⁴`, so a grid of `10⁻³⁴⁰` shows the first digit of each. -/
def leadingPower (x : Binary64) : Int :=
  let (num, den) := x.gridRatio (-340)
  ((Nat.toDigits 10 (num / den)).length : Int) - 341

/-- The neighbours of `x` on the grid of `10^k` that read back as `x`, the nearer one first. -/
def readBackOnGrid (x : Binary64) (k : Int) : List Decimal :=
  let (num, den) := x.gridRatio k
  let below : Decimal := ⟨num / den, k⟩
  let above : Decimal := ⟨num / den + 1, k⟩
  let pair := if 2 * (num % den) ≤ den then [below, above] else [above, below]
  pair.filter fun d => d.toBinary64.magnitude == x.magnitude

/-- Searches the grids of `10^k`, `10^(k-1)`, … -/
def searchGrids (x : Binary64) : Nat → Int → Decimal
  | 0, _ => x.exactDecimal
  | fuel + 1, k =>
    match x.readBackOnGrid k with
    | d :: _ => d
    | [] => searchGrids x fuel (k - 1)

/-- The shortest decimal that reads back as the size of `x`. -/
def shortest (x : Binary64) : Decimal :=
  if x.isZero then ⟨0, 0⟩ else (x.searchGrids 17 x.leadingPower).stripZeros

end Binary64

namespace Decimal

/-- Digits without an exponent; no point when the number is whole. -/
def positional (d : Decimal) : List Char :=
  let ds := Nat.toDigits 10 d.digits
  if 0 ≤ d.scale then ds ++ List.replicate d.scale.toNat '0'
  else
    let places := (-d.scale).toNat
    if places < ds.length then
      ds.take (ds.length - places) ++ '.' :: ds.drop (ds.length - places)
    else '0' :: '.' :: (List.replicate (places - ds.length) '0' ++ ds)

/-- One digit, the others after a point, and the power of ten of the first. -/
def scientific (d : Decimal) : List Char :=
  let ds := Nat.toDigits 10 d.digits
  let power := d.scale + ((ds.length : Int) - 1)
  let fraction := if ds.length ≤ 1 then [] else '.' :: ds.drop 1
  ds.take 1 ++ fraction ++ 'e' :: (toString power).toList

end Decimal

namespace Binary64

/-- The sign that precedes the digits. -/
def signChars (x : Binary64) : List Char := if x.negative then ['-'] else []

/-- Shortest text without an exponent: `1`, `-0`, `0.1`, `inf`, `NaN`. -/
def display (x : Binary64) : String :=
  if x.isNaN then "NaN"
  else if x.isInfinite then String.ofList (x.signChars ++ "inf".toList)
  else String.ofList (x.signChars ++ x.shortest.positional)

/-- Shortest text of a finite double with an exponent: `5e0`, `-1.5e-7`. -/
def displayScientific (x : Binary64) : String :=
  String.ofList (x.signChars ++ x.shortest.scientific)

end Binary64

end HostSql
