import HostSql.Number.Extended
import HostSql.Number.Decimal

/-!
# The engine's text of a real, and how it reads one

A real prints with at most fifteen significant digits, always with a digit after the point, and with
a signed exponent of two or more digits when its first digit stands left of `10¹⁴` or right of
`10⁻⁴`. Reading keeps the first nineteen or so significant digits. Both scale by powers of ten in
`Extended` arithmetic, so both can miss the last place that exact arithmetic would give.
-/

namespace HostSql.RealText

/-- How many significant digits are printed. -/
def precision : Nat := 15

/-- The first digit positions, as powers of ten, that print without an exponent. -/
def positionalRange : Int × Int := (-4, 14)

/-! ## Printing -/

/-- Multiplies by the power of ten as long as the number is at least the bound; counts the digits
moved. -/
def scaleDown (bound : Int) (step : Int) : Nat → Extended × Int → Extended × Int
  | 0, r => r
  | fuel + 1, (x, moved) =>
    if x.atLeast ((Extended.tenTo bound).significand * powTwo (Extended.tenTo bound).exponent.toNat)
        (powTwo (-(Extended.tenTo bound).exponent).toNat) then
      scaleDown bound step fuel (x.mul (Extended.tenTo (-step)), moved + step)
    else (x, moved)

/-- Multiplies by the power of ten as long as the number is below the bound. -/
def scaleUp (bound : Int) (step : Int) : Nat → Extended × Int → Extended × Int
  | 0, r => r
  | fuel + 1, (x, moved) =>
    if x.atLeast ((Extended.tenTo bound).significand * powTwo (Extended.tenTo bound).exponent.toNat)
        (powTwo (-(Extended.tenTo bound).exponent).toNat) then (x, moved)
    else scaleUp bound step fuel (x.mul (Extended.tenTo step), moved - step)

/-- Scales a positive number into the range from `10¹⁷` to `10¹⁹`; the second part is the power of
ten taken out. -/
def normalize (x : Extended) : Extended × Int :=
  if x.atLeast (powTen 19) 1 then
    scaleDown 19 1 12 (scaleDown 29 10 12 (scaleDown 119 100 12 (x, 0)))
  else
    scaleUp 17 1 12 (scaleUp 7 10 12 (scaleUp (-97) 100 12 (x, 0)))

/-- Rounds a row of digits, given as a number with `count` digits, to `keep` digits; a half goes
up. The result is the number and its count of digits, which grows when the carry runs out on the
left. -/
def roundDigits (n count keep : Nat) : Nat × Nat :=
  if count ≤ keep then (n, count)
  else
    let unit := powTen (count - keep)
    let kept := if unit ≤ 2 * (n % unit) then n / unit + 1 else n / unit
    (kept, if powTen keep ≤ kept then keep + 1 else keep)

/-- The digits of a positive finite double without trailing zeros, and the power of ten of the first
digit. -/
def significant (x : Binary64) : List Char × Int :=
  let (scaled, moved) := normalize (Extended.ofBinary64 x)
  let n := scaled.floor
  let count := (Nat.toDigits 10 n).length
  let (kept, width) := roundDigits n count precision
  let ds := Nat.toDigits 10 kept
  let power : Int := count + moved - 1 + (if precision < width ∧ precision < count then 1 else 0)
  (Text.trimRight (· == '0') ds, power)

/-- Two or more digits of an exponent, after its sign. -/
def exponentChars (e : Int) : List Char :=
  let ds := Nat.toDigits 10 e.natAbs
  (if e < 0 then '-' else '+') :: (if ds.length < 2 then '0' :: ds else ds)

/-- A row of digits whose first has the given power of ten, with a point and a digit after it. -/
def layOut (ds : List Char) (power : Int) : List Char :=
  let orZero (cs : List Char) : List Char := if cs.isEmpty then ['0'] else cs
  if power < positionalRange.1 ∨ positionalRange.2 < power then
    ds.take 1 ++ '.' :: orZero (ds.drop 1) ++ 'e' :: exponentChars power
  else if power < 0 then
    '0' :: '.' :: (List.replicate (-power - 1).toNat '0' ++ ds)
  else
    let whole := power.toNat + 1
    ds.take whole ++ List.replicate (whole - ds.length) '0' ++ '.' :: orZero (ds.drop whole)

/-- The engine's text of a real that is not NaN: `5.0`, `1.0e+21`, `-Inf`. Zero has no sign. -/
def print (x : Binary64) : String :=
  if x.isZero then "0.0"
  else
    let sign := if x.negative then ['-'] else []
    if x.isInfinite then String.ofList (sign ++ "Inf".toList)
    else
      let (ds, power) := significant x
      String.ofList (sign ++ layOut ds power)

/-! ## Reading -/

/-- The significand is full once it reaches this: another digit might not fit in 64 bits. -/
def fullSignificand : Nat := (powTwo 64 - 1 - 9) / 10

/-- Takes one digit before the point: into the significand, or only counted when that is full. -/
def takeWholeDigit (s : Nat × Int) (c : Char) : Nat × Int :=
  if fullSignificand ≤ s.1 then (s.1, s.2 + 1) else (10 * s.1 + (c.toNat - 48), s.2)

/-- Takes one digit after the point: into the significand, or dropped when that is full. -/
def takeFractionDigit (s : Nat × Int) (c : Char) : Nat × Int :=
  if fullSignificand ≤ s.1 then s else (10 * s.1 + (c.toNat - 48), s.2 - 1)

/-- Moves a positive power of ten into the significand while it fits in 64 bits. -/
def absorb : Nat → Nat × Int → Nat × Int
  | 0, r => r
  | fuel + 1, (s, e) =>
    if 0 < e ∧ s < (powTwo 64 - 1) / 10 then absorb fuel (10 * s, e - 1) else (s, e)

/-- Takes trailing zero digits out of the significand while the power of ten is negative. -/
def release : Nat → Nat × Int → Nat × Int
  | 0, r => r
  | fuel + 1, (s, e) => if e < 0 ∧ s % 10 = 0 then release fuel (s / 10, e + 1) else (s, e)

/-- Scales by `10^e` in steps of a hundred, ten and one digits. -/
def scale (x : Extended) (e : Int) : Extended :=
  let n := e.natAbs
  let unit : Int := if e < 0 then -1 else 1
  Extended.scaleBy unit (n % 10)
    (Extended.scaleBy (10 * unit) (n % 100 / 10) (Extended.scaleBy (100 * unit) (n / 100) x))

/-- The largest finite double. -/
def largest : Nat := (powTwo 53 - 1) * powTwo 971

/-- The real with the given sign, significand and power of ten. -/
def assemble (neg : Bool) (s : Nat) (e : Int) : Binary64 :=
  if s = 0 then Binary64.zero neg
  else
    let (s, e) := release 20 (absorb 20 (s, e))
    if e = 0 then Binary64.nearest neg s 1
    else
      let x := scale (Extended.ofNat s) e
      if x.atLeast (largest + 1) 1 then Binary64.infinity neg else x.toBinary64 neg

/-- What a scan for a number found: its value, whether it had neither point nor exponent, whether it
was well formed to its end, and the characters after it. -/
structure Scan where
  value : Binary64
  whole : Bool
  wellFormed : Bool
  rest : List Char

/-- Blanks as the engine counts them. -/
def isSpace (c : Char) : Bool := (9 ≤ c.toNat && c.toNat ≤ 13) || c.toNat == 32

/-- The exponent that digits denote; beyond ten thousand all are alike. -/
def exponentOf (ds : List Char) : Nat :=
  ds.foldl (fun e c => if e < 10000 then 10 * e + (c.toNat - 48) else 10000) 0

/-- Scans the longest numeral at the start of a text, blanks before and after it skipped. -/
def scan (text : List Char) : Scan :=
  let (neg, cs) := Numeral.takeSign (Text.trimLeft isSpace text)
  let (whole, cs) := Numeral.takeDigits cs
  let s := whole.foldl takeWholeDigit (0, 0)
  let (point, fraction, cs) := match cs with
    | '.' :: cs => (true, (Numeral.takeDigits cs).1, (Numeral.takeDigits cs).2)
    | cs => (false, [], cs)
  let s := fraction.foldl takeFractionDigit s
  let digits := !(whole.isEmpty && fraction.isEmpty)
  match cs with
  | c :: tail =>
    if c = 'e' ∨ c = 'E' then
      let (eneg, tail) := Numeral.takeSign tail
      let (eds, tail) := Numeral.takeDigits tail
      let e : Int := if eneg then -(exponentOf eds : Int) else exponentOf eds
      ⟨assemble neg s.1 (e + s.2), false, digits && !eds.isEmpty, Text.trimLeft isSpace tail⟩
    else ⟨assemble neg s.1 s.2, !point, digits, Text.trimLeft isSpace (c :: tail)⟩
  | [] => ⟨assemble neg s.1 s.2, !point, digits, []⟩

/-- The real that a well-formed numeral denotes. -/
def read (text : List Char) : Binary64 := (scan text).value

end HostSql.RealText
