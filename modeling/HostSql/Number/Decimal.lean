import HostSql.Number.Binary64
import HostSql.Text.Fold

/-!
# Decimal numerals

A numeral is an optional sign, digits with an optional point among or beside them, and an optional
exponent. `Numeral.read?` recognises one in a text that may be surrounded by blanks, `exactInt?` and
`toBinary64` say which number it denotes. Whole numerals are told from others by their form: neither
point nor exponent.
-/

namespace HostSql

/-- The digits of a number in base ten. -/
def Nat.decimalDigits (n : Nat) : List Char := Nat.toDigits 10 n

/-- The number that a row of decimal digits denotes. -/
def digitsValue (ds : List Char) : Nat := ds.foldl (fun n c => 10 * n + (c.toNat - '0'.toNat)) 0

/-- An exponent as written: its sign and its digits. -/
structure Numeral.Exponent where
  negative : Bool
  digits : List Char
  deriving Repr, DecidableEq

/-- A decimal numeral as written. `fraction` is present when there is a point. -/
structure Numeral where
  negative : Bool
  whole : List Char
  fraction : Option (List Char)
  exponent : Option Numeral.Exponent
  deriving Repr, DecidableEq

namespace Numeral

/-- Splits off a leading sign; the flag says whether it is a minus. -/
def takeSign : List Char → Bool × List Char
  | '-' :: rest => (true, rest)
  | '+' :: rest => (false, rest)
  | cs => (false, cs)

/-- Splits off the leading digits. -/
def takeDigits (cs : List Char) : List Char × List Char :=
  (cs.takeWhile Char.isDigit, cs.dropWhile Char.isDigit)

/-- Reads what may follow the digits and the point: nothing, or a whole exponent. -/
def readExponent? : List Char → Option (Option Exponent)
  | [] => some none
  | c :: rest =>
    if c = 'e' ∨ c = 'E' then
      let (negative, rest) := takeSign rest
      let (digits, rest) := takeDigits rest
      if digits.isEmpty ∨ !rest.isEmpty then none else some (some ⟨negative, digits⟩)
    else none

/-- Reads a numeral that fills its text. -/
def readTight? (cs : List Char) : Option Numeral :=
  let (negative, cs) := takeSign cs
  let (whole, cs) := takeDigits cs
  match cs with
  | '.' :: cs =>
    let (fraction, cs) := takeDigits cs
    if whole.isEmpty ∧ fraction.isEmpty then none
    else (readExponent? cs).map (⟨negative, whole, some fraction, ·⟩)
  | cs => if whole.isEmpty then none else (readExponent? cs).map (⟨negative, whole, none, ·⟩)

/-- Reads a numeral with blanks around it. -/
def read? (s : String) : Option Numeral := readTight? (Text.trim Text.isBlank s.toList)

/-- All digits before the exponent, as one number. -/
def significand (n : Numeral) : Nat := digitsValue (n.whole ++ n.fraction.getD [])

/-- The power of ten that scales the significand. -/
def scale (n : Numeral) : Int :=
  (match n.exponent with
    | none => 0
    | some e => if e.negative then -(digitsValue e.digits : Int) else digitsValue e.digits)
  - ((n.fraction.getD []).length : Int)

/-- The integer a numeral without point and exponent denotes. -/
def exactInt? (n : Numeral) : Option Int :=
  match n.fraction, n.exponent with
  | none, none => some (if n.negative then -(digitsValue n.whole : Int) else digitsValue n.whole)
  | _, _ => none

/-- The double nearest to what the numeral denotes. -/
def toBinary64 (n : Numeral) : Binary64 := Binary64.ofDecimal n.negative n.significand n.scale

end Numeral

end HostSql
