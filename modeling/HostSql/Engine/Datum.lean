import HostSql.Number.RealText
import HostSql.Text.Utf8
import HostSql.Value

/-!
# Values inside the engine

A `Datum` is what a column holds: nothing, a 64-bit integer, a real that is never NaN, text or
bytes. Text is a row of bytes that need not be UTF-8. `compare` orders all values: nothing first,
then numbers by size, then text and then bytes by their bytes. Conversions between the classes
follow one rule each: `text` for any value's text, `number` for arithmetic, `asInteger` and
`asReal` for casts.
-/

namespace HostSql.Engine

/-- A value inside the engine. -/
inductive Datum where
  | null
  | integer (n : Int64)
  | real (x : Binary64)
  | text (bytes : List UInt8)
  | blob (bytes : List UInt8)
  deriving Repr, DecidableEq, Inhabited

/-- A row of values. -/
abbrev Row := List Datum

namespace Datum

/-- The storage class of a value. -/
def storageClass : Datum → StorageClass
  | null => .null
  | integer _ => .integer
  | real _ => .float
  | text _ => .text
  | blob _ => .blob

def isNull : Datum → Bool
  | null => true
  | _ => false

/-- The text value of a string. -/
def ofString (s : String) : Datum := text (Utf8.encode s)

def ofBool (b : Bool) : Datum := integer (if b then 1 else 0)

/-- The truth of a comparison that nothing leaves open. -/
def ofTruth? : Option Bool → Datum
  | some b => ofBool b
  | none => null

/-- A real, or nothing for NaN. -/
def ofReal (x : Binary64) : Datum := if x.isNaN then null else real x

/-- The value a result of a host function becomes. -/
def ofValue : Value → Datum
  | .integer n => integer n
  | .float x => ofReal x
  | .text s => ofString s
  | .blob bytes => blob bytes
  | .null => null

/-- The bytes of a value's text; nothing has none. -/
def textBytes : Datum → List UInt8
  | null => []
  | integer n => Utf8.encode (toString n.toInt)
  | real x => Utf8.encode (RealText.print x)
  | text bytes => bytes
  | blob bytes => bytes

/-- The text a reader outside the engine gets; `none` for nothing. -/
def readText? (d : Datum) : Option String :=
  if d.isNull then none else some (Utf8.textOf d.textBytes)

/-- The largest and the smallest integer. -/
def maxInteger : Int := Int64.maxValue.toInt
def minInteger : Int := Int64.minValue.toInt

/-- The integer nearest to `n` that fits 64 bits. -/
def clamp (n : Int) : Int64 := Int64.ofInt (max minInteger (min maxInteger n))

/-- The integer part of a real, cut to the range of integers. -/
def integerOfReal (x : Binary64) : Int64 :=
  if x.isInfinite then (if x.negative then Int64.minValue else Int64.maxValue)
  else clamp x.truncate

/-- The integer equal to a real, strictly inside the range of integers. -/
def exactIntegerOfReal? (x : Binary64) : Option Int64 :=
  if x.isWhole ∧ minInteger < x.truncate ∧ x.truncate < maxInteger then
    some (Int64.ofInt x.truncate)
  else none

/-- The characters that numerals are read from: bytes beyond ASCII are no part of a numeral. -/
def numeralChars (bytes : List UInt8) : List Char :=
  bytes.map fun b => if b.toNat < 0x80 then Char.ofNat b.toNat else '\uFFFD'

/-- An integer at the start of a text: its value, and whether only blanks follow it. -/
def leadingInteger (cs : List Char) : Int × Bool :=
  let (neg, rest) := Numeral.takeSign (Text.trimLeft RealText.isSpace cs)
  let (ds, rest) := Numeral.takeDigits rest
  let n : Int := digitsValue ds
  (if neg then -n else n, !ds.isEmpty && (Text.trimLeft RealText.isSpace rest).isEmpty)

def fitsInteger (n : Int) : Bool := minInteger ≤ n && n ≤ maxInteger

/-- The number a text holds as a whole, if it is a numeral. -/
def wholeNumber? (bytes : List UInt8) : Option Datum :=
  let cs := numeralChars bytes
  let s := RealText.scan cs
  if s.wellFormed ∧ s.rest.isEmpty then
    let (n, _) := leadingInteger cs
    if s.whole ∧ fitsInteger n then some (integer (Int64.ofInt n)) else some (ofReal s.value)
  else none

/-- The number that arithmetic finds in a text: the whole text if it is a numeral, else what it
begins with. -/
def leadingNumber (bytes : List UInt8) : Datum :=
  match wholeNumber? bytes with
  | some d => d
  | none =>
    let cs := numeralChars bytes
    let s := RealText.scan cs
    let (n, _) := leadingInteger cs
    if (s.whole || !s.wellFormed) && fitsInteger n then integer (Int64.ofInt n) else ofReal s.value

/-- A value as arithmetic takes it. -/
def number : Datum → Datum
  | text bytes | blob bytes => leadingNumber bytes
  | d => d

/-- The integer a value is cut to. -/
def asInteger : Datum → Int64
  | null => 0
  | integer n => n
  | real x => integerOfReal x
  | text bytes | blob bytes => clamp (leadingInteger (numeralChars bytes)).1

/-- The real nearest to a value. -/
def asReal : Datum → Binary64
  | null => Binary64.zero false
  | integer n => Binary64.ofInt n.toInt
  | real x => x
  | text bytes | blob bytes => (RealText.scan (numeralChars bytes)).value

/-- Whether a value counts as true; nothing leaves it open. -/
def truth? : Datum → Option Bool
  | null => none
  | integer n => some (n != 0)
  | d => some !d.asReal.isZero

/-- The order of a number against another; `none` if either is no number. -/
def compareNumbers? : Datum → Datum → Option Ordering
  | integer a, integer b => some (Ord.compare a.toInt b.toInt)
  | real x, real y => some (Ord.compare x.order y.order)
  | integer a, real y => some (compareMixed a y)
  | real x, integer b => some (compareMixed b x).swap
  | _, _ => none
where
  /-- The exact order of an integer against a real. -/
  compareMixed (a : Int64) (y : Binary64) : Ordering :=
    if y.isInfinite then (if y.negative then .gt else .lt)
    else Ord.compare (a.toInt * Binary64.unitsPerOne) y.signedUnits

/-- The order of two rows of bytes. -/
def compareBytes : List UInt8 → List UInt8 → Ordering
  | [], [] => .eq
  | [], _ :: _ => .lt
  | _ :: _, [] => .gt
  | a :: as, b :: bs => if a < b then .lt else if b < a then .gt else compareBytes as bs

end Datum

/-- How texts are compared. -/
inductive Collation where
  | binary
  | noCase
  | rightTrim
  deriving Repr, DecidableEq, Inhabited

namespace Collation

/-- The collation of a name. -/
def ofName? (name : String) : Option Collation :=
  if Text.sameName name "BINARY" then some .binary
  else if Text.sameName name "NOCASE" then some .noCase
  else if Text.sameName name "RTRIM" then some .rightTrim
  else none

/-- A byte with ASCII capitals lowered. -/
def lowerByte (b : UInt8) : UInt8 := if 65 ≤ b && b ≤ 90 then b + 32 else b

/-- The bytes that decide a comparison. -/
def key : Collation → List UInt8 → List UInt8
  | .binary, bytes => bytes
  | .noCase, bytes => bytes.map lowerByte
  | .rightTrim, bytes => (bytes.reverse.dropWhile (· == 32)).reverse

end Collation

namespace Datum

/-- The place of a storage class in the order of values. -/
def rank : Datum → Nat
  | null => 0
  | integer _ | real _ => 1
  | text _ => 2
  | blob _ => 3

/-- The order of all values. -/
def compare (c : Collation) (a b : Datum) : Ordering :=
  match a, b with
  | text x, text y => compareBytes (c.key x) (c.key y)
  | blob x, blob y => compareBytes x y
  | a, b => (compareNumbers? a b).getD (Ord.compare a.rank b.rank)

/-! ## What columns make of values -/

end Datum

/-- The class a column prefers. -/
inductive Affinity where
  | blob
  | text
  | numeric
  | integer
  | real
  deriving Repr, DecidableEq, Inhabited

namespace Affinity

/-- Whether `part` occurs in `s`. -/
def occursIn (part : List Char) : List Char → Bool
  | [] => part.isEmpty
  | c :: rest => part.isPrefixOf (c :: rest) || occursIn part rest

/-- The affinity of a declared type, found by the words it contains. -/
def ofTypeName (typeName : String) : Affinity :=
  let s := (Text.raiseCase typeName).toList
  let has (w : String) : Bool := occursIn w.toList s
  if has "INT" then .integer
  else if has "CHAR" || has "CLOB" || has "TEXT" then .text
  else if has "BLOB" || typeName.isEmpty then .blob
  else if has "REAL" || has "FLOA" || has "DOUB" then .real
  else .numeric

def isNumeric : Affinity → Bool
  | .numeric | .integer | .real => true
  | _ => false

/-- What a column of this affinity stores for a value. -/
def apply (a : Affinity) (d : Datum) : Datum :=
  match a, d with
  | .text, .integer _ | .text, .real _ => .text d.textBytes
  | .numeric, .real x | .integer, .real x =>
    match Datum.exactIntegerOfReal? x with
    | some n => .integer n
    | none => d
  | .numeric, .text bytes | .integer, .text bytes =>
    match Datum.wholeNumber? bytes with
    | some (.real x) => ((Datum.exactIntegerOfReal? x).map Datum.integer).getD (.real x)
    | some n => n
    | none => d
  | .real, .integer n => .real (Binary64.ofInt n.toInt)
  | .real, .text bytes =>
    match Datum.wholeNumber? bytes with
    | some n => .real n.asReal
    | none => d
  | _, _ => d

/-- What a cast to this affinity makes of a value. -/
def cast (a : Affinity) (d : Datum) : Datum :=
  match a, d with
  | _, .null => .null
  | .blob, d => .blob d.textBytes
  | .text, d => .text d.textBytes
  | .integer, d => .integer d.asInteger
  | .real, d => .real d.asReal
  | .numeric, .text bytes | .numeric, .blob bytes =>
    match Datum.leadingNumber bytes with
    | .real x => ((Datum.exactIntegerOfReal? x).map Datum.integer).getD (.real x)
    | n => n
  | .numeric, d => d

end Affinity

end HostSql.Engine
