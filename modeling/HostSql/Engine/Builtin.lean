import HostSql.Engine.Datum

/-!
# Built-in functions

`Scalar` are the functions of one row and `Aggregate` those of many, each with the argument counts
it takes. A scalar function is a function on values; an aggregate is a state that takes rows one
by one (`Accumulator.step`) and ends in a value (`Accumulator.finish`). Sums of reals carry the
rounding error along and add it at the end.
-/

namespace HostSql.Engine

/-! ## Text by characters -/

/-- The characters of a text as groups of bytes: a lead byte takes the continuation bytes after
it. -/
def characters : List UInt8 → List (List UInt8)
  | [] => []
  | b :: rest =>
    if 0xC0 ≤ b then
      let isTail (c : UInt8) : Bool := c &&& 0xC0 == 0x80
      (b :: rest.takeWhile isTail) :: characters (rest.dropWhile isTail)
    else [b] :: characters rest
termination_by bytes => bytes.length
decreasing_by
  · have := (List.dropWhile_sublist (l := rest) (fun c : UInt8 => c &&& 0xC0 == 0x80)).length_le
    simp only [List.length_cons]
    omega
  · simp

/-- The part of a list that `substr` selects: `start` counts from one, or from the end when it is
negative; a negative `count` selects what precedes. -/
def slicePart (items : List α) (start : Int) (count : Option Int) : List α :=
  let length : Int := items.length
  let backward := count.any (· < 0)
  let count : Int := match count with
    | some n => n.natAbs
    | none => length + start.natAbs + 1
  let (first, count) :=
    if start < 0 then
      if start + length < 0 then (0, max 0 (count + (start + length))) else (start + length, count)
    else if 0 < start then (start - 1, count)
    else (0, if 0 < count then count - 1 else count)
  let (first, count) :=
    if backward then
      if first - count < 0 then (0, first) else (first - count, count)
    else (first, count)
  (items.drop first.toNat).take count.toNat

/-- Where `part` first occurs, counted from one; zero if it does not. -/
def positionOf [BEq α] (part : List α) (items : List α) : Nat :=
  match (List.range (items.length + 1)).find? fun i => part.isPrefixOf (items.drop i) with
  | some i => i + 1
  | none => 0

/-- Replaces every occurrence of a non-empty `part`, from the left. -/
def replaceAll (part replacement : List UInt8) : List UInt8 → List UInt8
  | [] => []
  | b :: rest =>
    if !part.isEmpty && part.isPrefixOf (b :: rest) then
      replacement ++ replaceAll part replacement (rest.drop (part.length - 1))
    else b :: replaceAll part replacement rest
termination_by bytes => bytes.length
decreasing_by all_goals (simp; try omega)

/-- Whether a text matches a pattern, where `many` stands for any text and `one` for any character;
after `escape` a character stands for itself. -/
def matchesPattern (many one : Char) (escape : Option Char) (fold : Char → Char) :
    List Char → List Char → Bool
  | [], s => s.isEmpty
  | p :: ps, s =>
    if some p = escape then
      match ps, s with
      | q :: qs, c :: cs => fold q == fold c && matchesPattern many one escape fold qs cs
      | _, _ => false
    else if p = many then
      match s with
      | [] => matchesPattern many one escape fold ps []
      | c :: cs =>
        matchesPattern many one escape fold ps (c :: cs)
          || matchesPattern many one escape fold (p :: ps) cs
    else
      match s with
      | [] => false
      | c :: cs => (p == one || fold p == fold c) && matchesPattern many one escape fold ps cs
termination_by p s => p.length + s.length

/-! ## Functions of one row -/

/-- What functions may ask about the connection. -/
structure Counters where
  lastRowid : Int64
  changes : Nat
  totalChanges : Nat
  deriving Repr, DecidableEq, Inhabited

/-- A built-in function of one row. -/
inductive Scalar where
  | typeOf
  | length
  | octetLength
  | lower
  | upper
  | abs
  | nullIf
  | max
  | min
  | substr
  | instr
  | replace
  | trim
  | leftTrim
  | rightTrim
  | hex
  | char
  | unicode
  | sign
  | like
  | glob
  | lastInsertRowid
  | changes
  | totalChanges
  | version
  deriving Repr, DecidableEq

/-- The version of the engine. -/
def version : String := "3.45.0"

namespace Scalar

/-- The functions with their names and the argument counts they take: from the first number to the
second, or any number from the first on. -/
def table : List (String × Scalar × Nat × Option Nat) :=
  [("typeof", typeOf, 1, some 1), ("length", length, 1, some 1),
    ("octet_length", octetLength, 1, some 1), ("lower", lower, 1, some 1),
    ("upper", upper, 1, some 1), ("abs", abs, 1, some 1), ("nullif", nullIf, 2, some 2),
    ("max", max, 2, none), ("min", min, 2, none), ("substr", substr, 2, some 3),
    ("substring", substr, 2, some 3), ("instr", instr, 2, some 2), ("replace", replace, 3, some 3),
    ("trim", trim, 1, some 2), ("ltrim", leftTrim, 1, some 2), ("rtrim", rightTrim, 1, some 2),
    ("hex", hex, 1, some 1), ("char", char, 0, none), ("unicode", unicode, 1, some 1),
    ("sign", sign, 1, some 1), ("like", like, 2, some 3), ("glob", glob, 2, some 2),
    ("last_insert_rowid", lastInsertRowid, 0, some 0), ("changes", changes, 0, some 0),
    ("total_changes", totalChanges, 0, some 0), ("sqlite_version", version, 0, some 0)]

/-- The size of a number as `abs` gives it. -/
def absolute : Datum → Except String Datum
  | .null => .ok .null
  | .integer n =>
    if n = Int64.minValue then .error "integer overflow"
    else .ok (.integer (if n < 0 then -n else n))
  | d => .ok (Datum.ofReal (if d.asReal.negative then d.asReal.neg else d.asReal))

/-- Removes characters of a set from the ends of a text. -/
def trimText (left right : Bool) : List Datum → Datum
  | [d] => go d [[32]]
  | [d, set] => if set.isNull then .null else go d (characters set.textBytes)
  | _ => .null
where
  go (d : Datum) (set : List (List UInt8)) : Datum :=
    if d.isNull then .null
    else
      let cs := characters d.textBytes
      let cs := if left then cs.dropWhile set.contains else cs
      let cs := if right then (cs.reverse.dropWhile set.contains).reverse else cs
      .text cs.flatten

/-- The best of several values, none if one of them is missing. -/
def best (better : Ordering) : List Datum → Datum
  | [] => .null
  | d :: rest =>
    if (d :: rest).any Datum.isNull then .null
    else rest.foldl (fun b d => if Datum.compare .binary d b == better then d else b) d

/-- The digits of a byte. -/
def hexByte (b : UInt8) : List UInt8 :=
  let digit (n : Nat) : UInt8 := UInt8.ofNat (if n < 10 then 48 + n else 55 + n)
  [digit (b.toNat / 16), digit (b.toNat % 16)]

/-- Matches the second argument against the pattern in the first. -/
def matchText (many one : Char) (fold : Char → Char) : List Datum → Except String Datum
  | pattern :: subject :: rest =>
    let chars (d : Datum) : List Char := Utf8.decodeFrom none (Utf8.beforeNul d.textBytes)
    let run (escape : Option Char) : Except String Datum :=
      if pattern.isNull || subject.isNull then .ok .null
      else .ok (.ofBool (matchesPattern many one escape fold (chars pattern) (chars subject)))
    match rest with
    | [] => run none
    | escape :: _ =>
      if escape.isNull then .ok .null
      else
        match chars escape with
        | [c] => run (some c)
        | _ => .error "ESCAPE expression must be a single character"
  | _ => .ok .null

/-- The value of a function for its arguments. -/
def eval (f : Scalar) (c : Counters) (args : List Datum) : Except String Datum :=
  match f, args with
  | typeOf, [d] =>
    .ok (.ofString (match d with
      | .null => "null"
      | .integer _ => "integer"
      | .real _ => "real"
      | .text _ => "text"
      | .blob _ => "blob"))
  | length, [d] =>
    match d with
    | .null => .ok .null
    | .blob bytes => .ok (.integer (Int64.ofNat bytes.length))
    | d => .ok (.integer (Int64.ofNat (characters (Utf8.beforeNul d.textBytes)).length))
  | octetLength, [d] =>
    .ok (if d.isNull then .null else .integer (Int64.ofNat d.textBytes.length))
  | lower, [d] => .ok (if d.isNull then .null else .text (d.textBytes.map Collation.lowerByte))
  | upper, [d] =>
    .ok (if d.isNull then .null
      else .text (d.textBytes.map fun b => if 97 ≤ b && b ≤ 122 then b - 32 else b))
  | abs, [d] => absolute d
  | nullIf, [a, b] => .ok (if Datum.compare .binary a b == .eq then .null else a)
  | max, ds => .ok (best .gt ds)
  | min, ds => .ok (best .lt ds)
  | substr, d :: start :: count =>
    .ok (if d.isNull || start.isNull || count.any Datum.isNull then .null
      else
        let count := count.head?.map fun n => n.asInteger.toInt
        match d with
        | .blob bytes => .blob (slicePart bytes start.asInteger.toInt count)
        | d => .text (slicePart (characters (Utf8.beforeNul d.textBytes)) start.asInteger.toInt
            count).flatten)
  | instr, [d, part] =>
    .ok (match d, part with
      | .null, _ | _, .null => .null
      | .blob x, .blob y => .integer (Int64.ofNat (positionOf y x))
      | d, part =>
        .integer (Int64.ofNat (positionOf (characters part.textBytes) (characters d.textBytes))))
  | replace, [d, part, replacement] =>
    .ok (if d.isNull || part.isNull || replacement.isNull then .null
      else .text (replaceAll part.textBytes replacement.textBytes d.textBytes))
  | trim, ds => .ok (trimText true true ds)
  | leftTrim, ds => .ok (trimText true false ds)
  | rightTrim, ds => .ok (trimText false true ds)
  | hex, [d] => .ok (.text (d.textBytes.flatMap hexByte))
  | char, ds =>
    .ok (.ofString (String.ofList (ds.map fun d => Char.ofNat d.asInteger.toInt.toNat)))
  | unicode, [d] =>
    .ok (match Utf8.decodeFrom none d.textBytes with
      | [] => .null
      | c :: _ => .integer (Int64.ofNat c.toNat))
  | sign, [d] =>
    .ok (match d.number with
      | .integer n => .integer (if n < 0 then -1 else if n = 0 then 0 else 1)
      | .real x => .integer (if x.isZero then 0 else if x.negative then -1 else 1)
      | _ => .null)
  | like, ds => matchText '%' '_' Char.toLower ds
  | glob, ds => matchText '*' '?' id ds
  | lastInsertRowid, _ => .ok (.integer c.lastRowid)
  | changes, _ => .ok (.integer (Int64.ofNat c.changes))
  | totalChanges, _ => .ok (.integer (Int64.ofNat c.totalChanges))
  | version, _ => .ok (.ofString Engine.version)
  | _, _ => .ok .null

end Scalar

/-! ## Functions of many rows -/

/-- A built-in function of many rows. -/
inductive Aggregate where
  | count
  | sum
  | total
  | average
  | min
  | max
  | concat
  deriving Repr, DecidableEq

namespace Aggregate

/-- The functions with their names and argument counts. -/
def table : List (String × Aggregate × Nat × Option Nat) :=
  [("count", count, 0, some 1), ("sum", sum, 1, some 1), ("total", total, 1, some 1),
    ("avg", average, 1, some 1), ("min", min, 1, some 1), ("max", max, 1, some 1),
    ("group_concat", concat, 1, some 2), ("string_agg", concat, 2, some 2)]

end Aggregate

/-- A sum: exact while it is an integer, else a real with its rounding error. -/
structure Sum where
  rows : Nat
  exact : Int
  approximate : Bool
  overflow : Bool
  high : Binary64
  low : Binary64
  deriving Repr, DecidableEq

namespace Sum

def empty : Sum := ⟨0, 0, false, false, Binary64.zero false, Binary64.zero false⟩

/-- The size of a real. -/
def size (x : Binary64) : Binary64 := Binary64.ofMagnitude false x.magnitude

/-- Adds a real and keeps what rounding lost. -/
def addReal (s : Sum) (x : Binary64) : Sum :=
  let t := s.high.add x
  let lost :=
    if (size x).order < (size s.high).order then (s.high.sub t).add x
    else (x.sub t).add s.high
  { s with high := t, low := s.low.add lost }

/-- The integers that every real near them can hold. -/
def isSmall (n : Int) : Bool := -4503599627370496 < n && n < 4503599627370496

/-- Adds an integer to a real sum; a large one in two parts that are exact. -/
def addInteger (s : Sum) (n : Int) : Sum :=
  if isSmall n then s.addReal (Binary64.ofInt n)
  else
    let small := n.tmod 16384
    (s.addReal (Binary64.ofInt small)).addReal (Binary64.ofInt (n - small))

/-- Goes over to reals. -/
def makeReal (s : Sum) : Sum :=
  let small := if isSmall s.exact then 0 else s.exact.tmod 16384
  { s with
    approximate := true
    high := Binary64.ofInt (s.exact - small)
    low := Binary64.ofInt small }

/-- Adds a value. -/
def add (s : Sum) (d : Datum) : Sum :=
  let d := match d with
    | .text bytes => (Datum.wholeNumber? bytes).getD d
    | d => d
  match d with
  | .null => s
  | .integer n =>
    let s := { s with rows := s.rows + 1 }
    if s.approximate then s.addInteger n.toInt
    else if Datum.fitsInteger (s.exact + n.toInt) then { s with exact := s.exact + n.toInt }
    else { s.makeReal.addInteger n.toInt with overflow := true }
  | d =>
    let s := { s with rows := s.rows + 1 }
    if s.approximate then { s.addReal d.asReal with overflow := false }
    else s.makeReal.addReal d.asReal

/-- The sum as a real. -/
def real (s : Sum) : Binary64 :=
  if !s.approximate then Binary64.ofInt s.exact
  else if s.low.isFinite then s.high.add s.low
  else s.high

end Sum

/-- The state of a built-in aggregate. -/
inductive Accumulator where
  | count (rows : Nat)
  | sum (f : Aggregate) (s : Sum)
  | best (better : Ordering) (found : Option Datum)
  | concat (text : Option (List UInt8))
  deriving Repr, DecidableEq

namespace Accumulator

/-- The state before any row. -/
def ofAggregate : Aggregate → Accumulator
  | .count => count 0
  | .min => best .lt none
  | .max => best .gt none
  | .concat => concat none
  | f => sum f Sum.empty

/-- Takes one row. -/
def step (a : Accumulator) (args : List Datum) : Accumulator :=
  match a, args with
  | count n, [] => count (n + 1)
  | count n, d :: _ => if d.isNull then a else count (n + 1)
  | sum f s, d :: _ => sum f (s.add d)
  | best better found, d :: _ =>
    if d.isNull then a
    else
      match found with
      | none => best better (some d)
      | some b => if Datum.compare .binary d b == better then best better (some d) else a
  | concat text, d :: rest =>
    if d.isNull then a
    else
      let mark := match rest with
        | [] => [44]
        | m :: _ => m.textBytes
      match text with
      | none => concat (some d.textBytes)
      | some t => concat (some (t ++ mark ++ d.textBytes))
  | a, [] => a

/-- The result for the rows taken. -/
def finish : Accumulator → Except String Datum
  | count n => .ok (.integer (Int64.ofNat n))
  | best _ found => .ok (found.getD .null)
  | concat text => .ok ((text.map Datum.text).getD .null)
  | sum .total s => .ok (Datum.ofReal s.real)
  | sum .average s =>
    .ok (if s.rows = 0 then .null else Datum.ofReal (s.real.div (Binary64.ofInt s.rows)))
  | sum _ s =>
    if s.rows = 0 then .ok .null
    else if !s.approximate then .ok (.integer (Int64.ofInt s.exact))
    else if s.overflow then .error "integer overflow"
    else .ok (Datum.ofReal s.real)

end Accumulator

end HostSql.Engine
