/-!
# Case folding and blanks

Names are compared after folding the twenty-six ASCII capitals; no other letter has a second
form. Blanks around a numeral are the characters of Unicode's White_Space property.
-/

namespace HostSql.Text

/-- A name with its ASCII capitals lowered. -/
def foldCase (s : String) : String := String.ofList (s.toList.map Char.toLower)

/-- A name with its ASCII small letters raised. -/
def raiseCase (s : String) : String := String.ofList (s.toList.map Char.toUpper)

/-- Whether two names are the same name. -/
def sameName (a b : String) : Bool := foldCase a == foldCase b

/-- The characters with Unicode's White_Space property. -/
def isBlank (c : Char) : Bool :=
  let n := c.toNat
  (9 ≤ n && n ≤ 13) || n == 0x20 || n == 0x85 || n == 0xA0 || n == 0x1680
    || (0x2000 ≤ n && n ≤ 0x200A) || n == 0x2028 || n == 0x2029 || n == 0x202F
    || n == 0x205F || n == 0x3000

/-- Removes the leading characters of a class. -/
def trimLeft (p : Char → Bool) (cs : List Char) : List Char := cs.dropWhile p

/-- Removes the trailing characters of a class. -/
def trimRight (p : Char → Bool) (cs : List Char) : List Char :=
  (cs.reverse.dropWhile p).reverse

/-- Removes the leading and trailing characters of a class. -/
def trim (p : Char → Bool) (cs : List Char) : List Char := trimRight p (trimLeft p cs)

end HostSql.Text
