/-!
# UTF-8 bytes and text

Text inside the engine is a byte sequence; text handed to the host is a `String`. `encode` goes one
way. `decode` goes the other and never fails: every maximal ill-formed run of bytes becomes one
replacement character. `textOf` is how any engine byte sequence reaches the host: the bytes before
the first zero byte, decoded.
-/

namespace HostSql.Utf8

/-- The bytes of a text. -/
def encodeChars (cs : List Char) : List UInt8 := cs.flatMap String.utf8EncodeChar

/-- The bytes of a text. -/
def encode (s : String) : List UInt8 := encodeChars s.toList

/-- How many bytes a text takes. -/
def size : List Char → Nat
  | [] => 0
  | c :: cs => c.utf8Size + size cs

/-- What stands after so many bytes of a text. Nothing does where a text is shorter, or where no
character begins. -/
def dropBytes? : (offset : Nat) → List Char → Option (List Char)
  | 0, cs => some cs
  | _ + 1, [] => none
  | n + 1, c :: cs => if c.utf8Size ≤ n + 1 then dropBytes? (n + 1 - c.utf8Size) cs else none

/-- The character that stands for an ill-formed run of bytes. -/
def replacement : Char := '\uFFFD'

/-- A character of which some bytes have been read: the bits so far, how many bytes are missing,
and the range in which the next one must lie. -/
structure Pending where
  bits : Nat
  missing : Nat
  low : UInt8
  high : UInt8
  deriving Repr, DecidableEq

/-- What a byte begins when no character is pending. -/
inductive Lead where
  | char (c : Char)
  | pending (p : Pending)
  | illFormed
  deriving Repr, DecidableEq

/-- Classifies a first byte. The ranges of the second byte exclude overlong forms, surrogates and
values past the last code point. -/
def Lead.of (b : UInt8) : Lead :=
  let n := b.toNat
  if n < 0x80 then .char (Char.ofNat n)
  else if n < 0xC2 then .illFormed
  else if n < 0xE0 then .pending ⟨n - 0xC0, 1, 0x80, 0xBF⟩
  else if n = 0xE0 then .pending ⟨0, 2, 0xA0, 0xBF⟩
  else if n = 0xED then .pending ⟨0xD, 2, 0x80, 0x9F⟩
  else if n < 0xF0 then .pending ⟨n - 0xE0, 2, 0x80, 0xBF⟩
  else if n = 0xF0 then .pending ⟨0, 3, 0x90, 0xBF⟩
  else if n < 0xF4 then .pending ⟨n - 0xF0, 3, 0x80, 0xBF⟩
  else if n = 0xF4 then .pending ⟨4, 3, 0x80, 0x8F⟩
  else .illFormed

/-- Whether `b` may continue the pending character. -/
def Pending.accepts (p : Pending) (b : UInt8) : Bool := p.low ≤ b && b ≤ p.high

/-- The pending character with the bits of `b` added. -/
def Pending.extend (p : Pending) (b : UInt8) : Pending :=
  ⟨p.bits * 64 + (b.toNat - 0x80), p.missing - 1, 0x80, 0xBF⟩

/-- Decodes the bytes that follow a pending character, or that start afresh. A byte that cannot
continue the pending character ends it with one replacement character and is read again. -/
def decodeFrom : Option Pending → List UInt8 → List Char
  | none, [] => []
  | some _, [] => [replacement]
  | none, b :: rest =>
    match Lead.of b with
    | .char c => c :: decodeFrom none rest
    | .pending p => decodeFrom (some p) rest
    | .illFormed => replacement :: decodeFrom none rest
  | some p, b :: rest =>
    if p.accepts b then
      if p.missing ≤ 1 then Char.ofNat (p.extend b).bits :: decodeFrom none rest
      else decodeFrom (some (p.extend b)) rest
    else
      match Lead.of b with
      | .char c => replacement :: c :: decodeFrom none rest
      | .pending q => replacement :: decodeFrom (some q) rest
      | .illFormed => replacement :: replacement :: decodeFrom none rest

/-- Decodes bytes, one replacement character for each maximal ill-formed run. -/
def decode (bytes : List UInt8) : String := String.ofList (decodeFrom none bytes)

/-- The bytes before the first zero byte. -/
def beforeNul (bytes : List UInt8) : List UInt8 := bytes.takeWhile (· != 0)

/-- The text a zero-terminated reader finds in `bytes`. -/
def textOf (bytes : List UInt8) : String := decode (beforeNul bytes)

/-- The position of the first zero byte of a text, counted in bytes. -/
def nulPosition? (s : String) : Option Nat := (encode s).findIdx? (· == 0)

/-- A text up to its first NUL character. -/
def cutAtNul (s : String) : String := String.ofList (s.toList.takeWhile (· != '\x00'))

end HostSql.Utf8
