import HostSql.Error

/-!
# Open flags

The ways to open a database are bits of an integer mode. `ofMode` accepts a mode whose bits are all
known, whose access bits name one of three accesses, and which does not ask for two threading modes
at once; zero stands for the default.
-/

namespace HostSql

/-- A set of open flags. -/
structure OpenFlags where
  bits : Int32
  deriving Repr, DecidableEq

namespace OpenFlags

def readOnly : OpenFlags := ⟨0x1⟩
def readWrite : OpenFlags := ⟨0x2⟩
def create : OpenFlags := ⟨0x4⟩
def uri : OpenFlags := ⟨0x40⟩
def memory : OpenFlags := ⟨0x80⟩
def noMutex : OpenFlags := ⟨0x8000⟩
def fullMutex : OpenFlags := ⟨0x10000⟩

/-- The flags of either set. -/
def union (a b : OpenFlags) : OpenFlags := ⟨a.bits ||| b.bits⟩

/-- Whether all bits of `b` are set in `a`. -/
def contains (a b : OpenFlags) : Bool := a.bits &&& b.bits == b.bits

/-- Reading and writing, creating the file if there is none, with a mutex. -/
def default : OpenFlags := (readWrite.union create).union fullMutex

/-- The flags with their names, lowest bit first. -/
def named : List (String × OpenFlags) :=
  [("READ_ONLY", readOnly), ("READ_WRITE", readWrite), ("CREATE", create), ("URI", uri),
    ("MEMORY", memory), ("NO_MUTEX", noMutex), ("FULL_MUTEX", fullMutex)]

/-- The bits that say how the database may be used. -/
def accessBits : Int32 := readOnly.bits ||| readWrite.bits ||| create.bits

/-- The bits that choose a threading mode. -/
def mutexBits : Int32 := noMutex.bits ||| fullMutex.bits

/-- All bits with a meaning. -/
def knownBits : Int32 := accessBits ||| uri.bits ||| memory.bits ||| mutexBits

/-- The 32 bits in hexadecimal. -/
def hexText (n : Int32) : String := "0x" ++ String.ofList (Nat.toDigits 16 n.toUInt32.toNat)

/-- Whether the access bits name one of the three accesses. -/
def isAccess (bits : Int32) : Bool :=
  bits == readOnly.bits || bits == readWrite.bits || bits == readWrite.bits ||| create.bits

/-- Reads an open mode. -/
def ofMode (mode : Int32) : Except Error OpenFlags :=
  if mode == 0 then .ok default
  else if mode &&& ~~~knownBits != 0 then
    .error (.opening bindingError
      ("unrecognized open mode bits " ++ hexText (mode &&& ~~~knownBits)))
  else if !isAccess (mode &&& accessBits) then
    .error (.opening bindingError ("invalid access mode " ++ hexText (mode &&& accessBits)
      ++ " in open mode " ++ hexText mode))
  else if mode &&& mutexBits == mutexBits then
    .error (.opening bindingError ("conflicting threading modes in open mode " ++ hexText mode))
  else .ok ⟨mode⟩

end OpenFlags

end HostSql
