import HostSql.OpenFlags
import HostSql.Engine.World

/-!
# Where a database is

A path names a file, private memory, or is a URI that says more: options after its path may change
how the database is opened. `Location.ofPath` finds out which, or what is wrong with the URI.
Files live in one directory without subdirectories, so a path names a file by the last of its
steps, once steps that stay in place or go back are left out.
-/

namespace HostSql.Engine

/-- A database to be opened. -/
structure Location where
  /-- The file; none for private memory. -/
  file : Option String
  flags : OpenFlags
  deriving Repr, DecidableEq

namespace Location

/-- The bytes of a URI's part, with escapes undone; a zero byte ends it. -/
def unescape (cs : List Char) : String :=
  Utf8.textOf (go cs)
where
  go : List Char → List UInt8
    | [] => []
    | '%' :: a :: b :: rest =>
      if Sql.isHexDigit a && Sql.isHexDigit b then
        UInt8.ofNat (16 * Sql.hexDigitValue a + Sql.hexDigitValue b) :: go rest
      else Utf8.encodeChars ['%'] ++ go (a :: b :: rest)
    | c :: rest => Utf8.encodeChars [c] ++ go rest

/-- Splits a text at a character. -/
def splitAt (mark : Char) (cs : List Char) : List Char × List Char :=
  (cs.takeWhile (· != mark), (cs.dropWhile (· != mark)).drop 1)

/-- The pieces of a text between marks. -/
def pieces (mark : Char) : List Char → List (List Char)
  | [] => [[]]
  | c :: rest =>
    if c = mark then [] :: pieces mark rest
    else
      match pieces mark rest with
      | piece :: more => (c :: piece) :: more
      | [] => [[c]]

/-- The options of a URI: names and values, without those that have no name. -/
def options (query : List Char) : List (String × String) :=
  (pieces '&' query).filterMap fun piece =>
    let (name, value) := splitAt '=' piece
    if name.isEmpty then none else some (unescape name, unescape value)

/-- The accesses that the option `mode` may name. -/
def accessModes : List (String × OpenFlags) :=
  [("ro", .readOnly), ("rw", .readWrite), ("rwc", OpenFlags.readWrite.union .create),
    ("memory", .memory)]

/-- The bits that the option `mode` sets. -/
def accessMask : Int32 := OpenFlags.accessBits ||| OpenFlags.memory.bits

/-- Applies one option. -/
def applyOption (flags : OpenFlags) (name value : String) : Except Fault OpenFlags :=
  if name = "mode" then
    match accessModes.lookup value with
    | none => .error (.general ("no such access mode: " ++ value))
    | some mode =>
      if (accessMask &&& flags.bits).toInt < (mode.bits &&& ~~~OpenFlags.memory.bits).toInt then
        .error (.forbidden ("access mode not allowed: " ++ value))
      else .ok ⟨(flags.bits &&& ~~~accessMask) ||| mode.bits⟩
  else if name = "cache" then
    if value = "shared" || value = "private" then .ok flags
    else .error (.general ("no such cache mode: " ++ value))
  else .ok flags

/-- The ways to reach files that are known by name. -/
def fileSystems : List String := ["unix", "unix-dotfile", "unix-excl", "unix-none"]

/-- The authority that names the own machine. -/
def localAuthority : List Char := "localhost".toList

/-- What stands after `file:`. -/
def ofUri (rest : List Char) (flags : OpenFlags) : Except Fault (String × OpenFlags) := do
  let (authority, rest) := match rest with
    | '/' :: '/' :: rest => (rest.takeWhile (· != '/'), rest.dropWhile (· != '/'))
    | rest => ([], rest)
  if !authority.isEmpty && authority != localAuthority then
    throw (.general ("invalid uri authority: " ++ String.ofList authority))
  let (body, _) := splitAt '#' rest
  let (path, query) := splitAt '?' body
  let opts := options query
  let flags ← opts.foldlM (fun flags (name, value) => applyOption flags name value) flags
  if let some (_, system) := opts.reverse.find? (·.1 = "vfs") then
    if !fileSystems.contains system then throw (.general ("no such vfs: " ++ system))
  return (unescape path, flags)

/-- The steps of a path, without those that stay in place. -/
def steps (path : String) : List String :=
  ((pieces '/' path.toList).map String.ofList).filter fun s => s != "" && s != "."

/-- A place reached from the directory: how many levels up, and the names on the way down from
there, the last one first. -/
abbrev Place := Nat × List String

/-- Takes one step. -/
def walk : Place → String → Place
  | (up, []), ".." => (up + 1, [])
  | (up, _ :: names), ".." => (up, names)
  | (up, names), name => (up, name :: names)

/-- The longest name of a file, in bytes. -/
def maxNameLength : Nat := 255

/-- What stands at a place. -/
inductive Entry where
  | file (name : String)
  | directory
  | nothing
  deriving Repr, DecidableEq

/-- What a path leads to. There are no directories but those that lead up, and other parts of the
file system cannot be reached. -/
def entryAt (path : String) : Entry :=
  if path.toList.head? = some '/' then .nothing
  else if (steps path).any fun s => maxNameLength < (Utf8.encode s).length then .nothing
  else
    match (steps path).foldl walk (0, []) with
    | (_, []) => .directory
    | (0, [name]) => .file name
    | (1, [name]) => .file ("../" ++ name)
    | _ => .nothing

/-- The path that stands for private memory. -/
def memoryPath : String := ":memory:"

/-- What a path names. -/
def ofPath (path : String) (flags : OpenFlags) : Except Fault Location := do
  let (name, flags) ←
    if "file:".toList.isPrefixOf path.toList then ofUri (path.toList.drop 5) flags
    else pure (path, flags)
  if name = memoryPath || name.isEmpty || flags.contains .memory then return ⟨none, flags⟩
  match entryAt name with
  | .file file => return ⟨some file, flags⟩
  | .directory => throw (if flags.contains .readOnly then .unreadable else .cannotOpen)
  | .nothing => throw .cannotOpen

end Location

end HostSql.Engine
