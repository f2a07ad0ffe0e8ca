import HostSql.Engine.Execution
import HostSql.Engine.Location

/-!
# Opening, closing and registering

The operations on whole connections: opening one on a file or on private memory, closing it, and
registering host functions. A function may not take the place of another while its connection
executes anything, because the other one may be running.
-/

namespace HostSql.Engine

variable {H : Type}

/-- The volume of a file, created if it may be. -/
def fileVolume (file : String) (flags : OpenFlags) : Run H Nat := do
  match (← get).volumes.find? fun v => v.2.path == some file with
  | some (n, _) => return n
  | none =>
    if flags.contains .create then
      let n ← World.fresh (H := H)
      modify fun w => { w with volumes := Assoc.set w.volumes n ⟨some file, .bytes []⟩ }
      return n
    else throw .cannotOpen

/-- Opens a connection. -/
def connect (path : String) (flags : OpenFlags) : Run H Nat := do
  let place ← (Location.ofPath path flags : Except Fault Location)
  let volume ← match place.file with
    | some file => fileVolume file place.flags
    | none => do
      let n ← World.fresh (H := H)
      modify fun w => { w with volumes := Assoc.set w.volumes n ⟨none, .bytes []⟩ }
      pure n
  let n ← World.fresh (H := H)
  modify fun w => { w with
    connections := Assoc.set w.connections n (.opened volume (place.flags.contains .readOnly)) }
  return n

/-- What is left when a connection could not be opened: one that leads to no volume, until it is
closed. -/
def connectNowhere : StateM (World H) Nat := do
  let n ← World.fresh
  modify fun w => { w with connections := Assoc.set w.connections n (.opened n false) }
  return n

/-- Closes a connection. Its draft and its locks go with it, and so does private memory. -/
def disconnect (connection : Nat) : StateM (World H) Unit :=
  modify fun w =>
    match w.connections.get? connection with
    | none => w
    | some conn =>
      let isPrivate := ((w.volumes.get? conn.volume).map (·.path.isNone)).getD false
      { w with
        connections := Assoc.erase w.connections connection
        statements := w.statements.filter fun s => s.2.connection != connection
        volumes := if isPrivate then Assoc.erase w.volumes conn.volume else w.volumes }

/-- Stores bytes in the file that a path leads to. -/
def writeFile (path : String) (bytes : List UInt8) : StateM (World H) Unit := do
  match Location.entryAt path with
  | .file file =>
    match (← get).volumes.find? fun v => v.2.path == some file with
    | some (n, _) =>
      modify fun w => { w with
        volumes := Assoc.update w.volumes n fun v => { v with content := .bytes bytes } }
    | none =>
      let n ← World.fresh
      modify fun w => { w with volumes := Assoc.set w.volumes n ⟨some file, .bytes bytes⟩ }
  | .directory | .nothing => return

/-- The largest number of arguments, and the longest name in bytes. -/
def maxArity : Int := Sql.maxArguments
def maxFunctionName : Nat := 255

/-- Whether two functions are of the same name and number of arguments. -/
def HostFunction.replaces (f g : HostFunction) : Bool :=
  Text.sameName f.name g.name && f.arity == g.arity

/-- Whether a built-in function has exactly this name and number of arguments. -/
def isBuiltin (f : HostFunction) : Bool :=
  builtins.any fun (name, _, least, most) =>
    Text.sameName name f.name &&
      (match most with
        | some most => (least : Int) ≤ f.arity && f.arity ≤ (most : Int)
        | none => f.arity == -1)

/-- Registers a host function; the result is a code. -/
def register (connection : Nat) (f : HostFunction) : StateM (World H) Int32 := do
  if f.arity < -1 || maxArity < f.arity || maxFunctionName < (Utf8.encode f.name).length then
    return ResultCode.misuse
  match ← World.connection? connection with
  | none => return ResultCode.misuse
  | some conn =>
    let general := conn.functions.any fun g => Text.sameName g.name f.name && g.arity == -1
    if conn.functions.any (f.replaces ·) || (!general && isBuiltin f) then
      if (← get).isActive connection then return ResultCode.busy
      expireStatements connection
    World.modifyConnection connection fun c =>
      { c with functions := c.functions.filter (fun g => !f.replaces g) ++ [f] }
    return ResultCode.ok

/-- Asks a connection to stop what it is executing. -/
def interrupt (connection : Nat) : StateM (World H) Unit :=
  World.modifyConnection connection fun c => { c with interrupted := true }

/-- Says whether the host wants to be asked about locks. -/
def setAsksHost (connection : Nat) (asks : Bool) : StateM (World H) Unit :=
  World.modifyConnection connection fun c => { c with asksHost := asks, asked := some 0 }

end HostSql.Engine
