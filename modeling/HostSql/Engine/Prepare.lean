import HostSql.Engine.CompileCommand
import HostSql.Engine.Transaction

/-!
# Preparing statements

`prepare` compiles the first command of a text into a statement and says how much of the text it
used. The catalog is read when a command first needs it, and read again when a command makes no
sense under a catalog that has since changed.
-/

namespace HostSql.Engine

open Sql

variable {H : Type}

/-- Forgets an interruption that found nothing to interrupt. -/
def settleInterrupt (connection : Nat) : StateM (World H) Unit := do
  if !(← get).isActive connection then
    World.modifyConnection connection fun c => { c with interrupted := false }

/-- Compiles a command, reading the catalog as often as need be. -/
def compileWithCatalog (scope : Scope H) (command : Command) : Nat → Run H Program
  | 0 => throw .catalogChanged
  | left + 1 => do
    let conn ← connectionOf scope.connection
    match compileCommand ⟨conn.functions, conn.catalog, conn.writableCatalog⟩ command with
    | .ok program => return program
    | .error fault =>
      if conn.catalog.isNone then
        if fault = .catalogChanged then
          let _ ← catalogOf scope
          compileWithCatalog scope command left
        else throw fault
      else if ← catalogIsCurrent scope then throw fault
      else
        forgetCatalog (H := H) scope.connection
        compileWithCatalog scope command left

/-- How often the catalog is read for one command. -/
def maxCatalogReads : Nat := 4

/-- Settings take effect when their command is compiled. -/
def applySetting (connection : Nat) : Command → StateM (World H) Unit
  | .setting name (some value) =>
    if Text.sameName name writableCatalogSetting then do
      expireStatements connection
      World.modifyConnection connection fun c => { c with writableCatalog := isOn value }
    else return
  | _ => return

/-- Reads the first command of a text and compiles it. -/
def compileText (scope : Scope H) (text : List Char) : Run H (Option Program × Nat) := do
  settleInterrupt (H := H) scope.connection
  let conn ← connectionOf scope.connection
  if conn.interrupted && pausesInFirst text then throw .interrupted
  match nextCommand text with
  | .error e => throw (.general e.message)
  | .ok found =>
    match found.command? with
    | none => return (none, found.stop)
    | some command =>
      let program ← compileWithCatalog scope command maxCatalogReads
      applySetting (H := H) scope.connection command
      return (some program, found.stop)

/-- Compiles the first command of a text. The result is the statement, if the text holds a command,
and the length of the text used up. -/
def prepare (hooks : Hooks H) (connection : Nat) (text : List Char) :
    StateM (World H) (Except Fault (Option Nat × Nat)) := do
  let scope : Scope H := ⟨connection, 0, hooks⟩
  let result ← (compileText scope text).run
  resetAsked connection
  match result with
  | .error fault => return .error fault
  | .ok (none, stop) => return .ok (none, stop)
  | .ok (some program, stop) =>
    let n ← World.fresh
    let statement : Statement :=
      { connection, program, text := text.take stop, expired := false, phase := .ready,
        cursor := .done, row := [], failure := none, tripped := false }
    modify fun w => { w with statements := Assoc.set w.statements n statement }
    return .ok (some n, stop)

end HostSql.Engine
