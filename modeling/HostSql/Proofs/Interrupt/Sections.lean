import HostSql.Proofs.Connection.Life

/-!
# Connections and interrupt handles on several threads

A connection is used by its owner; its interrupt handles may be used by anybody, at any time. What
they share is a cell under a lock, which holds the engine's connection as long as that may be
interrupted. A handle looks into the cell and asks the engine without giving up the lock. The owner
who closes or drops the connection empties the cell first, which takes the lock, and then has the
engine release it.

A `Section` is a piece of work that no other thread can see half done. Between two sections
anything may happen to the world: the rest of the owner's work, other connections, other threads.
`InterruptsLawful` says what is expected of sections in any order.
-/

namespace HostSql

open Beside

variable {σ α : Type}

/-! ## What is asked of the engine -/

/-- A request to the engine that is about one of its connections as a whole. -/
inductive ConnectionAsk where
  | interrupt (connection : Nat)
  | disconnect (connection : Nat)
  deriving Repr, DecidableEq

/-- An engine beside something that it does not know of. -/
def Native.beside {γ : Type} (n : Native σ) : Native (Beside σ γ) where
  connect path flags := outside (n.connect path flags)
  disconnect k := outside (n.disconnect k)
  isOpen k := outside (n.isOpen k)
  prepare k sql := outside (n.prepare k sql)
  execute k sql := outside (n.execute k sql)
  changes k := outside (n.changes k)
  lastInsertRowId k := outside (n.lastInsertRowId k)
  interrupt k := outside (n.interrupt k)
  setPolicy k policy := outside (n.setPolicy k policy)
  register k r := outside (n.register k r)
  declareType record type := outside (n.declareType record type)
  step s := outside (n.step s)
  columnCount s := outside (n.columnCount s)
  columnName s column := outside (n.columnName s column)
  columnType s column := outside (n.columnType s column)
  columnText s column := outside (n.columnText s column)
  finalize s := outside (n.finalize s)
  log r := outside (n.log r)

/-- Takes down a request and makes it. -/
def asking (ask : ConnectionAsk) (x : StateM σ α) :
    StateM (Beside σ (List ConnectionAsk)) α := do
  modifyOwn (· ++ [ask])
  outside x

/-- An engine of which it is taken down when it is asked to interrupt or release a connection. -/
def Native.asking (n : Native σ) : Native (Beside σ (List ConnectionAsk)) :=
  { n.beside with
    interrupt := fun k => HostSql.asking (.interrupt k) (n.interrupt k)
    disconnect := fun k => HostSql.asking (.disconnect k) (n.disconnect k) }

/-! ## Sharing -/

/-- How the use of a connection ends. -/
inductive Ending where
  | close
  | drop
  deriving Repr, DecidableEq

/-- A connection as it is shared. -/
structure Share where
  /-- The value of the owner. -/
  value : Connection
  /-- What the handles see, under the lock. -/
  cell : Option Nat
  /-- The value as it was when the cell was emptied, until the engine is asked to release it. -/
  leaving? : Option (Connection × Ending)

/-- A handle, and the place of the share that it belongs to. -/
structure SharedHandle where
  handle : InterruptHandle
  share : Nat

/-- All connections and handles that there have been, in the order in which they came up. -/
structure Sharing where
  shares : List Share
  handles : List SharedHandle

/-- Before anything is shared. -/
def Sharing.empty : Sharing := ⟨[], []⟩

namespace Sharing

def setShare (s : Sharing) (i : Nat) (share : Share) : Sharing :=
  { s with shares := s.shares.set i share }

def addHandle (s : Sharing) (h : SharedHandle) : Sharing := { s with handles := s.handles ++ [h] }

/-- The cell that a handle looks into. -/
def cellOf (s : Sharing) (h : SharedHandle) : Option Nat := (s.shares[h.share]?).bind (·.cell)

end Sharing

/-! ## Sections -/

/-- A piece of work of one thread. Connections and handles go by their places. -/
inductive Section where
  | openNew (how : Opening)
  /-- Any call but `close`. -/
  | call (i : Nat) (request : ConnectionCall)
  | takeHandle (i : Nat)
  | cloneHandle (j : Nat)
  /-- An interruption through a handle; the lock is held to its end. -/
  | interrupt (j : Nat)
  /-- Closing or dropping, up to the point where the lock has been given back. -/
  | beginEnding (i : Nat) (ending : Ending)
  /-- The rest of it. -/
  | finishEnding (i : Nat)

/-- How a section went. -/
inductive SectionAnswer where
  | opened (answer : Except Error Connection)
  | called (answer : ConnectionAnswer)
  | taken (answer : Except Error InterruptHandle)
  | cloned
  | interrupted
  | emptied
  | ended
  /-- There is no such connection or handle, or it is not in the way to do this. -/
  | absent

/-- The rest of an ending. -/
def Ending.finish (n : Native σ) (c : Connection) : Ending → StateM σ Unit
  | close => (fun _ => ()) <$> c.close n
  | drop => c.drop n

/-- Does the work of a section. -/
def Section.act (n : Native σ) (s : Sharing) : Section → StateM σ (SectionAnswer × Sharing)
  | openNew how => do
    match ← how.run n with
    | .error e => return (.opened (.error e), s)
    | .ok c => return (.opened (.ok c), { s with shares := s.shares ++ [⟨c, c.native?, none⟩] })
  | call i request =>
    match s.shares[i]?, request.isClose with
    | some share, false => do
      let (answer, c) ← share.value.perform n request
      return (.called answer, s.setShare i { share with value := c })
    | _, _ => return (.absent, s)
  | takeHandle i =>
    match s.shares[i]? with
    | none => return (.absent, s)
    | some share =>
      match share.value.interruptHandle with
      | .error e => return (.taken (.error e), s)
      | .ok h => return (.taken (.ok h), s.addHandle ⟨h, i⟩)
  | cloneHandle j =>
    match s.handles[j]? with
    | none => return (.absent, s)
    | some h => return (.cloned, s.addHandle h)
  | interrupt j =>
    match s.handles[j]? with
    | none => return (.absent, s)
    | some h => do
      if let some k := s.cellOf h then n.interrupt k
      return (.interrupted, s)
  | beginEnding i ending =>
    match s.shares[i]? with
    | none => return (.absent, s)
    | some share =>
      match share.value.native? with
      | none => return (.absent, s)
      | some _ =>
        return (.emptied, s.setShare i
          ⟨{ share.value with native? := none }, none, some (share.value, ending)⟩)
  | finishEnding i =>
    match s.shares[i]? with
    | none => return (.absent, s)
    | some share =>
      match share.leaving? with
      | none => return (.absent, s)
      | some (c, ending) => do
        ending.finish n c
        return (.ended, s.setShare i { share with leaving? := none })

/-- A section, after the world has changed in some way. -/
structure SectionTurn (σ : Type) where
  meanwhile : σ → σ
  part : Section

/-- What there is to tell of a section. -/
structure SectionEntry (σ : Type) where
  part : Section
  before : σ
  asks : List ConnectionAsk
  answer : SectionAnswer
  after : σ

/-- What a section asks of the engine. -/
def Section.asks (n : Native σ) (s : Sharing) (part : Section) (w : σ) : List ConnectionAsk :=
  ((part.act n.asking s).run ⟨w, []⟩).2.own

/-- Takes a turn. -/
def SectionTurn.take (n : Native σ) (s : Sharing) (t : SectionTurn σ) :
    StateM σ (SectionEntry σ × Sharing) := do
  modify t.meanwhile
  let before ← get
  let (answer, s') ← t.part.act n s
  return (⟨t.part, before, t.part.asks n s before, answer, ← get⟩, s')

/-- Takes one turn after the other. -/
def takeSections (n : Native σ) (s : Sharing) :
    List (SectionTurn σ) → StateM σ (List (SectionEntry σ) × Sharing)
  | [] => return ([], s)
  | t :: rest => do
    let (entry, s) ← t.take n s
    let (entries, s) ← takeSections n s rest
    return (entry :: entries, s)

/-! ## What is expected -/

namespace SectionEntry

/-- The engine's connection of a value that was opened. -/
def opened? (e : SectionEntry σ) : Option Nat :=
  match e.answer with
  | .opened (.ok c) => c.native?
  | _ => none

/-- Whether the cell of a connection was emptied. -/
def empties (i : Nat) (e : SectionEntry σ) : Bool :=
  match e.part, e.answer with
  | .beginEnding j _, .emptied => j == i
  | _, _ => false

/-- Whether the engine was asked to release a connection that is closed or dropped. -/
def releases (i : Nat) (e : SectionEntry σ) : Bool :=
  match e.part with
  | .finishEnding j => j == i && !e.asks.isEmpty
  | _ => false

/-- The place of the connection that a new handle belongs to, given those of the earlier ones. -/
def source? (sources : List Nat) (e : SectionEntry σ) : Option Nat :=
  match e.part, e.answer with
  | .takeHandle i, .taken (.ok _) => some i
  | .cloneHandle j, .cloned => sources[j]?
  | _, _ => none

end SectionEntry

/-- The engine's connections of the values that were opened, in the order of their opening. -/
def numbersIn (entries : List (SectionEntry σ)) : List Nat := entries.filterMap (·.opened?)

/-- The places of the connections that the handles were taken from. A clone belongs to the same
connection. -/
def sourcesIn (entries : List (SectionEntry σ)) : List Nat :=
  entries.foldl (fun sources e => sources ++ (e.source? sources).toList) []

/-- What is expected of an interruption through a handle of a connection, given what happened
before. -/
structure InterruptLawful (n : Native σ) (earlier : List (SectionEntry σ)) (i : Nat)
    (e : SectionEntry σ) : Prop where
  /-- The engine is asked for nothing but to interrupt this connection, and only if it has not been
  asked to release it. -/
  aimed : ∀ ask ∈ e.asks, ∃ k, (numbersIn earlier)[i]? = some k ∧ ask = .interrupt k ∧
    ∀ e' ∈ earlier, e'.releases i = false
  /-- After that nothing changes, and neither does it from the moment when the cell is emptied. -/
  inert : (∃ e' ∈ earlier, e'.empties i = true ∨ e'.releases i = true) →
    e.asks = [] ∧ e.after = e.before
  /-- Until then the engine is asked. -/
  live : (∀ e' ∈ earlier, e'.empties i = false) → ∃ k, (numbersIn earlier)[i]? = some k ∧
    e.asks = [.interrupt k] ∧ e.after = ((n.interrupt k).run e.before).2

/-- What is expected of a section, given what happened before. -/
structure SectionLawful (n : Native σ) (earlier : List (SectionEntry σ)) (e : SectionEntry σ) :
    Prop where
  interrupt : ∀ j i, e.part = .interrupt j → (sourcesIn earlier)[j]? = some i →
    InterruptLawful n earlier i e
  /-- Every handle belongs to some connection; there is nothing to do through one that is not there.
  -/
  absent : ∀ j, e.part = .interrupt j → (sourcesIn earlier)[j]? = none →
    e.answer = .absent ∧ e.asks = [] ∧ e.after = e.before
  /-- A handle knows the connection that it is taken from. -/
  taken : ∀ i h, e.part = .takeHandle i → e.answer = .taken (.ok h) →
    (numbersIn earlier)[i]? = some h.connection
  /-- The engine is asked to release a connection only after its cell has been emptied. -/
  release : ∀ i, e.releases i = true → ∃ k, (numbersIn earlier)[i]? = some k ∧
    e.asks = [.disconnect k] ∧ ∃ e' ∈ earlier, e'.empties i = true

/-- What is expected of all sections. -/
def InterruptsLawful (n : Native σ) (entries : List (SectionEntry σ)) : Prop :=
  ∀ earlier e later, entries = earlier ++ e :: later → SectionLawful n earlier e

end HostSql
