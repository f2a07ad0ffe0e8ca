import HostSql.Session.Step
import HostSql.Proofs.Matching.Opening
import HostSql.Proofs.Matching.Library

/-!
# Parties to a session

A `Party` has some of a session's names for itself. Closures and steps are confined to it when every
name that they use is one of its own. `HostMatched` extends the matching of worlds to their hosts: what
one host holds under the party's names, and under numbers that are matched, the other holds as well.
-/

namespace HostSql

open Engine (MayOpen)

/-- Some names of connections, statements and interrupt handles. -/
structure Party where
  connection : String → Prop
  statement : String → Prop
  handle : String → Prop

/-! ## Confinement -/

mutual

/-- A closure that uses only the names of a party, whatever it is answered. -/
def Program.Confined (p : Party) : Program → Prop
  | .finish _ => True
  | .setResult _ next => ∀ answer, (next answer).Confined p
  | .setError _ next => next.Confined p
  | .readState next => ∀ answer, (next answer).Confined p
  | .insert _ _ next => ∀ answer, (next answer).Confined p
  | .readCount next => ∀ answer, (next answer).Confined p
  | .readType next => ∀ answer, (next answer).Confined p
  | .emit _ next => next.Confined p
  | .interrupt handle next => p.handle handle ∧ next.Confined p
  | .execute connection _ next => p.connection connection ∧ ∀ answer, (next answer).Confined p
  | .query connection _ next => p.connection connection ∧ ∀ answer, (next answer).Confined p
  | .declare connection _ _ next => p.connection connection ∧ ∀ answer, (next answer).Confined p
  | .register connection _ _ callbacks next =>
    p.connection connection ∧ callbacks.Confined p ∧ ∀ answer, (next answer).Confined p

/-- Callbacks whose closures use only the names of a party. -/
def Callbacks.Confined (p : Party) : Callbacks → Prop
  | .scalar body => ∀ args, (body args).Confined p
  | .aggregate step final => (∀ args, (step args).Confined p) ∧ final.Confined p

end

/-- A busy closure that uses only the names of a party. -/
def BusyProgram.Confined (p : Party) : BusyProgram → Prop
  | .answer _ => True
  | .panic => True
  | .emit _ next => next.Confined p
  | .execute connection _ next => p.connection connection ∧ ∀ answer, (next answer).Confined p

def BusyPolicy.Confined (p : Party) : BusyPolicy → Prop
  | .handler _ callback => ∀ resource attempt, (callback resource attempt).Confined p
  | .timeout _ => True

def BusyScript.Confined (p : Party) (b : BusyScript) : Prop :=
  ∀ run ∈ b.executeAt, p.connection run.2.1

/-- A path that may be opened in a mode. -/
def MayOpenMode (files : Prop) (path : String) (mode : Int32) : Prop :=
  ∀ flags, OpenFlags.ofMode mode = .ok flags → MayOpen files path flags

/-- A step that uses only the names of a party, and files only if it may. -/
def SessionStep.Confined (p : Party) (files : Prop) : SessionStep → Prop
  | .openDatabase connection place mode =>
    p.connection connection ∧ MayOpenMode files place mode
  | .openMemory connection | .close connection | .dropConnection connection
  | .isClosed connection | .path connection | .showConnection connection => p.connection connection
  | .showStatement statement | .step statement | .finalize statement
  | .dropStatement statement => p.statement statement
  | .compile connection _ statement => p.connection connection ∧ p.statement statement
  | .query connection _ | .call connection _ _ | .aggregate connection _ _ _ _
  | .execute connection _ | .changes connection | .lastInsertRowId connection
  | .interrupt connection | .declare connection _ _ | .busyTimeout connection _ =>
    p.connection connection
  | .interruptThrough handle => p.handle handle
  | .takeHandle connection handle => p.connection connection ∧ p.handle handle
  | .register connection _ _ callbacks => p.connection connection ∧ callbacks.Confined p
  | .busyHandler connection handler => p.connection connection ∧ ∀ b ∈ handler, b.Confined p
  | .writeFile _ _ => files

/-- What a busy script does stays within the names of a party. -/
theorem BusyScript.callback_confined {p : Party} {b : BusyScript} (h : b.Confined p)
    (resource : String) (attempt : UInt32) : (b.callback resource attempt).Confined p := by
  show (b.proceed attempt).Confined p
  unfold BusyScript.proceed
  split
  · trivial
  · split
    next due connection sql hdue =>
      split
      · exact ⟨h _ hdue, fun _ => trivial⟩
      · trivial
    · trivial

/-! ## Matched hosts -/

open Engine (Matching)

/-- What a host holds apart from what is matched. -/
structure HostRest where
  records : Assoc Nat FunctionRecord
  policies : Assoc Nat BusyPolicy
  connections : Assoc String Connection
  handles : Assoc String InterruptHandle
  statements : Assoc String (String × Statement)

/-- What is shared: how the worlds are matched, whose names are, and the rests of the hosts. -/
structure Holding extends Matching where
  party : Party
  host : HostRest
  host' : HostRest

/-- A name of the party, which stands for itself. -/
def Named (P : String → Prop) (n n' : String) : Prop := P n ∧ n = n'

theorem Named.oneToOne {P : String → Prop} : OneToOne (Named P) where
  right h h' := h.2.symm.trans h'.2
  left h h' := h.2.trans h'.2.symm

theorem Named.self {P : String → Prop} {n : String} (h : P n) : Named P n n := ⟨h, rfl⟩

namespace Holding

variable (S : Holding)

/-- The same record, with confined closures. -/
def SameRecord (r r' : FunctionRecord) : Prop := r = r' ∧ r.callbacks.Confined S.party

/-- The same policy, with a confined closure. -/
def SamePolicy (b b' : BusyPolicy) : Prop := b = b' ∧ b.Confined S.party

/-- Statements of the same connection of the party. -/
def SameStatement (t t' : String × Statement) : Prop :=
  Named S.party.connection t.1 t'.1 ∧ t.2.Same S.Same t'.2

/-- The rests do not refer to anything that is matched. -/
structure Apart : Prop where
  world : S.toMatching.Apart
  statement : ∀ e ∈ S.host.statements, ¬S.party.connection e.2.1
  statement' : ∀ e ∈ S.host'.statements, ¬S.party.connection e.2.1

end Holding

/-- Hosts in which what is matched is the same but for numbers. -/
structure HostMatched (S : Holding) (h h' : Host) : Prop where
  records : Aligned S.Same S.SameRecord S.host.records S.host'.records h.records h'.records
  policies : Aligned S.Same S.SamePolicy S.host.policies S.host'.policies h.policies h'.policies
  connections : Aligned (Named S.party.connection) (Connection.Same S.Same) S.host.connections
    S.host'.connections h.connections h'.connections
  handles : Aligned (Named S.party.handle) (InterruptHandle.Same S.Same) S.host.handles
    S.host'.handles h.handles h'.handles
  statements : Aligned (Named S.party.statement) S.SameStatement S.host.statements
    S.host'.statements h.statements h'.statements
  events : h.events = h'.events
  log : h.log = h'.log

end HostSql
