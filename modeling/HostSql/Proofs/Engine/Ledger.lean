import HostSql.Engine.Eval
import HostSql.Proofs.Coupling

/-!
# Keeping a ledger of what the host is asked

While the engine executes a statement it asks its host for calls of functions and for the results
of groups. `Hooks.noting` keeps a ledger of these requests beside the host's state, with the world
in which each was made and the host's reply. The ledger changes nothing: what runs with it runs in
the same way without it. Groups that are given up, and questions about locks, are not noted, since
nothing in the end of a statement depends on how they are answered.

Two relations say how a computation without the ledger goes along with the one that keeps it.
`Quiet` ones ask the host for nothing. The others are `Faithful`: what they ask explains how they
end. A computation that ends well got only good replies. One that fails has been given its failure
by the last reply, or has failed for reasons of its own. Both relations go through sequencing, so
what is asked is followed through the engine function by function.
-/

namespace HostSql.Engine

variable {H α β : Type} {hooks : Hooks H}

/-! ## Requests -/

/-- What the engine asks of its host about functions. -/
inductive HostRequest where
  | call (record : Nat) (slot : Option Nat) (args : List Datum)
  | finish (record : Nat) (slot : Option Nat)
  deriving Repr, DecidableEq

/-- The host's answer to a request. -/
def Hooks.answer (hooks : Hooks H) : HostRequest → StateM (World H) Reply
  | .call record slot args => hooks.call record slot args
  | .finish record slot => hooks.finish record slot

/-- An entry of the ledger that is kept for a host: a request and the world in which it was made. -/
structure HostNote (hooks : Hooks H) where
  request : HostRequest
  before : World H

/-- The host's reply to the request of an entry. -/
def HostNote.reply (note : HostNote hooks) : Reply :=
  ((hooks.answer note.request).run note.before).1

/-- Whether the host's reply is no failure. -/
def HostNote.isGood (note : HostNote hooks) : Prop := ∃ d, note.reply.result = .ok d

/-- The failure that a reply is for the engine. -/
def Reply.fault? (reply : Reply) : Option Fault :=
  match reply.result with
  | .ok _ => none
  | .error message => some (.general message)

theorem Reply.fault?_ok {reply : Reply} {d : Datum} (h : reply.result = .ok d) :
    reply.fault? = none := by
  unfold fault?
  rw [h]

theorem Reply.fault?_error {reply : Reply} {message : String}
    (h : reply.result = .error message) : reply.fault? = some (.general message) := by
  unfold fault?
  rw [h]

namespace World

variable {γ : Type}

/-- A world without what is kept beside its host. -/
def plain (t : World (Beside H γ)) : World H :=
  ⟨t.volumes, t.connections, t.statements, t.nextId, t.host.env⟩

theorem plain_connections (t : World (Beside H γ)) : t.plain.connections = t.connections := rfl

theorem plain_statements (t : World (Beside H γ)) : t.plain.statements = t.statements := rfl

theorem plain_volumes (t : World (Beside H γ)) : t.plain.volumes = t.volumes := rfl

/-- A world with something that is kept beside its host. -/
def noted (w : World H) (own : γ) : World (Beside H γ) :=
  ⟨w.volumes, w.connections, w.statements, w.nextId, ⟨w.host, own⟩⟩

end World

/-- A host's state with a ledger beside it, the oldest entry first. -/
abbrev Ledger (hooks : Hooks H) := Beside H (List (HostNote hooks))

/-- A computation on a world with a ledger. -/
abbrev LedgerM (hooks : Hooks H) := StateM (World (Ledger hooks))

/-- Asks the host something that is not noted beside it. -/
def unnoted {γ : Type} (x : StateM (World H) α) : StateM (World (Beside H γ)) α := fun t =>
  let (answer, w) := x.run t.plain
  (answer, w.noted t.host.own)

/-- Asks the host and notes it. -/
def Hooks.note (hooks : Hooks H) (request : HostRequest) : LedgerM hooks Reply :=
  fun t =>
    let (reply, w) := (hooks.answer request).run t.plain
    (reply, w.noted (t.host.own ++ [⟨request, t.plain⟩]))

/-- A host that keeps a ledger of what it is asked. -/
def Hooks.noting (hooks : Hooks H) : Hooks (Ledger hooks) where
  call record slot args := hooks.note (.call record slot args)
  finish record slot := hooks.note (.finish record slot)
  discard record slot := unnoted (hooks.discard record slot)
  busy connection attempt := unnoted (hooks.busy connection attempt)

/-- A scope whose host keeps a ledger. -/
def Scope.noting (scope : Scope H) : Scope (Ledger scope.hooks) :=
  ⟨scope.connection, scope.statement, scope.hooks.noting⟩

theorem Scope.noting_statement (scope : Scope H) : scope.noting.statement = scope.statement := rfl

/-! ## What a ledger must say -/

/-- How requests explain the end of what asked for them, a failure or none: without a failure all
replies were good; a failure among them was the last reply, and `fail` makes the failure of its
message. -/
def Explains {φ : Type} (fail : String → φ) (notes : List (HostNote hooks)) : Option φ → Prop
  | none => ∀ note ∈ notes, note.isGood
  | some e => (∀ note ∈ notes, note.isGood) ∨
      ∃ earlier last message, notes = earlier ++ [last] ∧ (∀ note ∈ earlier, note.isGood) ∧
        last.reply.result = .error message ∧ e = fail message

namespace Explains

variable {φ : Type} {fail : String → φ} {first notes : List (HostNote hooks)} {failure? : Option φ}

/-- Good replies explain every end. -/
theorem good (h : ∀ note ∈ notes, note.isGood) : Explains fail notes failure? := by
  cases failure? with
  | none => exact h
  | some e => exact .inl h

theorem nil : Explains fail ([] : List (HostNote hooks)) failure? :=
  good fun _ h => absurd h List.not_mem_nil

/-- Good replies can come before. -/
theorem append_left (hfirst : ∀ note ∈ first, note.isGood) (h : Explains fail notes failure?) :
    Explains fail (first ++ notes) failure? := by
  cases failure? with
  | none => exact List.forall_mem_append.mpr ⟨hfirst, h⟩
  | some e =>
    rcases h with hgood | ⟨earlier, last, message, rfl, hgood, hlast⟩
    · exact .inl (List.forall_mem_append.mpr ⟨hfirst, hgood⟩)
    · exact .inr ⟨first ++ earlier, last, message, (List.append_assoc ..).symm,
        List.forall_mem_append.mpr ⟨hfirst, hgood⟩, hlast⟩

/-- A single request whose reply is passed on. -/
theorem single (note : HostNote hooks) : Explains .general [note] note.reply.fault? := by
  cases hresult : note.reply.result with
  | ok d =>
    rw [Reply.fault?_ok hresult]
    exact List.forall_mem_singleton.mpr ⟨d, hresult⟩
  | error message =>
    rw [Reply.fault?_error hresult]
    exact .inr ⟨[], note, message, rfl, nofun, hresult, rfl⟩

end Explains

/-! ## Results -/

/-- A computation whose result has a property in whatever world it runs. -/
def Returns (P : α → Prop) (x : StateM (World H) α) : Prop := ∀ w, P (x.run w).1

namespace Returns

variable {P : β → Prop}

theorem pure {b : β} (h : P b) : Returns P (Pure.pure b : StateM (World H) β) := fun _ => h

theorem bind {x : StateM (World H) α} {f : α → StateM (World H) β} (h : ∀ a, Returns P (f a)) :
    Returns P (x >>= f) :=
  fun w => h (x.run w).1 (x.run w).2

/-- After a computation about whose result something is known. -/
theorem bind_of {Q : α → Prop} {x : StateM (World H) α} {f : α → StateM (World H) β}
    (hx : Returns Q x) (h : ∀ a, Q a → Returns P (f a)) : Returns P (x >>= f) :=
  fun w => h (x.run w).1 (hx w) (x.run w).2

theorem ite {c : Prop} [Decidable c] {x y : StateM (World H) β} (hx : Returns P x)
    (hy : Returns P y) : Returns P (if c then x else y) := by
  split
  · exact hx
  · exact hy

end Returns

/-! ## Going along with a ledger -/

/-- A computation that asks for nothing and is not changed by the ledger. -/
def Quiet (x : StateM (World H) α) (y : LedgerM hooks α) : Prop :=
  ∀ t, x.run t.plain = ((y.run t).1, (y.run t).2.plain) ∧ (y.run t).2.host.own = t.host.own

/-- A computation that is not changed by the ledger and whose requests explain its end. -/
def Faithful (fault? : α → Option Fault) (x : StateM (World H) α)
    (y : LedgerM hooks α) : Prop :=
  ∀ t, x.run t.plain = ((y.run t).1, (y.run t).2.plain) ∧
    ∃ new, (y.run t).2.host.own = t.host.own ++ new ∧
      Explains .general new (fault? (y.run t).1)

/-- A computation that asks for nothing more and ends with a given failure. -/
def GivesUp (fault : Fault) (fault? : α → Option Fault) (x : StateM (World H) α)
    (y : LedgerM hooks α) : Prop :=
  Quiet x y ∧ Returns (fault? · = some fault) y

namespace Quiet

theorem pure (a : α) :
    Quiet (Pure.pure a : StateM (World H) α) (Pure.pure a : LedgerM hooks α) :=
  fun _ => ⟨rfl, rfl⟩

theorem bind {x : StateM (World H) α} {y : LedgerM hooks α}
    {f : α → StateM (World H) β} {g : α → LedgerM hooks β} (hx : Quiet x y)
    (hf : ∀ a, Quiet (f a) (g a)) : Quiet (x >>= f) (y >>= g) := by
  intro t
  obtain ⟨hsame, hown⟩ := hx t
  obtain ⟨hsame', hown'⟩ := hf (y.run t).1 (y.run t).2
  rw [run_bind, run_bind, hsame]
  exact ⟨hsame', hown'.trans hown⟩

/-- What reads the world reads the same with the ledger. -/
theorem get_bind {f : World H → StateM (World H) α}
    {g : World (Ledger hooks) → LedgerM hooks α} (h : ∀ t, Quiet (f t.plain) (g t)) :
    Quiet (get >>= f) (get >>= g) :=
  fun t => h t t

theorem ite {c : Prop} [Decidable c] {x x' : StateM (World H) α}
    {y y' : LedgerM hooks α} (h : Quiet x y) (h' : Quiet x' y') :
    Quiet (if c then x else x') (if c then y else y') := by
  split
  · exact h
  · exact h'

theorem change {f : World H → World H} {g : World (Ledger hooks) → World (Ledger hooks)}
    (h : ∀ t, f t.plain = (g t).plain) (hown : ∀ t, (g t).host.own = t.host.own) :
    Quiet (modify f) (modify g) :=
  fun t => ⟨congrArg (Prod.mk ()) (h t), hown t⟩

theorem unnoted (x : StateM (World H) α) : Quiet x (unnoted x : LedgerM hooks α) :=
  fun _ => ⟨rfl, rfl⟩

theorem faithful {x : StateM (World H) α} {y : LedgerM hooks α} (h : Quiet x y)
    (fault? : α → Option Fault) : Faithful fault? x y := by
  intro t
  obtain ⟨hsame, hown⟩ := h t
  exact ⟨hsame, [], hown.trans (List.append_nil _).symm, .nil⟩

end Quiet

namespace Faithful

variable {x : StateM (World H) α} {y : LedgerM hooks α}

theorem pure (fault? : α → Option Fault) (a : α) :
    Faithful fault? (Pure.pure a : StateM (World H) α) (Pure.pure a : LedgerM hooks α) :=
  (Quiet.pure a).faithful fault?

/-- After a good end the requests of what follows explain its end; after a failure what follows
must give up. -/
theorem bind {fault? : α → Option Fault} {fault?' : β → Option Fault}
    {f : α → StateM (World H) β} {g : α → LedgerM hooks β} (hx : Faithful fault? x y)
    (hok : ∀ a, fault? a = none → Faithful fault?' (f a) (g a))
    (hfail : ∀ a fault, fault? a = some fault → GivesUp fault fault?' (f a) (g a)) :
    Faithful fault?' (x >>= f) (y >>= g) := by
  intro t
  obtain ⟨hsame, new, hnew, hexplains⟩ := hx t
  rw [run_bind, run_bind, hsame]
  cases hfault : fault? (y.run t).1 with
  | none =>
    -- the first replies were good and stand before those of what follows
    rw [hfault] at hexplains
    obtain ⟨hsame', new', hnew', hexplains'⟩ := hok _ hfault (y.run t).2
    refine ⟨hsame', new ++ new', ?_, .append_left hexplains hexplains'⟩
    rw [hnew', hnew, List.append_assoc]
  | some fault =>
    -- what follows asks for nothing, so the failed reply stays the last one
    rw [hfault] at hexplains
    obtain ⟨hquiet, hgiven⟩ := hfail _ fault hfault
    obtain ⟨hsame', hown⟩ := hquiet (y.run t).2
    refine ⟨hsame', new, hown.trans hnew, ?_⟩
    rw [hgiven]
    exact hexplains

/-- After something quiet. -/
theorem quiet_bind {fault?' : β → Option Fault} {f : α → StateM (World H) β}
    {g : α → LedgerM hooks β} (hx : Quiet x y)
    (hf : ∀ a, Faithful fault?' (f a) (g a)) : Faithful fault?' (x >>= f) (y >>= g) := by
  refine bind (hx.faithful fun _ => none) (fun a _ => hf a) ?_
  intro a fault h
  exact nomatch h

/-- What reads the world reads the same with the ledger. -/
theorem get_bind {fault? : α → Option Fault} {f : World H → StateM (World H) α}
    {g : World (Ledger hooks) → LedgerM hooks α}
    (h : ∀ t, Faithful fault? (f t.plain) (g t)) : Faithful fault? (get >>= f) (get >>= g) :=
  fun t => h t t

/-- What only reads off the result of a computation. -/
theorem map {fault? : α → Option Fault} {fault?' : β → Option Fault} (hx : Faithful fault? x y)
    (f : α → β) (h : ∀ a, fault?' (f a) = fault? a) :
    Faithful fault?' (x >>= fun a => Pure.pure (f a)) (y >>= fun a => Pure.pure (f a)) := by
  intro t
  obtain ⟨hsame, new, hnew, hexplains⟩ := hx t
  rw [run_bind, run_bind, hsame]
  refine ⟨rfl, new, hnew, ?_⟩
  rw [← h] at hexplains
  exact hexplains

/-- A request after which a failed reply is the failure. -/
theorem ask_bind {fault? : α → Option Fault} (hooks : Hooks H) (request : HostRequest)
    {f : Reply → StateM (World H) α} {g : Reply → LedgerM hooks α}
    (hok : ∀ reply d, reply.result = .ok d → Faithful fault? (f reply) (g reply))
    (herror : ∀ reply message, reply.result = .error message →
      GivesUp (.general message) fault? (f reply) (g reply)) :
    Faithful fault? (hooks.answer request >>= f) (hooks.note request >>= g) := by
  have hask : Faithful Reply.fault? (hooks.answer request) (hooks.note request) := by
    intro t
    exact ⟨rfl, [⟨request, t.plain⟩], rfl, .single ⟨request, t.plain⟩⟩
  refine bind hask (fun reply h => ?_) fun reply fault h => ?_
  · cases hresult : reply.result with
    | ok d => exact hok reply d hresult
    | error message =>
      rw [Reply.fault?_error hresult] at h
      exact nomatch h
  · cases hresult : reply.result with
    | ok d =>
      rw [Reply.fault?_ok hresult] at h
      exact nomatch h
    | error message =>
      rw [Reply.fault?_error hresult] at h
      cases h
      exact herror reply message hresult

end Faithful

namespace GivesUp

theorem pure {fault : Fault} {fault? : α → Option Fault} {a : α} (h : fault? a = some fault) :
    GivesUp fault fault? (Pure.pure a : StateM (World H) α) (Pure.pure a : LedgerM hooks α) :=
  ⟨.pure a, fun _ => h⟩

theorem faithful {x : StateM (World H) α} {y : LedgerM hooks α} {fault : Fault}
    {fault? : α → Option Fault} (h : GivesUp fault fault? x y) : Faithful fault? x y :=
  h.1.faithful fault?

/-- After something quiet. -/
theorem quiet_bind {x : StateM (World H) α} {y : LedgerM hooks α} {fault : Fault}
    {fault? : β → Option Fault} {f : α → StateM (World H) β}
    {g : α → LedgerM hooks β} (hx : Quiet x y)
    (hf : ∀ a, GivesUp fault fault? (f a) (g a)) :
    GivesUp fault fault? (x >>= f) (y >>= g) :=
  ⟨hx.bind fun a => (hf a).1, fun t => (hf (y.run t).1).2 (y.run t).2⟩

end GivesUp

/-! ## Computations that may fail -/

/-- The failure of a computation that may fail. -/
def failure? : Except Fault α → Option Fault
  | .ok _ => none
  | .error fault => some fault

/-- A computation that may fail, asks for nothing and is not changed by the ledger. -/
def QuietRun (x : Run H α) (y : Run (Ledger hooks) α) : Prop := Quiet x.run y.run

/-- A computation whose requests explain its failure. -/
def FaithfulRun (x : Run H α) (y : Run (Ledger hooks) α) : Prop := Faithful failure? x.run y.run

namespace QuietRun

theorem pure (a : α) : QuietRun (Pure.pure a : Run H α) (Pure.pure a : Run (Ledger hooks) α) :=
  fun _ => ⟨rfl, rfl⟩

theorem throw (fault : Fault) :
    QuietRun (throw fault : Run H α) (throw fault : Run (Ledger hooks) α) :=
  fun _ => ⟨rfl, rfl⟩

theorem bind {x : Run H α} {y : Run (Ledger hooks) α} {f : α → Run H β}
    {g : α → Run (Ledger hooks) β} (hx : QuietRun x y) (hf : ∀ a, QuietRun (f a) (g a)) :
    QuietRun (x >>= f) (y >>= g) := by
  show Quiet (x.run >>= ExceptT.bindCont f) (y.run >>= ExceptT.bindCont g)
  refine Quiet.bind hx fun result => ?_
  cases result with
  | ok a => exact hf a
  | error fault => exact fun _ => ⟨rfl, rfl⟩

theorem get_bind {f : World H → Run H α} {g : World (Ledger hooks) → Run (Ledger hooks) α}
    (h : ∀ t, QuietRun (f t.plain) (g t)) : QuietRun (get >>= f) (get >>= g) :=
  fun t => h t t

end QuietRun

theorem FaithfulRun.bind {x : Run H α} {y : Run (Ledger hooks) α} {f : α → Run H β}
    {g : α → Run (Ledger hooks) β} (hx : FaithfulRun x y) (hf : ∀ a, FaithfulRun (f a) (g a)) :
    FaithfulRun (x >>= f) (y >>= g) := by
  show Faithful failure? (x.run >>= ExceptT.bindCont f) (y.run >>= ExceptT.bindCont g)
  refine Faithful.bind hx (fun result h => ?_) fun result fault h => ?_
  · cases result with
    | ok a => exact hf a
    | error fault => exact nomatch h
  · cases result with
    | ok a => exact nomatch h
    | error _ => exact GivesUp.pure h

end HostSql.Engine
