import HostSql.Proofs.Connection.Script
import HostSql.Proofs.Engine.Failing
import HostSql.Proofs.Session.Keeping

/-!
# What lasts through everything that a connection runs

What is `Stable` goes through every step of a statement. Here it is followed further: through the
release of statements and through the commands and queries of a connection, and from there through
the closures of a session, whose nested commands and queries are of the same kind.

A release takes a statement away, so what is to last through it must not need that statement.
Nothing needs a statement whose number has not been given out yet (`Lasting`), and a command or a
query releases only what it has compiled itself.

> `Engine.prepare_keeps`, `Engine.step_keeps`, `Engine.finalize_keeps`: what is lasting is kept by all
> that is done with statements, so commands and queries keep it.
> `hooks_keep`: what lasts in a session goes through its callbacks, however deeply they nest.
> `Engine.Present.lasting`: a statement is there until it is released.
-/

namespace HostSql

open Engine (World Hooks HostKeeps)
open SessionWorld

/-! ## Running statements -/

namespace Engine

variable {H : Type} {hooks : Hooks H} {I : World H → Prop}

/-- Whether a statement can go away. -/
def Spare (I : World H → Prop) (n : Nat) : Prop :=
  ∀ w, I w → I { w with statements := Assoc.erase w.statements n }

/-- What lasts through everything that the engine does, also through the release of statements that
are compiled from now on. -/
structure Lasting (I : World H → Prop) : Prop extends EngineKeeps .full I where
  spare : ∀ w, I w → ∀ n, w.nextId ≤ n → Spare I n

/-- Keeps whatever the host and the engine keep. -/
theorem Within.keeps {α : Type} {may : Licence} {x : StateM (World H) α}
    (h : Within may hooks x) (hI : Stable may hooks I) : Keeps I x := h I hI

theorem step_keeps (h : Stable .full hooks I) (statement : Nat) : Keeps I (step hooks statement) :=
  (step_orderly hooks statement).within.keeps h

theorem runToEnd_keeps {statement : Nat} (hstep : Keeps I (step hooks statement)) (left : Nat) :
    Keeps I (runToEnd hooks statement left) := by
  induction left with
  | zero => exact .pure ()
  | succ left ih =>
    unfold runToEnd
    refine hstep.bind fun progress => ?_
    cases progress with
    | row => exact ih
    | done => exact .pure ()
    | failed fault => exact .pure ()

/-- Running all commands of a text releases only what it has compiled. -/
theorem executeAll_keeps {spare : Nat → Prop} {connection : Nat}
    (hprepare : ∀ text, KeepsGiving I (Prepared spare) (prepare hooks connection text))
    (hstep : ∀ k, Keeps I (step hooks k)) (hfinalize : ∀ k, spare k → Keeps I (finalize hooks k))
    (left : Nat) : ∀ text, Keeps I (executeAll hooks connection left text) := by
  induction left with
  | zero => exact fun _ => .pure none
  | succ left ih =>
    intro text
    unfold executeAll
    refine Keeps.ite (.pure none) (.bind_of (hprepare text) fun result hresult => ?_)
    rcases result with fault | ⟨statement?, stop⟩
    · exact .pure _
    · cases statement? with
      | none => exact ih _
      | some statement =>
        refine (runToEnd_keeps (hstep statement) fuel).bind fun _ => ?_
        refine (hfinalize statement (hresult statement stop rfl)).bind fun failure? => ?_
        cases failure? with
        | none => exact ih _
        | some fault => exact .pure _

theorem finalize_keeps (h : Stable .full hooks I) {statement : Nat} (hspare : Spare I statement) :
    Keeps I (finalize hooks statement) := by
  unfold finalize
  refine .get_bind fun w hw => ?_
  cases w.statements.get? statement with
  | none => exact hw
  | some s =>
    have herase : Keeps I
        (do
          modify fun w : World H => { w with statements := Assoc.erase w.statements statement }
          return s.failure) :=
      Keeps.bind hspare fun _ => .pure s.failure
    have hend : Calm .full _ _ :=
      endStatement_calm ⟨s.connection, statement, hooks⟩ s.program ⟨none, false⟩ s.failure
    have hcount : Calm .full (countChanges (H := H) s.connection s.program 0)
        (countChanges (H := Ledger hooks) s.connection s.program 0) := countChanges_calm _ _ _
    exact Keeps.ite ((hend.within.keeps h).bind fun _ => (hcount.within.keeps h).bind fun _ => herase)
      herase w hw

/-- A statement that has just been compiled is needed by nothing. -/
theorem prepare_keeps (h : Lasting I) (hhost : HostKeeps hooks I) (connection : Nat) (text : List Char) :
    KeepsGiving I (Prepared (Spare I)) (prepare hooks connection text) := by
  intro w hw
  refine ⟨?_, (prepare_calm hooks connection text).within.keeps ⟨h.toEngineKeeps, hhost⟩ w hw⟩
  -- the number is the next one of the world in which the text has been compiled
  have hstable : Stable .full hooks I := ⟨h.toEngineKeeps, hhost⟩
  have hcompile := (compileText_calm ⟨connection, 0, hooks⟩ text).within I hstable w hw
  have hreset : Keeps I (resetAsked connection) := (resetAsked_calm connection).within I hstable
  have hready := hreset _ hcompile
  unfold prepare
  rw [run_bind, run_bind]
  rcases ((compileText ⟨connection, 0, hooks⟩ text).run.run w).1 with fault | ⟨program?, stop⟩
  · exact nofun
  · cases program? with
    | none => exact nofun
    | some program =>
      rintro statement stop heq
      cases heq
      exact h.spare _ hready _ (Nat.le_refl _)

end Engine

open Engine (Lasting Spare)

/-! ## The engine of a host -/

section Natives

variable {H : Type} {services : HostServices H} {hooks : Hooks H} {I : World H → Prop}

/-- Reading changes nothing. -/
theorem ofStatement_keeps {α : Type} (statement : Nat) (missing : α) (read : Engine.Statement → α) :
    Keeps I (ofStatement statement missing read) := fun _ h => h

theorem nativeOn_reads : (nativeOn services hooks).Reads I where
  columnCount k := ofStatement_keeps k _ _
  columnName k _ := ofStatement_keeps k _ _
  columnType k _ := ofStatement_keeps k _ _
  columnText k _ := ofStatement_keeps k _ _

/-- The engine keeps what is kept where it compiles, steps and releases, and by its host. -/
theorem nativeOn_keeps {spare : Nat → Prop}
    (hprepare : ∀ c text, KeepsGiving I (Prepared spare) (Engine.prepare hooks c text))
    (hstep : ∀ k, Keeps I (Engine.step hooks k))
    (hfinalize : ∀ k, spare k → Keeps I (Engine.finalize hooks k))
    (hinterrupt : ∀ c, Keeps I (Engine.interrupt (H := H) c))
    (hdeclare : ∀ record type, Keeps I (services.declareType record type))
    (hlog : ∀ r, Keeps I (services.log r)) : (nativeOn services hooks).Keeps I spare where
  toReads := nativeOn_reads
  isOpen _ := fun _ hw => hw
  prepare c sql := by
    refine .bind (hprepare c sql.toList) fun result hresult => ?_
    rcases result with fault | ⟨statement?, stop⟩
    · exact .pure nofun
    · refine .pure ?_
      rintro statement used ⟨⟩
      exact hresult statement stop rfl
  execute c sql :=
    (Engine.executeAll_keeps (hprepare c) hstep hfinalize _ sql.toList).bind fun _ => .pure _
  interrupt := hinterrupt
  declareType := hdeclare
  step k := (hstep k).bind fun _ => .pure _
  finalize k hk := (hfinalize k hk).bind fun _ => .pure _
  log := hlog

end Natives

/-! ## Sessions -/

/-- What lasts in a session. Closures change all of the host but its policies, which answer when they
are asked. -/
structure SessionLasting (I : SessionWorld → Prop) : Prop extends Lasting I where
  host : ∀ f : Host → Host, (∀ h, (f h).policies = h.policies) → Keeps I (modifyHost f)
  asked : ∀ a : Ambient SessionWorld, a.Keeps I → ∀ connection attempt,
    Keeps I (askPolicy a connection attempt)

/-- What a closure uses of a connection by its name. -/
theorem withConnection_keeps {α : Type} {I : SessionWorld → Prop} (name : String)
    (missing : Error → α) {f : Connection → StateM SessionWorld α} (hf : ∀ c, Keeps I (f c)) :
    Keeps I (withConnection name missing f) := by
  unfold withConnection
  refine .get_bind fun w hw => ?_
  cases w.host.connections.get? name with
  | none => exact hw
  | some c => exact hf c w hw

/-- What closures use keeps what the engine, the records and the events keep. -/
theorem ambient_keeps {I : SessionWorld → Prop} {spare : Nat → Prop} {hooks : Hooks Host}
    (h : (native hooks).Keeps I spare)
    (hrecord : ∀ record (f : FunctionRecord → FunctionRecord), Keeps I (modifyRecord record f))
    (hemit : ∀ event, Keeps I (modifyHost fun host => { host with events := event :: host.events }))
    (hregister : ∀ name function arity callbacks,
      Keeps I (registerOn (native hooks) name function arity callbacks)) :
    (ambient (native hooks)).Keeps I where
  record? _ := fun _ hw => hw
  setGroups record _ := hrecord record _
  log := h.log
  emit := hemit
  interrupt handle := by
    refine .get_bind fun w hw => ?_
    cases w.host.handles.get? handle with
    | none => exact hw
    | some t => exact InterruptHandle.interrupt_keeps h t w hw
  execute name sql := withConnection_keeps name _ fun c => Connection.execute_keeps h c sql
  query name sql := withConnection_keeps name _ fun c => Connection.query_keeps h c sql
  declare name function type :=
    withConnection_keeps name _ fun c => Connection.declare_keeps h c function type
  register := hregister

namespace SessionLasting

variable {I : SessionWorld → Prop} (h : SessionLasting I)

include h

theorem modifyRecord (record : Nat) (f : FunctionRecord → FunctionRecord) :
    Keeps I (modifyRecord record f) := h.host _ fun _ => rfl

theorem log (r : LogRecord) : Keeps I (Host.services.log r) :=
  h.host (fun host => { host with log := r :: host.log }) fun _ => rfl

theorem engineRegister (connection : Nat) (f : Engine.HostFunction) :
    Keeps I (Engine.register connection f) := by
  have hinstall : Keeps I (do
      World.modifyConnection connection fun c =>
        { c with functions := c.functions.filter (fun g => !f.replaces g) ++ [f] }
      return ResultCode.ok) :=
    (h.connection _ _ (fun _ _ => rfl) (.inl rfl)).bind fun _ => .pure _
  have hexpire : Keeps I (Engine.expireStatements connection) :=
    h.statements (fun _ s => if s.connection = connection then { s with expired := true } else s)
      (.inl rfl)
  unfold Engine.register
  refine .ite (.pure _) (Keeps.bind (fun _ hw => hw) fun conn? => ?_)
  cases conn? with
  | none => exact .pure _
  | some conn =>
    refine .ite (.get_bind fun w hw => ?_) hinstall
    exact Keeps.ite (.pure _) (hexpire.bind fun _ => hinstall) w hw

theorem registerNative (connection : Nat) (r : FunctionRecord) :
    Keeps I (registerNative connection r) := by
  unfold HostSql.registerNative
  refine h.fresh.bind fun number => (h.engineRegister connection _).bind fun code => ?_
  exact .ite (.bind (h.host _ fun _ => rfl) fun _ => .pure _) (.pure _)

theorem register (hooks : Hooks Host) (c : Connection) (name : String) (arity : Int32)
    (callbacks : Callbacks) : Keeps I (c.register (native hooks) name arity callbacks) := by
  unfold Connection.register
  dsimp only
  split
  · exact .pure _
  · exact .pure _
  · refine (h.registerNative _ _).bind fun registered => ?_
    cases registered with
    | error code => exact .pure _
    | ok number => exact .pure _

theorem registerOn (hooks : Hooks Host) (name function : String) (arity : Int32)
    (callbacks : Callbacks) : Keeps I (registerOn (native hooks) name function arity callbacks) := by
  unfold HostSql.registerOn
  exact withConnection_keeps name _ fun c => (h.register hooks c function arity callbacks).bind
    fun answer => Keeps.bind (h.host _ fun _ => rfl) fun _ => .pure _

/-- The engine of a session. -/
theorem nativeKeeps {hooks : Hooks Host} (hhost : HostKeeps hooks I) :
    (native hooks).Keeps I (Spare I) :=
  nativeOn_keeps (Engine.prepare_keeps h.toLasting hhost)
    (Engine.step_keeps ⟨h.toEngineKeeps, hhost⟩)
    (fun _ => Engine.finalize_keeps ⟨h.toEngineKeeps, hhost⟩)
    (fun c => h.connection c _ (fun _ _ => rfl) (.inl rfl))
    (fun record type => h.modifyRecord record fun r => { r with resultType := type }) h.log

/-- What a closure does in a session. -/
theorem ambient {hooks : Hooks Host} (hhost : HostKeeps hooks I) :
    (HostSql.ambient (native hooks)).Keeps I :=
  ambient_keeps (h.nativeKeeps hhost) h.modifyRecord (fun _ => h.host _ fun _ => rfl)
    (h.registerOn hooks)

end SessionLasting

/-- What is kept by all that closures do goes through all callbacks, however deeply they nest. -/
theorem hooks_keep_all {ι : Type} {I : ι → SessionWorld → Prop}
    (hambient : ∀ hooks, (∀ i, HostKeeps hooks (I i)) → ∀ i, (ambient (native hooks)).Keeps (I i))
    (hasked : ∀ a : Ambient SessionWorld, (∀ i, a.Keeps (I i)) → ∀ i connection attempt,
      Keeps (I i) (askPolicy a connection attempt)) (depth : Nat) :
    ∀ i, HostKeeps (hooks depth) (I i) := by
  induction depth with
  | zero =>
    exact fun i => ⟨fun _ _ _ => .pure _, fun _ _ => .pure _, fun _ _ => .pure _, fun _ _ => .pure _⟩
  | succ depth ih =>
    intro i
    have ha := hambient (hooks depth) ih
    refine ⟨callFunction_keeps (ha i), finishGroup_keeps (ha i), fun record slot => ?_,
      hasked _ ha i⟩
    exact (finishGroup_keeps (ha i) record (some slot)).bind fun _ => .pure ()

/-- What lasts in a session goes through all its callbacks. -/
theorem hooks_keep {I : SessionWorld → Prop} (h : SessionLasting I) (depth : Nat) :
    HostKeeps (hooks depth) I :=
  hooks_keep_all (I := fun _ : Unit => I) (fun _ hhost _ => h.ambient (hhost ()))
    (fun a ha _ => h.asked a (ha ())) depth ()

/-! ## Policies -/

section Policies

variable {σ : Type} {I : σ → Prop} {a : Ambient σ} (h : a.Keeps I)

include h

/-- A closure that decides about a lock keeps what its ambient keeps. -/
theorem BusyProgram.run_keeps (program : BusyProgram) : Keeps I (program.run a) := by
  induction program with
  | answer retry => exact .pure _
  | panic => exact .pure _
  | emit event next ih => exact (h.emit event).bind fun _ => ih
  | execute connection sql next ih => exact (h.execute connection sql).bind fun answer => ih answer

theorem BusyPolicy.request_keeps (policy : BusyPolicy) (attempt : UInt32) :
    Keeps I (policy.request a attempt) := by
  cases policy with
  | timeout backoff => exact .pure _
  | handler resource callback =>
    refine (BusyProgram.run_keeps h _).bind fun answer? => ?_
    cases answer? with
    | some retry => exact .pure _
    | none => exact (h.log _).bind fun _ => .pure _

end Policies

/-- Asking a policy keeps what does not depend on policies. -/
theorem askPolicy_keeps {I : SessionWorld → Prop} {a : Ambient SessionWorld} (h : a.Keeps I)
    (hpolicies : ∀ f : Host → Host, Keeps I (modifyHost f)) (connection attempt : Nat) :
    Keeps I (askPolicy a connection attempt) := by
  unfold askPolicy
  refine .get_bind fun w hw => ?_
  cases w.host.policies.get? connection with
  | none => exact hw
  | some policy =>
    have hask := (BusyPolicy.request_keeps h policy (UInt32.ofNat attempt)).bind fun answer =>
      (hpolicies fun h => { h with policies := h.policies.set connection answer.2 }).bind fun _ =>
        Keeps.pure answer.1
    exact hask w hw

/-! ## Statements -/

/-- A statement is there until it is released. -/
theorem Engine.Present.lasting (k : Nat) {H : Type} : Lasting (Present k (H := H)) where
  toEngineKeeps := Present.engineKeeps k
  spare w hw n hn w' hw' := by
    have hne : n ≠ k := fun heq => absurd hw.1 (Nat.not_lt.mpr (heq ▸ hn))
    refine ⟨hw'.1, ?_⟩
    show (Assoc.get? (Assoc.erase w'.statements n) k).isSome = true
    rw [Assoc.get?_erase_ne _ hne]
    exact hw'.2

theorem SessionLasting.present (k : Nat) : SessionLasting (Engine.Present k) where
  toLasting := Engine.Present.lasting k
  host _ _ := fun _ h => h
  asked _ ha connection attempt := askPolicy_keeps ha (fun _ _ h => h) connection attempt

end HostSql
