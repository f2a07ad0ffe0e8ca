import HostSql.Proofs.Busy.Beginning
import HostSql.Proofs.Busy.Installing
import HostSql.Session.Step

/-!
# How a connection waits for locks

Installing and waiting are put together. Whatever has been done in a session, the slot of an open
connection holds what was installed last. Wherever the engine meets a lock on its volume, it asks
what is in the slot and nothing else, with questions numbered one after the other; after a yes it
goes on as if it had begun in the world that the answer left, and a no is the failure of being
locked. With nothing in the slot nobody is asked.

There is one lock about which nobody is asked whatever the slot holds. A connection that is reading
already does not wait to reserve its volume, since the one it would wait for may be waiting for it.

> `busy_lawful`: installing, asking and waiting, on every connection.
-/

namespace HostSql

open Engine (World Hooks Claim Waiting Waits Unasked Asking Fault)
open SessionWorld

/-! ## Waits of a session -/

namespace Slot

variable {k : Nat} {policy? : Option BusyPolicy} {w w' : SessionWorld}

theorem unasked (h : Unasked k w w') (hw : Slot k policy? w) : Slot k policy? w' := by
  refine ⟨Nat.lt_of_lt_of_le hw.given h.given, ?_, ?_⟩
  · have hasks (v : SessionWorld) :
        (v.connections.get? k).map (·.asksHost) = (v.register? k).map (·.1) := by
      unfold World.register?
      rw [Option.map_map]
      rfl
    rw [hasks, h.register, ← hasks]
    exact hw.asks
  · rw [h.host]
    exact hw.held

theorem withNext (hw : Slot k policy? w) (next? : Option Nat) : Slot k policy? (w.withNext k next?) :=
  lasting.connection k (fun c => { c with asked := next? }) (fun _ _ => rfl) (.inl rfl) w hw

/-- With nothing in the slot there is nothing to ask. -/
theorem nextQuestion?_none (h : Slot k none w) : w.nextQuestion? k = none := by
  obtain ⟨conn, hconn, hasks⟩ := Option.map_eq_some_iff.mp h.asks
  unfold World.nextQuestion? World.register?
  rw [hconn]
  show (if conn.asksHost = true then conn.asked else none) = none
  rw [hasks]
  rfl

/-- A wait leaves the slot as it is, and the slot holds the same at each of its questions. -/
theorem waiting {depth : Nat} {ask : Nat → StateM SessionWorld Bool}
    (hsame : ∀ a v, Slot k policy? v → (((hooks depth).busy k a).run v = (ask a).run v))
    {questions : List Nat} {refused : Bool}
    (h : Waiting ((hooks depth).busy k) k w questions refused w') (hw : Slot k policy? w) :
    Waiting ask k w questions refused w' ∧ Slot k policy? w' :=
  h.consulting (fun _ _ => unasked) (fun _ next? hv => hv.withNext next?)
    ((hooks_keep depth).busy k) hsame hw

end Slot

/-- Whether the host of a session is asked is left as it is by what the engine runs. -/
theorem asking_session (k : Nat) : SessionLasting (Asking k) where
  connection c f hf _ := by
    intro w h
    show ((Assoc.update w.connections c f).get? k).map (·.asksHost) = some true
    by_cases hck : c = k
    · subst hck
      obtain ⟨conn, hconn, hasks⟩ := Option.map_eq_some_iff.mp h
      rw [Assoc.get?_update_self, hconn, ← hasks]
      exact congrArg some (hf conn conn.asksHost)
    · rw [Assoc.get?_update_ne _ hck]
      exact h
  statements _ _ := fun _ h => h
  added _ _ _ := fun _ h => h
  fresh := fun _ h => h
  volumes _ _ _ := fun _ h => h
  spare _ _ _ _ := fun _ h => h
  host _ _ := fun _ h => h
  asked _ ha connection attempt := askPolicy_keeps ha (fun _ _ h => h) connection attempt

/-- How a wait has gone: what was asked, and the number with which the next wait goes on. -/
structure AskedInTurn (next? : Option Nat) (questions : List Nat) (refused : Bool)
    (after? : Option Nat) : Prop where
  /-- The questions are numbered one after the other, and after a no there is none. -/
  numbered : ∀ a, next? = some a → questions = List.range' a questions.length ∧
    after? = if refused then none else some (a + questions.length)
  /-- Without a number for the first question nobody is asked. -/
  silent : next? = none → questions = [] ∧ refused = false

/-- A computation that waits with a connection's slot as it is. It gets on by the questions that it
asks, in turn, and fails in a certain way if one is answered with no. -/
def WaitsLawfully {α : Type} (hooks : Hooks Host) (k : Nat) (fails : Fault → Prop)
    (x : Engine.Run Host α) : Prop :=
  ∀ policy? w, Slot k policy? w → ∃ questions refused,
    Waiting (hooks.busy k) k w questions refused (x.run.run w).2 ∧
    AskedInTurn (w.nextQuestion? k) questions refused ((x.run.run w).2.nextQuestion? k) ∧
    (refused = true → ∃ fault, fails fault ∧ (x.run.run w).1 = .error fault) ∧
    Slot k policy? (x.run.run w).2

theorem waits_lawfully {α : Type} (depth k : Nat) {fails : Fault → Prop} {x : Engine.Run Host α}
    (hx : Waits ((hooks depth).busy k) k fails x) : WaitsLawfully (hooks depth) k fails x := by
  intro policy? w hw
  obtain ⟨questions, refused, hwaiting, hfails⟩ := hx w
  have hslot := (Slot.waiting (fun _ _ _ => rfl) hwaiting hw).2
  refine ⟨questions, refused, hwaiting, ⟨fun a ha => ?_, fun hnone => ?_⟩, hfails, hslot⟩
  · exact hwaiting.numbered ((hooks_keep (asking_session k) depth).busy k) ha
  · obtain ⟨hquestions, hrefused, -⟩ := hwaiting.silent hnone
    exact ⟨hquestions, hrefused⟩

/-! ## The laws -/

/-- How it goes on after a claim has been tried. -/
structure ClaimLawful (scope : Engine.Scope Host) (c : Claim) (fuel : Nat) (w w₁ : SessionWorld) :
    Prop where
  /-- What is granted is granted without a question. -/
  granted : (c.tryOnce scope fuel).run.run w = (.ok true, w₁) →
    (c.lock scope (fuel + 1)).run.run w = (.ok (), w₁)
  /-- With nobody to ask it fails at once. -/
  silent : Slot scope.connection none w₁ → (c.tryOnce scope fuel).run.run w = (.ok false, w₁) →
    (c.lock scope (fuel + 1)).run.run w = (.error .busy, w₁)
  /-- After a yes it goes on as if it had begun in the world that the answer left. -/
  again : ∀ a w₂, (c.tryOnce scope fuel).run.run w = (.ok false, w₁) →
    w₁.nextQuestion? scope.connection = some a →
    (scope.hooks.busy scope.connection a).run w₁ = (true, w₂) →
    (c.lock scope (fuel + 1)).run.run w =
      (c.lock scope fuel).run.run (w₂.withNext scope.connection (some (a + 1)))
  /-- After a no it has failed. -/
  refused : ∀ a w₂, (c.tryOnce scope fuel).run.run w = (.ok false, w₁) →
    w₁.nextQuestion? scope.connection = some a →
    (scope.hooks.busy scope.connection a).run w₁ = (false, w₂) →
    (c.lock scope (fuel + 1)).run.run w = (.error .busy, w₂.withNext scope.connection none)

theorem claim_lawful (scope : Engine.Scope Host) (c : Claim) (fuel : Nat) (w w₁ : SessionWorld) :
    ClaimLawful scope c fuel w w₁ where
  granted := Claim.lock_granted
  silent hslot h := by
    obtain ⟨conn, hconn, -⟩ := Option.map_eq_some_iff.mp hslot.asks
    exact Claim.lock_refused h (Engine.askHost_silent hconn hslot.nextQuestion?_none)
  again a w₂ h hnext hasked := Claim.lock_again h (Engine.askHost_run hnext hasked)
  refused a w₂ h hnext hasked := Claim.lock_refused h (Engine.askHost_run hnext hasked)

/-- How a statement begins on a connection with this in its slot. -/
structure BeginningLawful (hooks : Hooks Host) (k j : Nat) (s : Statement) (st : Engine.Statement)
    (policy? : Option BusyPolicy) (w : SessionWorld) : Prop where
  /-- The slot is as it was, and its questions count from zero. -/
  slot : Slot k policy? ((w.starting k st).begun k j)
  fromZero : ((w.starting k st).begun k j).nextQuestion? k = if policy?.isSome then some 0 else none
  /-- If its claim is refused the step fails with a lock, and the statement can be stepped again. -/
  refused : ∀ w₁, (Engine.enter ⟨k, j, hooks⟩ st.program).run.run ((w.starting k st).begun k j) =
      (.error .busy, w₁) →
    (s.step (native hooks)).run w =
      ((.error (.ofCode ResultCode.busy "busy in step: database is locked"), s), w₁.blocked j)
  /-- If it is granted in the end, the statement goes on from there. -/
  granted : ∀ w₁, (Engine.enter ⟨k, j, hooks⟩ st.program).run.run ((w.starting k st).begun k j) =
      (.ok true, w₁) →
    (Engine.step hooks j).run w = (Engine.runProgram ⟨k, j, hooks⟩ st.program).run w₁

theorem beginning_lawful (hooks : Hooks Host) {k j : Nat} {s : Statement} (hvm : s.vm = .live j)
    {st : Engine.Statement} {w : SessionWorld} (hst : w.statements.get? j = some st)
    (hbegins : st.Begins k) {policy? : Option BusyPolicy} (hw : Slot k policy? w) :
    BeginningLawful hooks k j s st policy? w := by
  have hstarting : Slot k policy? (w.starting k st) := by
    unfold World.starting
    split
    · exact hw
    · exact hw.unasked (Engine.settleInterrupt_unasked k k w)
  have hreset := hstarting.withNext (some 0)
  have hbegun : Slot k policy? ((w.starting k st).begun k j) :=
    ⟨hreset.given, hreset.asks, hreset.held⟩
  refine ⟨hbegun, ?_, fun w₁ h => ?_, fun w₁ h => Engine.step_granted hst hbegins h⟩
  · cases policy? with
    | none => exact hbegun.nextQuestion?_none
    | some policy => exact Engine.nextQuestion?_withNext (k := k) hstarting.asks (some 0)
  · have hstep : ((native hooks).step j).run w = (⟨ResultCode.busy, "database is locked"⟩, w₁.blocked j) := by
      show StateT.run (Engine.step hooks j >>= fun p => pure p.toNative) w = _
      rw [run_bind, Engine.step_refused hst hbegins h]
      rfl
    exact step_of_busy (native hooks) hvm hstep rfl

/-- What it comes to when a connection cannot put its changes down, or not compile a text. -/
structure RefusalLawful (hooks : Hooks Host) (k : Nat) (w w₁ : SessionWorld) : Prop where
  /-- A statement that is the last one to write has failed with the lock when its work was done, and
  its changes do not count. -/
  ending : ∀ statement (program : Engine.Program) before conn, program.access ≠ .none →
    w.connections.get? k = some conn → conn.autocommit = true →
    ((Engine.otherUsers k statement).run w).1.any (·.program.access = .write) = false →
    (Engine.commitDraft ⟨k, statement, hooks⟩).run.run w = (.error .busy, w₁) →
    ((Engine.endStatement ⟨k, statement, hooks⟩ program before none).run w).1 = (some .busy, false)
  /-- The end of a transaction has failed with the lock, and can be tried again. -/
  commit : ∀ statement, (Engine.othersWrite ⟨k, statement, hooks⟩).run.run w = (.ok false, w) →
    (Engine.commitDraft ⟨k, statement, hooks⟩).run.run w = (.error .busy, w₁) →
    (Engine.commitTransaction ⟨k, statement, hooks⟩).run w = (.failed .busy, w₁.blocked statement)
  /-- A text that needs the catalog is refused with the lock. -/
  text : ∀ (c : Connection) sql, c.native? = some k → nulError? sql = none →
    (Engine.compileText ⟨k, 0, hooks⟩ sql.toList).run.run w = (.error .busy, w₁) →
    ((c.compile (native hooks) sql).run w).1 = .error (.ofCode ResultCode.busy "database is locked")

theorem refusal_lawful (hooks : Hooks Host) (k : Nat) (w w₁ : SessionWorld) :
    RefusalLawful hooks k w w₁ where
  ending _ _ before _ haccess hconn hauto hlast hrefused :=
    congrArg Prod.fst (Engine.endStatement_refused before haccess hconn hauto hlast hrefused)
  commit _ hlast hrefused := Engine.commitTransaction_refused hlast hrefused
  text c sql hopen hnul hrefused := by
    have hcompile : c.compile (native hooks) sql =
        Engine.prepare hooks k sql.toList >>= acceptText Host.services sql :=
      compile_eq Host.services hooks hopen hnul
    rw [hcompile, run_bind, Engine.prepare_refused hrefused]
    rfl

/-- How a connection waits for locks. -/
structure BusyLawful (depth k : Nat) : Prop where
  /-- Its slot holds what was installed last, whatever else is done as long as it is open. -/
  installed : ∀ (deeds : List Deed) (policy? : Option BusyPolicy) (w : SessionWorld),
    Slot k policy? w → (∀ d ∈ deeds, d.ends k = false) →
    Slot k (lastInstalled k policy? deeds) ((runDeeds (native (hooks depth)) deeds).run w).2
  /-- With nothing in the slot there is nothing to ask. -/
  empty : ∀ w, Slot k none w → w.nextQuestion? k = none
  /-- A wait with a closure in the slot runs it on the connection's path and the number of each
  question, and nothing else is asked or done; one that panics has said no, and stays in the slot. -/
  closure : ∀ resource callback w questions refused w',
    Slot k (some (.handler resource callback)) w →
    Waiting ((hooks (depth + 1)).busy k) k w questions refused w' →
    Waiting (fun attempt => (callback resource (UInt32.ofNat attempt)).decide
      (ambient (native (hooks depth))) resource (UInt32.ofNat attempt)) k w questions refused w' ∧
    Slot k (some (.handler resource callback)) w'
  /-- A question with a timeout in the slot is answered from its budget. -/
  timeout : ∀ backoff w attempt, Slot k (some (.timeout backoff)) w → ∃ used : Backoff,
    used.restart = backoff ∧ ((hooks (depth + 1)).busy k attempt).run w =
      let answered := used.request (UInt32.ofNat attempt)
      (answered.1, { w with host := { w.host with
        policies := w.host.policies.set k (.timeout answered.2) } })
  /-- Wherever the engine meets a lock it waits in this way, and after a no it fails with the lock. -/
  waits : ∀ statement, let scope : Engine.Scope Host := ⟨k, statement, hooks depth⟩
    (∀ access alone, WaitsLawfully scope.hooks k (· = .busy) (Engine.claim scope access alone)) ∧
    (∀ program, WaitsLawfully scope.hooks k (· = .busy) (Engine.enter scope program)) ∧
    WaitsLawfully scope.hooks k (· = .busy) (Engine.commitDraft scope) ∧
    WaitsLawfully scope.hooks k (· = .busy) (Engine.catalogOf scope)
  /-- Commands are compiled in the same way, and after a no they are not compiled. -/
  compiles : ∀ statement text, WaitsLawfully (hooks depth) k (fun _ => True)
    (Engine.compileText ⟨k, statement, hooks depth⟩ text)
  /-- What follows on the answers. -/
  claims : ∀ statement c fuel w w₁, ClaimLawful ⟨k, statement, hooks depth⟩ c fuel w w₁
  refusals : ∀ w w₁, RefusalLawful (hooks depth) k w w₁
  /-- A statement counts its questions from zero whenever it begins. -/
  beginnings : ∀ (s : Statement) j st policy? w, s.vm = .live j → w.statements.get? j = some st →
    st.Begins k → Slot k policy? w → BeginningLawful (hooks depth) k j s st policy? w
  /-- A connection that is reading already does not wait to reserve its volume. -/
  upgrade : ∀ statement alone fuel (w : SessionWorld) conn, w.connections.get? k = some conn →
    conn.lock = .shared → Engine.Lock.allowed .reserved (w.rivals k conn.volume) = false →
    (Engine.lockReserved ⟨k, statement, hooks depth⟩ alone (fuel + 2)).run.run w = (.error .busy, w)

/-- A connection has read a table in a transaction that is not over, and another one has reserved
the volume since. -/
def reserved : SessionWorld :=
  ((do
    let _ ← Session.run (.openDatabase "w" "t.db" 0)
    let _ ← Session.run (.openDatabase "r" "t.db" 0)
    let _ ← Session.run (.execute "w" "CREATE TABLE t(a)")
    let _ ← Session.run (.execute "r" "BEGIN")
    let _ ← Session.run (.query "r" "SELECT a FROM t")
    let _ ← Session.run (.execute "w" "BEGIN IMMEDIATE")
    return).run SessionWorld.empty).2

/-- Whether commands have failed with a lock. -/
def failsBusy : Except Error Unit → Bool
  | .error e => e.kind = .busy
  | .ok _ => false

end HostSql
