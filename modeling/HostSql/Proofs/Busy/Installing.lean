import HostSql.Proofs.Busy.Slot
import HostSql.Proofs.Connection.Life

/-!
# The last policy installed

Databases are opened, connections and statements are used and dropped, in any order and any number.
Only two calls put something into the slot of a connection, and only on that connection. So as long
as it stays open, its slot holds what the last of these calls has put there.

> `runDeeds_slot`: the slot holds the policy that was installed last.
-/

namespace HostSql

open Engine (World Hooks HostKeeps Lasting Spare)
open SessionWorld

/-! ## What is done with connections and statements -/

/-- Something that is done with values of the library: a database is opened, a connection or a
statement is used, or one of them is dropped. -/
inductive Deed where
  | openNew (how : Opening)
  | call (c : Connection) (request : ConnectionCall)
  | query (c : Connection) (sql : String)
  | interrupt (handle : InterruptHandle)
  | perform (s : Statement) (request : StatementCall)
  | dropStatement (s : Statement)
  | dropConnection (c : Connection)

namespace Deed

def run {σ : Type} (n : Native σ) : Deed → StateM σ Unit
  | openNew how => (fun _ => ()) <$> how.run n
  | call c request => (fun _ => ()) <$> c.perform n request
  | query c sql => (fun _ => ()) <$> c.query n sql
  | interrupt handle => handle.interrupt n
  | perform s request => (fun _ => ()) <$> s.perform n request
  | dropStatement s => s.drop n
  | dropConnection c => c.drop n

/-- Whether a connection is closed or dropped. -/
def ends (k : Nat) : Deed → Bool
  | call c request => c.native? == some k && request.isClose
  | dropConnection c => c.native? == some k
  | _ => false

end Deed

/-- What a call puts into the slot of a connection with this path, if it is one that does. -/
def ConnectionCall.installed? (path : String) : ConnectionCall → Option (Option BusyPolicy)
  | busyHandler callback => some (callback.map (.handler path))
  | busyTimeout ms => some (if ms = 0 then none else some (.ofMilliseconds ms))
  | _ => none

/-- What is put into the slot of a connection, if anything is. -/
def Deed.installed? (k : Nat) : Deed → Option (Option BusyPolicy)
  | call c request => if c.native? = some k then request.installed? c.path else none
  | _ => none

/-- What the slot of a connection holds in the end: what was installed last. -/
def lastInstalled (k : Nat) (start : Option BusyPolicy) (deeds : List Deed) : Option BusyPolicy :=
  deeds.foldl (fun policy? d => (d.installed? k).getD policy?) start

/-- Does one thing after the other. -/
def runDeeds {σ : Type} (n : Native σ) (deeds : List Deed) : StateM σ Unit := deeds.forM (·.run n)

/-- A policy that is installed has not waited yet. -/
theorem ConnectionCall.installed?_rested {path : String} {request : ConnectionCall}
    {policy? : Option BusyPolicy} (h : request.installed? path = some policy?) :
    policy?.map (·.rested) = policy? := by
  cases request with
  | busyHandler callback =>
    cases h
    cases callback <;> rfl
  | busyTimeout ms =>
    cases h
    split <;> rfl
  | _ => exact nomatch h

section Calls

variable {I : SessionWorld → Prop}

/-- Reading something through a connection changes nothing. -/
theorem withNative_keeps {α : Type} (c : Connection) {f : Nat → StateM SessionWorld (Except Error α)}
    (hf : ∀ k, c.native? = some k → Keeps I (f k)) : Keeps I (c.withNative f) := by
  unfold Connection.withNative
  cases hopen : c.native? with
  | none => exact .pure _
  | some k => exact hf k hopen

/-- What lasts in a session lasts through the calls of its connections that neither close them nor
put something into their slots. -/
theorem SessionLasting.perform (h : SessionLasting I) (depth : Nat) (c : Connection)
    {request : ConnectionCall} (hclose : request.isClose = false)
    (hinstalls : request.installed? c.path = none) :
    Keeps I (c.perform (native (hooks depth)) request) := by
  have hhost := hooks_keep h depth
  have hinterrupt (k : Nat) : Keeps I (Engine.interrupt (H := Host) k) :=
    h.connection k _ (fun _ _ => rfl) (.inl rfl)
  cases request with
  | close => exact nomatch hclose
  | compile sql =>
    exact (Connection.compile_keeps (h.nativeKeeps hhost) c sql).keeps.bind fun _ => .pure _
  | execute sql => exact (Connection.execute_keeps (h.nativeKeeps hhost) c sql).bind fun _ => .pure _
  | lastInsertRowId =>
    exact (withNative_keeps c fun _ _ => .map _ fun _ hw => hw).bind fun _ => .pure _
  | changes => exact (withNative_keeps c fun _ _ => .map _ fun _ hw => hw).bind fun _ => .pure _
  | interrupt => exact (withNative_keeps c fun k _ => .map _ (hinterrupt k)).bind fun _ => .pure _
  | interruptHandle => exact .pure _
  | busyHandler callback => exact nomatch hinstalls
  | busyTimeout ms => exact nomatch hinstalls
  | register name arity callbacks => exact (h.register _ c name arity callbacks).bind fun _ => .pure _
  | declare name type =>
    exact (Connection.declare_keeps (h.nativeKeeps hhost) c name type).bind fun _ => .pure _

end Calls

/-! ## The slot through everything that is done -/

namespace Slot

variable {k : Nat} {policy? : Option BusyPolicy}

/-- Releasing another connection. -/
theorem disconnect_keeps (hooks : Hooks Host) {c : Nat} (hck : c ≠ k) :
    Keeps (Slot k policy?) ((native hooks).disconnect c) := by
  have hreleased : Keeps (Slot k policy?) (Engine.disconnect c) := by
    refine .modify fun w h => ?_
    cases w.connections.get? c with
    | none => exact h
    | some conn =>
      refine ⟨h.given, ?_, h.held⟩
      show ((Assoc.erase w.connections c).get? k).map (·.asksHost) = _
      rw [Assoc.get?_erase_ne _ hck]
      exact h.asks
  exact hreleased.bind fun _ => (install_other hck none).bind fun _ => .pure none

/-- A number that has just been given out is not the connection's. -/
theorem fresh_other : KeepsGiving (Slot k policy?) (· ≠ k) (World.fresh (H := Host)) :=
  fun w h => ⟨fun heq => absurd h.given (Nat.not_lt.mpr (Nat.le_of_eq heq)),
    lasting.fresh w h⟩

/-- Another connection comes into being. -/
theorem addConnection_keeps {n : Nat} (hnk : n ≠ k) (conn : Engine.Connection) :
    Keeps (Slot k policy?)
      (modify fun w : SessionWorld => { w with connections := Assoc.set w.connections n conn }) := by
  intro w h
  refine ⟨h.given, ?_, h.held⟩
  show ((Assoc.set w.connections n conn).get? k).map (·.asksHost) = _
  rw [Assoc.get?_set_ne _ hnk]
  exact h.asks

/-- The connection that an opening has made, if it has made one, is another one. -/
def MadeOther (k : Nat) : Except ConnectFailure Nat → Prop
  | .ok n => n ≠ k
  | .error failure => ∀ n, failure.connection? = some n → n ≠ k

/-- A computation that may fail, and what follows unless it does. -/
theorem run_bind_giving {H α β : Type} {I : World H → Prop} {P : Except Engine.Fault β → Prop}
    {x : Engine.Run H α} {f : α → Engine.Run H β} (hx : Keeps I x.run)
    (hf : ∀ a, KeepsGiving I P (f a).run) (hfault : ∀ fault, P (.error fault)) :
    KeepsGiving I P (x >>= f).run := by
  show KeepsGiving I P (x.run >>= ExceptT.bindCont f)
  refine .bind hx.giving fun result _ => ?_
  cases result with
  | ok a => exact hf a
  | error fault => exact .pure (hfault fault)

theorem run_get_keeps {H β : Type} {I : World H → Prop} {f : World H → Engine.Run H β}
    (h : ∀ w, I w → I ((f w).run.run w).2) : Keeps I (get >>= f).run := fun w hw => h w hw

theorem addVolume_keeps (n : Nat) (v : Engine.Volume) :
    Keeps (Slot k policy?)
      (modify fun w : SessionWorld => { w with volumes := Assoc.set w.volumes n v }) :=
  lasting.volumes rfl (fun volumes => Assoc.set volumes n v) (.inl rfl)

theorem fileVolume_keeps (file : String) (flags : OpenFlags) :
    Keeps (Slot k policy?) (Engine.fileVolume (H := Host) file flags).run := by
  have hnew : Keeps (Slot k policy?) (do
      let n ← World.fresh (H := Host)
      modify fun w => { w with volumes := Assoc.set w.volumes n ⟨some file, .bytes []⟩ }
      return n : Engine.Run Host Nat).run :=
    Keeps.bind lasting.fresh fun n => (addVolume_keeps n _).bind fun _ => .pure (Except.ok n)
  unfold Engine.fileVolume
  refine run_get_keeps fun w hw => ?_
  split
  · exact hw
  split
  · exact hnew w hw
  · exact hw

theorem connect_other (path : String) (flags : OpenFlags) :
    KeepsGiving (Slot k policy?) (fun answer => ∀ n, answer = .ok n → n ≠ k)
      (Engine.connect (H := Host) path flags).run := by
  have hadd (volume : Nat) (readOnly : Bool) :
      KeepsGiving (Slot k policy?) (fun answer => ∀ n, answer = .ok n → n ≠ k)
        (do
          let n ← World.fresh (H := Host)
          modify fun w => { w with
            connections := Assoc.set w.connections n (.opened volume readOnly) }
          return n : Engine.Run Host Nat).run := by
    refine KeepsGiving.bind fresh_other fun n hn =>
      .bind (addConnection_keeps hn _).giving fun _ _ => .pure (a := Except.ok n) ?_
    rintro _ heq
    cases heq
    exact hn
  unfold Engine.connect
  refine run_bind_giving (fun _ h => ?_) (fun place => ?_) (fun _ => nofun)
  · cases Engine.Location.ofPath path flags <;> exact h
  · cases place.file with
    | some file =>
      exact run_bind_giving (fileVolume_keeps file place.flags) (fun volume => hadd volume _)
        fun _ => nofun
    | none =>
      exact run_bind_giving (x := liftM World.fresh) (lasting.fresh.bind fun n => .pure (Except.ok n))
        (fun n => KeepsGiving.bind (addVolume_keeps n ⟨none, .bytes []⟩).giving fun _ _ => hadd n _)
        fun _ => nofun

theorem connectNative_other (path : String) (flags : OpenFlags) :
    KeepsGiving (Slot k policy?) (MadeOther k) (connectNative (H := Host) path flags) := by
  unfold connectNative
  refine .bind (connect_other path flags) fun result hresult => ?_
  cases result with
  | ok n => exact .pure (hresult n rfl)
  | error fault =>
    refine KeepsGiving.bind (P := (· ≠ k)) ?_ fun n hn => .pure ?_
    · exact .bind fresh_other fun n hn => .bind (addConnection_keeps hn _).giving fun _ _ => .pure hn
    · rintro _ heq
      cases heq
      exact hn

/-- Opening a database, also when it fails. -/
theorem opening_keeps (depth : Nat) (how : Opening) :
    Keeps (Slot k policy?) (how.run (native (hooks depth))) := by
  have hlog (r : LogRecord) : Keeps (Slot k policy?) ((native (hooks depth)).log r) := session.log r
  have hconnect (path : String) (flags : OpenFlags) :
      Keeps (Slot k policy?) (Connection.connect (native (hooks depth)) path flags) := by
    unfold Connection.connect
    cases nulError? path with
    | some reason => exact .pure _
    | none =>
      refine .bind_of (connectNative_other path flags) fun answer hanswer => ?_
      rcases answer with ⟨failure, connection?⟩ | number
      · cases connection? with
        | none => exact .pure _
        | some number =>
          exact (disconnect_keeps _ (hanswer number rfl)).bind fun _ => .pure _
      · exact .pure _
  have hopen (path : String) (flags : OpenFlags) :
      Keeps (Slot k policy?) (Connection.openWithFlags (native (hooks depth)) path flags) := by
    unfold Connection.openWithFlags
    refine .ite (.pure _) ((hconnect path flags).bind fun answer => ?_)
    cases answer with
    | error e => exact (hlog _).bind fun _ => .pure _
    | ok number => exact (hlog _).bind fun _ => .pure _
  have hmode (path : String) (mode : Int32) :
      Keeps (Slot k policy?) (Connection.openMode (native (hooks depth)) path mode) := by
    unfold Connection.openMode
    cases OpenFlags.ofMode mode with
    | error e => exact .pure _
    | ok flags => exact hopen path flags
  cases how with
  | mode path number => exact hmode path number
  | flags path set => exact hopen path set
  | memory => exact hmode Connection.memoryPath 0

/-- What is asked of a statement. -/
theorem statement_keeps (depth : Nat) (s : Statement) (request : StatementCall) :
    Keeps (Slot k policy?) (s.perform (native (hooks depth)) request) := by
  have hreleasable : s.Releasable (Spare (Slot k policy?)) := fun n _ => spare n
  have hsession : SessionLasting (Slot k policy?) := session
  have hnative := hsession.nativeKeeps (hooks_keep depth)
  cases request with
  | step => exact (Statement.step_keeps hnative hreleasable).keeps.bind fun _ => .pure _
  | finalize => exact (Statement.finalize_keeps hnative hreleasable).bind fun _ => .pure _

/-- Closing another connection. -/
theorem close_keeps (depth : Nat) {c : Connection} (hother : c.native? ≠ some k) :
    Keeps (Slot k policy?) (c.close (native (hooks depth))) := by
  unfold Connection.close
  cases hopen : c.native? with
  | none => exact .pure _
  | some n =>
    have hnk : n ≠ k := fun h => hother (hopen.trans (congrArg some h))
    refine (disconnect_keeps _ hnk).bind fun failure? => (session.log _).bind fun _ => ?_
    cases failure? with
    | none => exact .pure _
    | some failure => exact .pure _

theorem drop_keeps (depth : Nat) {c : Connection} (hother : c.native? ≠ some k) :
    Keeps (Slot k policy?) (c.drop (native (hooks depth))) := by
  unfold Connection.drop
  cases hopen : c.native? with
  | none => exact .pure ()
  | some n =>
    have hnk : n ≠ k := fun h => hother (hopen.trans (congrArg some h))
    exact (disconnect_keeps _ hnk).bind fun _ => .pure ()

/-- Installing something on a connection that is open. -/
theorem call_installs (depth : Nat) {c : Connection} (hopen : c.native? = some k)
    {request : ConnectionCall} {installed? : Option BusyPolicy}
    (hinstalls : request.installed? c.path = some installed?) {w : SessionWorld}
    (h : Slot k policy? w) :
    Slot k installed? ((c.perform (native (hooks depth)) request).run w).2 := by
  rw [← ConnectionCall.installed?_rested hinstalls]
  have hset (policy : Option BusyPolicy) :
      Slot k (policy.map (·.rested)) ((c.setPolicy (native (hooks depth)) policy).run w).2 := by
    unfold Connection.setPolicy Connection.withNative
    rw [hopen]
    exact h.install policy
  cases request with
  | busyHandler callback =>
    cases hinstalls
    exact hset (callback.map (.handler c.path))
  | busyTimeout ms =>
    cases hinstalls
    exact hset (if ms = 0 then none else some (.ofMilliseconds ms))
  | _ => exact nomatch hinstalls

/-- Installing something on another connection. -/
theorem installs_keeps (depth : Nat) {c : Connection} (hother : c.native? ≠ some k)
    {request : ConnectionCall} {installed? : Option BusyPolicy}
    (hinstalls : request.installed? c.path = some installed?) :
    Keeps (Slot k policy?) (c.perform (native (hooks depth)) request) := by
  have hset (policy : Option BusyPolicy) :
      Keeps (Slot k policy?) (c.setPolicy (native (hooks depth)) policy) :=
    withNative_keeps c fun n hopen =>
      .map _ (install_other (fun h => hother (hopen.trans (congrArg some h))) policy)
  cases request with
  | busyHandler callback => exact (hset _).bind fun _ => .pure _
  | busyTimeout ms => exact (hset _).bind fun _ => .pure _
  | _ => exact nomatch hinstalls

/-- One thing that is done leaves in the slot what was there, or what it puts there. -/
theorem deed (depth : Nat) {d : Deed} (hends : d.ends k = false) {w : SessionWorld}
    (h : Slot k policy? w) :
    Slot k ((d.installed? k).getD policy?) ((d.run (native (hooks depth))).run w).2 := by
  cases d with
  | openNew how => exact (opening_keeps depth how).map _ w h
  | query c sql =>
    exact (Connection.query_keeps (session.nativeKeeps (hooks_keep depth)) c sql).map _ w h
  | interrupt handle =>
    have hinterrupt : Keeps (Slot k policy?) (Engine.interrupt (H := Host) handle.connection) :=
      lasting.connection _ _ (fun _ _ => rfl) (.inl rfl)
    exact (Keeps.bind (fun _ hw => hw) fun _ => .ite hinterrupt (.pure ())) w h
  | perform s request => exact (statement_keeps depth s request).map _ w h
  | dropStatement s =>
    exact Statement.drop_keeps (session.nativeKeeps (hooks_keep depth)) (fun n _ => spare n) w h
  | dropConnection c => exact drop_keeps depth (by simpa [Deed.ends] using hends) w h
  | call c request =>
    by_cases hopen : c.native? = some k
    · have hclose : request.isClose = false := by simpa [Deed.ends, hopen] using hends
      show Slot k (Option.getD (if c.native? = some k then request.installed? c.path else none)
        policy?) _
      rw [if_pos hopen]
      cases hinstalls : request.installed? c.path with
      | none => exact (session.perform depth c hclose hinstalls).map _ w h
      | some installed? => exact call_installs depth hopen hinstalls h
    · show Slot k (Option.getD (if c.native? = some k then request.installed? c.path else none)
        policy?) _
      rw [if_neg hopen]
      cases hinstalls : request.installed? c.path with
      | some installed? => exact (installs_keeps depth hopen hinstalls).map _ w h
      | none =>
        cases hclose : request.isClose with
        | false => exact (session.perform depth c hclose hinstalls).map _ w h
        | true =>
          cases request with
          | close => exact ((close_keeps depth hopen).bind fun _ => .pure _).map _ w h
          | _ => exact nomatch hclose

end Slot

/-- Whatever is done, the slot of a connection that stays open holds what was installed last. -/
theorem runDeeds_slot (depth k : Nat) (deeds : List Deed) :
    ∀ {policy? : Option BusyPolicy} {w : SessionWorld}, Slot k policy? w →
      (∀ d ∈ deeds, d.ends k = false) →
      Slot k (lastInstalled k policy? deeds) ((runDeeds (native (hooks depth)) deeds).run w).2 := by
  induction deeds with
  | nil => exact fun h _ => h
  | cons d deeds ih =>
    intro policy? w h hends
    exact ih (h.deed depth (hends d List.mem_cons_self)) fun d' hd' =>
      hends d' (List.mem_cons_of_mem d hd')

end HostSql
