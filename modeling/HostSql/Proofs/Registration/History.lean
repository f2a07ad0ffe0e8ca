import HostSql.Proofs.Invariance
import HostSql.Proofs.Registration.InStep
import HostSql.Session.Step

/-!
# Every callback finds what was registered last

`Watched.Sound` holds at every point of a course: the registry and the engine's table are in step
with the past, executions under way keep their functions in the table, and every event so far is
right after the ones before it. One lemma for each kind of event says that the event keeps it. While
a closure runs it is kept as well, for what closures do to the connection are events of the course
(`ambient_keeps`).

> `Course.run_keeps`: whatever happens, it stays sound.
> `course_right`: on a connection that has just been opened, every event of every course is right.
-/

namespace HostSql

open Engine (HostFunction HostRequest Reply)
open Beside

namespace Watched

variable {o : Watched}

/-- What holds of a watched connection at every point of a course. -/
structure Sound (o : Watched) (s : WatchedWorld) : Prop where
  inStep : o.InStep s.env s.own.past
  underWay : ∀ execution ∈ s.own.underWay,
    o.executes s.env execution.1 ∧ ∀ f ∈ execution.2, f ∈ o.table s.env
  right : AllRight s.own.past

/-! ## What leaves the functions alone -/

theorem Sound.leaves {s : WatchedWorld} (hs : o.Sound s) {w : SessionWorld}
    (hleaves : o.Leaves s.env w) : o.Sound ⟨w, s.own⟩ where
  inStep := hs.inStep.leaves hleaves
  underWay execution hexecution := by
    obtain ⟨hexecutes, hknown⟩ := hs.underWay execution hexecution
    refine ⟨hleaves.executes _ hexecutes, fun f hf => ?_⟩
    show f ∈ o.table w
    rw [hleaves.table]
    exact hknown f hf
  right := hs.right

/-- An event that changes nothing that is current. -/
theorem Sound.note {s : WatchedWorld} (hs : o.Sound s) {event : FunctionEvent}
    (hright : event.Right s.own.past)
    (hsame : ∀ name arity, current name arity (event :: s.own.past) =
      current name arity s.own.past) :
    o.Sound ⟨s.env, { s.own with past := event :: s.own.past }⟩ where
  inStep := hs.inStep.note hsame
  underWay := hs.underWay
  right := .next hright hs.right

theorem outside_keeps {α : Type} {x : StateM SessionWorld α}
    (h : ∀ w, o.Leaves w (x.run w).2) : Keeps o.Sound (outside x) :=
  fun s hs => hs.leaves (h s.env)

theorem record?_keeps (record : Nat) : Keeps o.Sound (outside (o.library.record? record)) :=
  outside_keeps fun w => leaves_refl w

theorem setGroups_keeps (record : Nat) (groups : GroupTable) :
    Keeps o.Sound (outside (o.library.setGroups record groups)) := by
  refine outside_keeps fun w => ⟨rfl, rfl, fun entry _ => ?_, Nat.le_refl _, fun _ h => h⟩
  show ((Assoc.update w.host.records record fun r => { r with groups }).get? entry.2).map _ = _
  by_cases hentry : record = entry.2
  · rw [← hentry, Assoc.get?_update_self, Option.map_map]
    rfl
  · rw [Assoc.get?_update_ne _ hentry]

theorem log_keeps (r : LogRecord) : Keeps o.Sound (outside (o.library.log r)) :=
  outside_keeps fun _ => leaves_of_host rfl rfl rfl rfl (Nat.le_refl _)

theorem emit_keeps (event : Event) : Keeps o.Sound (outside (o.library.emit event)) :=
  outside_keeps fun _ => leaves_of_host rfl rfl rfl rfl (Nat.le_refl _)

/-- An interruption is noted on a connection, and its functions stay. -/
theorem interrupted_leaves (c : Nat) (w : SessionWorld) :
    o.Leaves w ((Engine.interrupt c).run w).2 := by
  refine ⟨rfl, ?_, fun _ _ => rfl, Nat.le_refl _, fun _ h => h⟩
  unfold table?
  show (Assoc.get? (Assoc.update w.connections c fun conn => { conn with interrupted := true })
    o.number).map _ = _
  by_cases hc : c = o.number
  · rw [hc, Assoc.get?_update_self, Option.map_map]
    rfl
  · rw [Assoc.get?_update_ne _ hc]

theorem interrupt_keeps (handle : String) :
    Keeps o.Sound (outside (o.library.interrupt handle)) := by
  refine outside_keeps fun w => ?_
  show o.Leaves w ((interruptThrough (native o.hooks) handle).run w).2
  unfold interruptThrough
  rw [run_bind, run_get]
  dsimp only
  cases w.host.handles.get? handle with
  | none => exact leaves_refl w
  | some h =>
    show o.Leaves w ((h.interrupt (native o.hooks)).run w).2
    unfold InterruptHandle.interrupt
    rw [run_bind]
    have hopen : ((native o.hooks).isOpen h.connection).run w =
        ((w.connections.get? h.connection).isSome, w) := rfl
    rw [hopen]
    dsimp only
    split
    · exact interrupted_leaves h.connection w
    · exact leaves_refl w

/-! ## Registrations and declarations -/

/-- While an execution is under way the connection is active. -/
theorem Sound.isActive {s : WatchedWorld} (hs : o.Sound s)
    {execution : Nat × List HostFunction} (h : execution ∈ s.own.underWay) :
    s.env.isActive o.number = true :=
  isActive_of_executes (hs.underWay execution h).1

theorem register_keeps (name : String) (arity : Int32) (callbacks : Callbacks) :
    Keeps o.Sound (o.register name arity callbacks) := by
  intro s hs
  have hnoted : ((o.register name arity callbacks).run s).2 =
      let p := (o.library.register o.name name arity callbacks).run s.env
      ⟨p.2, { s.own with
        past := .registered name arity callbacks (s.env.isActive o.number) p.1 ::
          s.own.past }⟩ := rfl
  obtain ⟨answer, w', hrun⟩ : ∃ answer w',
    (o.library.register o.name name arity callbacks).run s.env = (answer, w') := ⟨_, _, rfl⟩
  rw [hnoted, hrun]
  dsimp only
  have haccepts := hs.inStep.accepts_iff name arity callbacks
  rcases register_end hs.inStep.isOpen name arity callbacks hrun with
    ⟨hfailed, hrefused, hleaves⟩ | ⟨rfl, hregisters⟩
  · have hright : FunctionEvent.Right s.own.past
        (.registered name arity callbacks (s.env.isActive o.number) answer) :=
      ⟨fun hok => absurd hok hfailed, fun h => absurd (haccepts.mpr h) hrefused⟩
    refine (hs.leaves hleaves).note hright fun folded n => ?_
    cases answer with
    | error e => rfl
    | ok u => exact absurd rfl hfailed
  · refine ⟨hs.inStep.registers _ hregisters, fun execution hexecution => ?_,
      .next ⟨fun _ => haccepts.mp hregisters.accepts, fun _ => rfl⟩ hs.right⟩
    -- nothing is replaced that an execution may ask for
    obtain ⟨hexecutes, hknown⟩ := hs.underWay execution hexecution
    refine ⟨hregisters.executes _ hexecutes, fun f hf => ?_⟩
    have hkept := hs.inStep.free hregisters (hs.isActive hexecution) (hknown f hf)
    exact hs.inStep.mem_of_registers hregisters (hknown f hf) hkept

theorem declare_keeps (name : String) (type : ResultType) :
    Keeps o.Sound (o.declare name type) := by
  intro s hs
  have hnoted : ((o.declare name type).run s).2 =
      let p := (o.library.declare o.name name type).run s.env
      ⟨p.2, { s.own with past := .declared name type p.1 :: s.own.past }⟩ := rfl
  obtain ⟨answer, w', hrun⟩ : ∃ answer w',
    (o.library.declare o.name name type).run s.env = (answer, w') := ⟨_, _, rfl⟩
  rw [hnoted, hrun]
  dsimp only
  have hnamed := hs.inStep.named_ne_nil name
  rcases declare_end hs.inStep.isOpen name type hrun with
    ⟨hfailed, hnone, rfl⟩ | ⟨rfl, hsome, records', htyped, rfl⟩
  · have hright : FunctionEvent.Right s.own.past (.declared name type answer) :=
      ⟨fun hok => absurd hok hfailed, fun h => absurd hnone (hnamed.mpr h)⟩
    refine hs.note hright fun folded n => ?_
    cases answer with
    | error e => rfl
    | ok u => exact absurd rfl hfailed
  · exact ⟨hs.inStep.declares name type htyped, hs.underWay,
      .next ⟨fun _ => hnamed.mp hsome, fun _ => rfl⟩ hs.right⟩

/-! ## Executions -/

theorem entered_leaves (statement : Nat) (s : Engine.Statement) (w : SessionWorld) :
    o.Leaves w (o.entered statement s w) := by
  refine ⟨rfl, rfl, fun _ _ => rfl, Nat.le_refl _, fun other hother => ?_⟩
  unfold executes entered
  by_cases heq : statement = other
  · rw [heq, Assoc.get?_set_self]
    exact ⟨_, rfl, rfl, .inl rfl⟩
  · rw [Assoc.get?_set_ne _ heq]
    exact hother

theorem executes_entered (statement : Nat) (s : Engine.Statement) (w : SessionWorld) :
    o.executes (o.entered statement s w) statement :=
  ⟨_, Assoc.get?_set_self _ _ _, rfl, .inl rfl⟩

/-- An execution that begins may ask for the functions that the connection has. -/
theorem Sound.enter {s : WatchedWorld} (hs : o.Sound s) (statement : Nat)
    (code : Engine.Statement) :
    o.Sound ⟨o.entered statement code s.env,
      { s.own with underWay := (statement, o.table s.env) :: s.own.underWay }⟩ := by
  have hentered := hs.leaves (entered_leaves statement code s.env)
  refine ⟨hentered.inStep, fun execution hexecution => ?_, hs.right⟩
  rcases List.mem_cons.mp hexecution with rfl | hexecution
  · exact ⟨executes_entered statement code s.env, fun f hf => hf⟩
  · exact hentered.underWay execution hexecution

/-- When an execution is over the others go on. -/
theorem Sound.leave {s : WatchedWorld} (hs : o.Sound s) (statement : Nat) :
    o.Sound ⟨s.env.left statement,
      { s.own with underWay := s.own.underWay.filter (·.1 != statement) }⟩ := by
  refine ⟨{ hs.inStep with }, fun execution hexecution => ?_, hs.right⟩
  obtain ⟨hexecution, hne⟩ := List.mem_filter.mp hexecution
  obtain ⟨⟨code, hget, hphase⟩, hknown⟩ := hs.underWay execution hexecution
  refine ⟨⟨code, ?_, hphase⟩, hknown⟩
  show (Assoc.update s.env.statements statement fun s => { s with phase := .halted }).get?
    execution.1 = some code
  rw [Assoc.get?_update_ne _ (Ne.symm (bne_iff_ne.mp hne))]
  exact hget

/-! ## Callbacks -/

section Callbacks

variable {during : ClosureRequest → SessionWorld → StateM WatchedWorld Unit}
  (answers : ClosureAnswers)

/-- The answer to a request is read after what the request causes. -/
theorem asked_keeps {α : Type} {cause : SessionWorld → StateM WatchedWorld Unit}
    (h : ∀ w, Keeps o.Sound (cause w)) (answer : SessionWorld → α) :
    Keeps o.Sound (do
      cause (← get).env
      return answer (← get).env) :=
  fun s hs => h s.env s hs

theorem answer_keeps {σ : Type} {I : σ → Prop} {a : Ambient σ} (h : a.Keeps I)
    (f : HostFunction) (invocation : Invocation) : Keeps I (a.answer f invocation) := by
  cases invocation with
  | row slot args => exact callFunction_keeps h f.record slot args
  | finish slot => exact finishGroup_keeps h f.record slot

/-- A callback comes to what its closure comes to. -/
theorem answer_lawful {σ : Type} (a : Ambient σ) (f : HostFunction) (invocation : Invocation)
    (w : σ) {c : Callee} (h : ((a.callee? (invocation.request f)).run w).1 = some c) :
    c.Lawful a ((a.callee? (invocation.request f)).run w).2 ((a.answer f invocation).run w).1 := by
  cases invocation with
  | row slot args => exact callFunction_lawful a f.record slot args w (Prod.ext h rfl)
  | finish slot => exact finishGroup_lawful a f.record slot w (Prod.ext h rfl)

/-- Whatever a running closure asks for, everything stays sound. -/
theorem ambient_keeps (h : ∀ request w, Keeps o.Sound (during request w)) :
    (o.ambient during answers).Keeps o.Sound where
  record? := record?_keeps
  setGroups := setGroups_keeps
  log := log_keeps
  emit := emit_keeps
  interrupt := interrupt_keeps
  execute c sql := asked_keeps (h _) _
  query c sql := asked_keeps (h _) _
  declare c name type := by
    unfold ambient
    dsimp only
    split
    · exact declare_keeps name type
    · exact asked_keeps (h _) _
  register c name arity callbacks := by
    unfold ambient
    dsimp only
    split
    · exact register_keeps name arity callbacks
    · exact asked_keeps (h _) _

/-- What a request makes run depends on the world alone. -/
theorem ambient_callee? (request : HostRequest) (s : WatchedWorld) :
    (((o.ambient during answers).callee? request).run s).1 =
      ((o.library.callee? request).run s.env).1 := by
  have hrecord (record : Nat) : ((o.ambient during answers).record? record).run s =
      (s.env.host.records.get? record, s) := rfl
  have hrecord' (record : Nat) : (o.library.record? record).run s.env =
      (s.env.host.records.get? record, s.env) := rfl
  cases request with
  | call record slot args =>
    unfold Ambient.callee?
    dsimp only
    rw [run_bind, run_bind, hrecord, hrecord']
    cases s.env.host.records.get? record with
    | none => rfl
    | some r =>
      dsimp only
      cases r.callbacks with
      | scalar body => rfl
      | aggregate step final => cases slot <;> rfl
  | finish record slot =>
    unfold Ambient.callee?
    dsimp only
    rw [run_bind, run_bind, hrecord, hrecord']
    cases s.env.host.records.get? record with
    | none => rfl
    | some r =>
      dsimp only
      cases r.callbacks with
      | scalar body => rfl
      | aggregate step final => rfl

/-- The closure that answers, and the type it is told, are those that the record keeps. -/
theorem callee?_eq {f : HostFunction} {w : SessionWorld} {r : FunctionRecord}
    (hr : w.host.records.get? f.record = some r) (invocation : Invocation) :
    (((o.library.callee? (invocation.request f)).run w).1).map
        (fun c => (c.body, c.call.resultType)) =
      (r.callbacks.closure? invocation).map (·, r.resultType) := by
  have hrecord : (o.library.record? f.record).run w = (some r, w) := by
    rw [← hr]
    rfl
  cases invocation with
  | row slot args =>
    unfold Invocation.request Ambient.callee?
    dsimp only
    rw [run_bind, hrecord]
    dsimp only
    cases hcallbacks : r.callbacks with
    | scalar body => rfl
    | aggregate step final => cases slot <;> rfl
  | finish slot =>
    unfold Invocation.request Ambient.callee?
    dsimp only
    rw [run_bind, hrecord]
    dsimp only
    cases hcallbacks : r.callbacks with
    | scalar body => rfl
    | aggregate step final => rfl

/-- What an execution may ask for is a function of the connection. -/
theorem Sound.mem_table {s : WatchedWorld} (hs : o.Sound s) {f : HostFunction}
    (hf : s.own.mayInvoke f = true) : f ∈ o.table s.env := by
  unfold Watch.mayInvoke at hf
  obtain ⟨execution, hexecution, hknown⟩ := List.any_eq_true.mp hf
  exact (hs.underWay execution hexecution).2 f (List.contains_iff_mem.mp hknown)

/-- A callback that an execution asks for. -/
theorem Sound.invoke {s : WatchedWorld} (hs : o.Sound s)
    (h : ∀ request w, Keeps o.Sound (during request w)) {f : HostFunction}
    (hf : s.own.mayInvoke f = true) (invocation : Invocation) :
    o.Sound (((o.ambient during answers).invoke f invocation).run s).2 := by
  obtain ⟨callee?, hcallee⟩ : ∃ callee?,
    (((o.ambient during answers).callee? (invocation.request f)).run s).1 = callee? := ⟨_, rfl⟩
  let begun : WatchedWorld :=
    ⟨s.env, { s.own with past := .invoked f invocation callee? :: s.own.past }⟩
  have hbegun : o.Sound begun := by
    refine hs.note ?_ fun _ _ => rfl
    obtain ⟨arity, r, harity, hr, hcurrent⟩ := hs.inStep.current_of_mem (hs.mem_table hf)
    refine ⟨arity, r.callbacks, r.resultType, harity, hcurrent, ?_⟩
    rw [← hcallee, ambient_callee?, callee?_eq hr]
  have hended : o.Sound (((o.ambient during answers).answer f invocation).run begun).2 :=
    answer_keeps (ambient_keeps answers h) f invocation begun hbegun
  have hrun : (((o.ambient during answers).invoke f invocation).run s).2 =
      let p := ((o.ambient during answers).answer f invocation).run begun
      ⟨p.2.env, { p.2.own with past := .replied callee? p.1 :: p.2.own.past }⟩ := by
    subst hcallee
    rfl
  rw [hrun]
  refine hended.note (fun c hc => ⟨_, _, _, answer_lawful _ f invocation begun ?_⟩) fun _ _ => rfl
  -- the note of the beginning has not changed what runs
  rw [Option.mem_def, ← hcallee, ambient_callee?] at hc
  rw [ambient_callee?]
  exact hc

end Callbacks

end Watched

/-! ## Courses -/

/-- Whatever happens on a watched connection, it stays sound. -/
theorem Course.run_keeps {o : Watched} (c : Course o) : Keeps o.Sound c.run := by
  induction c with
  | rest => exact .pure ()
  | work job next ih =>
    exact (Watched.outside_keeps job.leaves).bind fun _ => .get_bind fun s hs => ih s.env s hs
  | register name arity callbacks next ih =>
    exact (Watched.register_keeps name arity callbacks).bind fun answer =>
      .get_bind fun s hs => ih answer s.env s hs
  | declare name type next ih =>
    exact (Watched.declare_keeps name type).bind fun answer =>
      .get_bind fun s hs => ih answer s.env s hs
  | enter statement code next ih =>
    exact fun s hs => ih _ _ (hs.enter statement code)
  | leave statement next ih =>
    exact fun s hs => ih _ _ (hs.leave statement)
  | invoke f invocation during answers next ihDuring ih =>
    intro s hs
    by_cases hf : s.own.mayInvoke f = true
    · have hinvoked := hs.invoke answers ihDuring hf invocation
      unfold Course.run
      rw [run_bind, run_get]
      dsimp only
      rw [if_pos hf, run_bind]
      exact ih _ _ _ hinvoked
    · unfold Course.run
      rw [run_bind, run_get]
      dsimp only
      rw [if_neg hf, run_bind]
      exact ih _ _ _ hs

/-! ## Connections that have just been opened -/

namespace Engine

variable {H : Type}

/-- A connection that the engine opens has no functions. -/
theorem connect_ok {path : String} {flags : OpenFlags} {w w' : World H} {n : Nat}
    (h : (connect path flags).run.run w = (.ok n, w')) :
    ∃ conn, w'.connections.get? n = some conn ∧ conn.functions = [] := by
  unfold connect at h
  cases hplace : Location.ofPath path flags with
  | error fault =>
    rw [hplace] at h
    cases h
  | ok place =>
    rw [hplace] at h
    obtain ⟨file?, placeFlags⟩ := place
    cases file? with
    | none =>
      cases h
      exact ⟨_, Assoc.get?_set_self _ _ _, rfl⟩
    | some file =>
      replace h : (ExceptT.run (fileVolume file placeFlags >>= _)).run w = (.ok n, w') := h
      rw [ExceptT.run_bind, run_bind] at h
      generalize (fileVolume file placeFlags).run.run w = found at h
      obtain ⟨volume | fault, w₁⟩ := found
      · cases h
      · cases h
        exact ⟨_, Assoc.get?_set_self _ _ _, rfl⟩
end Engine

theorem openWithFlags_ok {hooks : Engine.Hooks Host} {path : String} {flags : OpenFlags}
    {w w' : SessionWorld} {c : Connection}
    (h : (Connection.openWithFlags (native hooks) path flags).run w = (.ok c, w')) :
    ∃ number conn, c.native? = some number ∧ c.functions = [] ∧
      w'.connections.get? number = some conn ∧ conn.functions = [] := by
  unfold Connection.openWithFlags at h
  by_cases hempty : path.isEmpty = true
  · rw [if_pos hempty] at h
    cases h
  rw [if_neg hempty] at h
  unfold Connection.connect at h
  cases hnul : nulError? path with
  | some reason =>
    rw [hnul] at h
    cases h
  | none =>
    rw [hnul] at h
    dsimp only at h
    have hconnect : (native hooks).connect path flags = connectNative path flags := rfl
    rw [hconnect, run_bind, run_bind] at h
    unfold connectNative at h
    rw [run_bind] at h
    have hopened {n w'} (hrun : (Engine.connect path flags).run.run w = (.ok n, w')) :=
      Engine.connect_ok hrun
    generalize (Engine.connect path flags).run.run w = p at h hopened
    obtain ⟨number | fault, w₁⟩ := p
    · cases h
    · cases h
      obtain ⟨conn, hconn, hnone⟩ := hopened rfl
      exact ⟨_, conn, rfl, rfl, hconn, hnone⟩

/-- A connection that has just been opened. -/
structure Watched.Opened (o : Watched) (w : SessionWorld) : Prop where
  connection : ∃ c, w.host.connections.get? o.name = some c ∧ c.native? = some o.number ∧
    c.functions = []
  table? : o.table? w = some []

/-- So is one that the library has opened and that has got its name. -/
theorem opened_of_open {hooks : Engine.Hooks Host} {path : String} {flags : OpenFlags}
    {w w' : SessionWorld} {c : Connection} (name : String)
    (h : (Connection.openWithFlags (native hooks) path flags).run w = (.ok c, w')) :
    ∃ number, c.native? = some number ∧
      Watched.Opened ⟨number, name, hooks⟩ ((Session.keepConnection name c).run w').2 := by
  obtain ⟨number, conn, hnumber, hnone, hconn, htable⟩ := openWithFlags_ok h
  refine ⟨number, hnumber, ⟨c, Assoc.get?_set_self _ _ _, hnumber, hnone⟩, ?_⟩
  show (w'.connections.get? number).map _ = some []
  rw [hconn]
  exact congrArg some htable

theorem Watched.Opened.sound {o : Watched} {w : SessionWorld} (h : o.Opened w) :
    o.Sound ⟨w, .start⟩ := by
  obtain ⟨c, hc, hnumber, hnone⟩ := h.connection
  have hregistry : o.registry w = [] := by
    unfold Watched.registry
    rw [hc]
    exact hnone
  have habsent (key : String × Int32) : (o.registry w).get? key = none := by
    rw [hregistry]
    rfl
  have hnothing {key : String × Int32} {n : Nat} {P : Prop}
      (hget : (o.registry w).get? key = some n) : P := by
    rw [habsent] at hget
    cases hget
  have htable : o.table w = [] := by
    unfold Watched.table
    rw [h.table?]
    rfl
  have hinStep : o.InStep w [] := {
    isOpen := ⟨c, hc, hnumber⟩
    connected := ⟨[], h.table?⟩
    keys := hregistry ▸ List.nodup_nil
    numbered := fun _ _ hget => hnothing hget
    present := fun _ _ hget => hnothing hget
    apart := fun _ _ _ hget => hnothing hget
    listed := by
      rw [htable]
      nofun
    tabled := fun _ _ _ hget => hnothing hget
    current := fun name arity => by
      rw [habsent]
      rfl }
  exact ⟨hinStep, nofun, .start⟩

end HostSql
