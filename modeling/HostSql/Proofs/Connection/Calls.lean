import HostSql.Proofs.Connection.Life
import HostSql.Proofs.Statement.Release

/-!
# What each operation of a connection does to it

> `perform_effect`: a call of a closed value is refused and changes nothing, `close` gives the
> connection of an open value away, and every other call keeps it and its path.
> `Opening.run_notes`: opening a database makes the connection of the new value, or releases at
> once what it made.

Each operation is walked through for three things: that a closed value refuses it
(`perform_closed`), that an open value does not (`perform_open`), and that the engine makes and
releases no connection in it but in `close` (`perform_coupled_tracking`).
-/

namespace HostSql

open Beside

variable {σ τ α β : Type}

/-! ## Operations that ask nothing about connections -/

/-- A world, and the same world beside these notes. -/
def Besides (notes : List HandleNote) (w : σ) (s : Beside σ (List HandleNote)) : Prop :=
  s = ⟨w, notes⟩

theorem outside_besides (notes : List HandleNote) (x : StateM σ α) :
    Coupled (Besides notes) x (outside x) := by
  rintro w _ rfl
  exact ⟨rfl, rfl⟩

/-- Coupled operations on the connection of a value are coupled. -/
theorem withNative_coupled {R : σ → τ → Prop} (c : Connection) {f : Nat → StateM σ (Except Error α)}
    {g : Nat → StateM τ (Except Error α)} (h : ∀ k, Coupled R (f k) (g k)) :
    Coupled R (c.withNative f) (c.withNative g) := by
  unfold Connection.withNative
  cases c.native? with
  | none => exact .pure _
  | some k => exact h k

section Calls

variable (n : Native σ) (notes : List HandleNote) (c : Connection)

theorem compile_coupled (sql : String) :
    Coupled (Besides notes) (c.compile n sql) (c.compile n.tracking sql) := by
  refine withNative_coupled c fun k => ?_
  have hprepare : Coupled (Besides notes) (Connection.prepare n k sql)
      (Connection.prepare n.tracking k sql) := by
    unfold Connection.prepare
    cases nulError? sql with
    | some reason => exact .pure _
    | none =>
      refine (outside_besides notes _).bind fun answer => ?_
      cases answer with
      | error failure => exact .pure _
      | ok result => exact .pure _
  refine hprepare.bind fun answer => ?_
  cases answer with
  | error e => exact (outside_besides notes _).bind fun _ => .pure _
  | ok result => exact .pure _

theorem execute_coupled (sql : String) :
    Coupled (Besides notes) (c.execute n sql) (c.execute n.tracking sql) := by
  refine withNative_coupled c fun k => ?_
  cases nulError? sql with
  | some reason => exact .pure _
  | none =>
    refine (outside_besides notes _).bind fun failure? => ?_
    cases failure? with
    | some failure => exact .pure _
    | none => exact .pure _

theorem setPolicy_coupled (policy : Option BusyPolicy) :
    Coupled (Besides notes) (c.setPolicy n policy) (c.setPolicy n.tracking policy) :=
  withNative_coupled c fun _ => (outside_besides notes _).map _

theorem register_coupled (name : String) (arity : Int32) (callbacks : Callbacks) :
    Coupled (Besides notes) (c.register n name arity callbacks)
      (c.register n.tracking name arity callbacks) := by
  unfold Connection.register
  cases c.native? with
  | none => exact .pure _
  | some k =>
    cases nulError? name with
    | some reason => exact .pure _
    | none =>
      refine (outside_besides notes _).bind fun answer => ?_
      cases answer with
      | error code => exact .pure _
      | ok number => exact .pure _

theorem declare_coupled (name : String) (type : ResultType) :
    Coupled (Besides notes) (c.declare n name type) (c.declare n.tracking name type) := by
  refine withNative_coupled c fun k => ?_
  have hall : ∀ records : List Nat, Coupled (Besides notes)
      (records.forM fun record => n.declareType record type)
      (records.forM fun record => n.tracking.declareType record type) := by
    intro records
    induction records with
    | nil => exact .pure _
    | cons record records ih => exact (outside_besides notes _).bind fun _ => ih
  by_cases hnone : (c.functions.named name).isEmpty = true
  · rw [if_pos hnone, if_pos hnone]
    exact .pure _
  · rw [if_neg hnone, if_neg hnone]
    exact (hall _).bind fun _ => .pure _

/-- A call other than `close` is not changed by noting which connections are made and released,
and there are none. -/
theorem perform_coupled_tracking (call : ConnectionCall) (hcall : call.isClose = false) :
    Coupled (Besides notes) (c.perform n call) (c.perform n.tracking call) := by
  have hreads : ∀ {α : Type} (x : Nat → StateM σ α), Coupled (Besides notes)
      (c.withNative fun k => .ok <$> x k) (c.withNative fun k => .ok <$> outside (x k)) :=
    fun x => withNative_coupled c fun k => (outside_besides notes (x k)).map _
  cases call with
  | close => exact nomatch hcall
  | compile sql => exact (compile_coupled n notes c sql).bind fun _ => .pure _
  | execute sql => exact (execute_coupled n notes c sql).bind fun _ => .pure _
  | lastInsertRowId => exact (hreads n.lastInsertRowId).bind fun _ => .pure _
  | changes => exact (hreads n.changes).bind fun _ => .pure _
  | interrupt => exact (hreads n.interrupt).bind fun _ => .pure _
  | interruptHandle => exact .pure _
  | busyHandler callback => exact (setPolicy_coupled n notes c _).bind fun _ => .pure _
  | busyTimeout ms => exact (setPolicy_coupled n notes c _).bind fun _ => .pure _
  | register name arity callbacks =>
    exact (register_coupled n notes c name arity callbacks).bind fun _ => .pure _
  | declare name type => exact (declare_coupled n notes c name type).bind fun _ => .pure _

end Calls

/-! ## Calls of closed and open values -/

/-- A closed value refuses every call, and nothing changes. -/
theorem perform_closed (m : Native σ) {c : Connection} (h : c.native? = none)
    (call : ConnectionCall) (w : σ) : ∃ answer, (c.perform m call).run w = ((answer, c), w) ∧
      answer.error? = some (.closedHandle .database) := by
  have hnone : ∀ {α : Type} (answer : Except Error α → ConnectionAnswer)
      (f : Nat → StateM σ (Except Error α)),
      (do return (answer (← c.withNative f), c) : StateM σ _).run w =
        ((answer (.error (.closedHandle .database)), c), w) := by
    intro α answer f
    unfold Connection.withNative
    rw [h]
    rfl
  cases call with
  | close =>
    refine ⟨.unit (.error (.closedHandle .database)), ?_, rfl⟩
    unfold Connection.perform Connection.close
    simp only [h]
    rfl
  | register name arity callbacks =>
    refine ⟨.unit (.error (.closedHandle .database)), ?_, rfl⟩
    unfold Connection.perform Connection.register
    simp only [h]
    rfl
  | interruptHandle =>
    refine ⟨.handle (.error (.closedHandle .database)), ?_, rfl⟩
    unfold Connection.perform Connection.interruptHandle
    simp only [h]
    rfl
  | compile sql => exact ⟨_, hnone .compiled _, rfl⟩
  | execute sql => exact ⟨_, hnone .unit _, rfl⟩
  | lastInsertRowId => exact ⟨_, hnone .number _, rfl⟩
  | changes => exact ⟨_, hnone .number _, rfl⟩
  | interrupt => exact ⟨_, hnone .unit _, rfl⟩
  | busyHandler callback => exact ⟨_, hnone .unit _, rfl⟩
  | busyTimeout ms => exact ⟨_, hnone .unit _, rfl⟩
  | declare name type => exact ⟨_, hnone .unit _, rfl⟩

/-- An answer that is not the refusal of a closed connection. -/
def Accepts (answer : Except Error α) : Prop := errorOf? answer ≠ some (.closedHandle .database)

theorem accepts_ok (a : α) : Accepts (.ok a) := nofun

/-- An open value refuses no call. -/
theorem withNative_accepts {c : Connection} {k : Nat} (h : c.native? = some k)
    {f : Nat → StateM σ (Except Error α)} (hf : ∀ w, Accepts ((f k).run w).1) (w : σ) :
    Accepts ((c.withNative f).run w).1 := by
  unfold Connection.withNative
  rw [h]
  exact hf w

section Open

variable (m : Native σ) {c : Connection} {k : Nat} (h : c.native? = some k)

include h

theorem compile_accepts (sql : String) (w : σ) : Accepts ((c.compile m sql).run w).1 := by
  refine withNative_accepts h (fun w => ?_) w
  have hprepare : ∀ e, ((Connection.prepare m k sql).run w).1 = .error e →
      ∃ code message, e = .ofCode code message := by
    intro e he
    unfold Connection.prepare at he
    cases hnul : nulError? sql with
    | some reason =>
      rw [hnul] at he
      cases he
      exact ⟨_, _, rfl⟩
    | none =>
      simp only [hnul, run_bind] at he
      cases hanswer : ((m.prepare k sql).run w).1 with
      | error failure =>
        rw [hanswer] at he
        cases he
        exact ⟨_, _, rfl⟩
      | ok result =>
        rw [hanswer] at he
        exact nomatch he
  rw [run_bind]
  cases hanswer : ((Connection.prepare m k sql).run w).1 with
  | error e =>
    obtain ⟨code, message, rfl⟩ := hprepare e hanswer
    exact nofun
  | ok result => exact nofun

theorem execute_accepts (sql : String) (w : σ) : Accepts ((c.execute m sql).run w).1 := by
  refine withNative_accepts h (fun w => ?_) w
  cases nulError? sql with
  | some reason => exact nofun
  | none =>
    rw [run_bind]
    cases ((m.execute k sql).run w).1 with
    | some failure => exact nofun
    | none => exact nofun

theorem declare_accepts (name : String) (type : ResultType) (w : σ) :
    Accepts ((c.declare m name type).run w).1 := by
  refine withNative_accepts h (fun w => ?_) w
  by_cases hnone : (c.functions.named name).isEmpty = true
  · rw [if_pos hnone]
    exact nofun
  · rw [if_neg hnone]
    exact nofun

/-- A registration may change what functions the value knows. -/
theorem register_accepts (name : String) (arity : Int32) (callbacks : Callbacks) (w : σ) :
    let p := ((c.register m name arity callbacks).run w).1
    Accepts p.1 ∧ ∃ functions, p.2 = { c with functions } := by
  obtain ⟨native?, path, functions⟩ := c
  cases h
  unfold Connection.register
  cases nulError? name with
  | some reason => exact ⟨nofun, functions, rfl⟩
  | none =>
    rw [run_bind]
    cases ((m.register k (FunctionRecord.new name arity callbacks)).run w).1 with
    | error code => exact ⟨nofun, functions, rfl⟩
    | ok number => exact ⟨nofun, _, rfl⟩

/-- An open value refuses no call, and keeps the connection and the path in all but `close`. -/
theorem perform_open (call : ConnectionCall) (hcall : call.isClose = false) (w : σ) :
    let p := ((c.perform m call).run w).1
    p.1.error? ≠ some (.closedHandle .database) ∧ ∃ functions, p.2 = { c with functions } := by
  have hreads : ∀ {α : Type} (x : Nat → StateM σ α),
      Accepts ((c.withNative fun k => .ok <$> x k).run w).1 := by
    intro α x
    refine withNative_accepts h (fun w' => ?_) w
    exact accepts_ok ((x k).run w').1
  cases call with
  | close => exact nomatch hcall
  | compile sql => exact ⟨compile_accepts m h sql w, c.functions, rfl⟩
  | execute sql => exact ⟨execute_accepts m h sql w, c.functions, rfl⟩
  | lastInsertRowId => exact ⟨hreads m.lastInsertRowId, c.functions, rfl⟩
  | changes => exact ⟨hreads m.changes, c.functions, rfl⟩
  | interrupt => exact ⟨hreads m.interrupt, c.functions, rfl⟩
  | interruptHandle =>
    refine ⟨?_, c.functions, rfl⟩
    show Accepts c.interruptHandle
    unfold Connection.interruptHandle
    rw [h]
    exact accepts_ok _
  | busyHandler callback => exact ⟨hreads fun k => m.setPolicy k _, c.functions, rfl⟩
  | busyTimeout ms => exact ⟨hreads fun k => m.setPolicy k _, c.functions, rfl⟩
  | register name arity callbacks => exact register_accepts m h name arity callbacks w
  | declare name type => exact ⟨declare_accepts m h name type w, c.functions, rfl⟩

end Open

/-! ## Opening, closing and dropping -/

section Handles

variable (n : Native σ)

/-- Closing an open value releases its connection, and answers as the engine did. -/
theorem perform_close {c : Connection} {h : Nat} (hopen : c.native? = some h) (w : σ) :
    let failure? := ((n.disconnect h).run w).1
    ((c.perform n .close).run w).1 = (.unit (releaseAnswer failure?), { c with native? := none }) ∧
      ((c.perform n.tracking .close).run ⟨w, []⟩).2.own = [.released h failure?] := by
  obtain ⟨native?, path, functions⟩ := c
  cases hopen
  have hdisconnect : (n.tracking.disconnect h).run ⟨w, []⟩ =
      (((n.disconnect h).run w).1,
        ⟨((n.disconnect h).run w).2, [.released h ((n.disconnect h).run w).1]⟩) := rfl
  unfold Connection.perform Connection.close
  simp only [run_bind, hdisconnect]
  cases ((n.disconnect h).run w).1 with
  | some failure => exact ⟨rfl, rfl⟩
  | none => exact ⟨rfl, rfl⟩

theorem isClosed_of_none {c : Connection} (h : c.native? = none) : c.isClosed = true := by
  unfold Connection.isClosed
  rw [h]
  rfl

theorem isClosed_of_some {c : Connection} {k : Nat} (h : c.native? = some k) :
    c.isClosed = false := by
  unfold Connection.isClosed
  rw [h]
  rfl

/-- What a call of a value does: the notes, the answer and the value after it. -/
inductive CallEffect (c : Connection) (call : ConnectionCall) (before after : σ) :
    List HandleNote → ConnectionAnswer → Connection → Prop where
  | refused {answer : ConnectionAnswer} (closed : c.isClosed = true)
      (error : answer.error? = some (.closedHandle .database)) (world : after = before) :
      CallEffect c call before after [] answer c
  | taken {h : Nat} (failure? : Option NativeFailure) (held : c.native? = some h)
      (close : call.isClose = true) :
      CallEffect c call before after [.released h failure?] (.unit (releaseAnswer failure?))
        { c with native? := none }
  | kept {answer : ConnectionAnswer} (functions : FunctionRegistry) (live : c.isClosed = false)
      (other : call.isClose = false) (error : answer.error? ≠ some (.closedHandle .database)) :
      CallEffect c call before after [] answer { c with functions }

/-- A closed value refuses, an open one gives its connection away or keeps it. -/
theorem perform_effect (c : Connection) (call : ConnectionCall) (w : σ) :
    let p := (c.perform n call).run w
    CallEffect c call w p.2 ((c.perform n.tracking call).run ⟨w, []⟩).2.own p.1.1 p.1.2 := by
  cases hnative : c.native? with
  | none =>
    obtain ⟨answer, hrun, herror⟩ := perform_closed n hnative call w
    obtain ⟨_, htracked, -⟩ := perform_closed n.tracking hnative call ⟨w, []⟩
    rw [hrun, htracked]
    exact .refused (isClosed_of_none hnative) herror rfl
  | some h =>
    cases hcall : call.isClose with
    | true =>
      cases call with
      | close =>
        obtain ⟨hanswer, hnotes⟩ := perform_close n hnative w
        dsimp only
        rw [hanswer, hnotes]
        exact .taken _ hnative rfl
      | _ => exact nomatch hcall
    | false =>
      obtain ⟨herror, functions, hnext⟩ := perform_open n hnative call hcall w
      have hnotes : (c.perform n.tracking call).run ⟨w, []⟩ =
          (((c.perform n call).run w).1, ⟨((c.perform n call).run w).2, []⟩) := by
        obtain ⟨hsame, hworld⟩ := perform_coupled_tracking n [] c call hcall w ⟨w, []⟩ rfl
        exact Prod.ext hsame.symm hworld
      dsimp only
      rw [hnotes, hnext]
      exact .kept functions (isClosed_of_some hnative) hcall herror

section Effects

variable {c c' : Connection} {call : ConnectionCall} {b after : σ} {notes : List HandleNote}
  {answer : ConnectionAnswer} (h : CallEffect c call b after notes answer c')

include h

theorem CallEffect.isClosed : c'.isClosed = (c.isClosed || call.isClose) := by
  cases h with
  | refused hclosed => rw [hclosed, Bool.true_or]
  | taken _ _ hclose =>
    rw [hclose, Bool.or_true]
    rfl
  | kept _ _ hother =>
    rw [hother, Bool.or_false]
    rfl

theorem CallEffect.path : c'.path = c.path := by
  cases h <;> rfl

theorem CallEffect.opened : openedIn notes = [] := by
  cases h <;> rfl

/-- What a value held before a call has been released by it or is held afterwards. -/
theorem CallEffect.held : c.native?.toList = releasedIn notes ++ c'.native?.toList := by
  cases h with
  | refused => rfl
  | taken _ held =>
    rw [held]
    rfl
  | kept => rfl

/-- What a call does is what is expected of it. -/
theorem CallEffect.lawful {e : HostEntry σ} {i : Nat}
    (he : e = ⟨.call i call, b, notes, .called answer, after, some c, some c'⟩) :
    CallLawful c.isClosed call c e := by
  have hisClosed : e.next?.map (·.isClosed) = some (c.isClosed || call.isClose) := by
    rw [← h.isClosed, he]
    rfl
  subst he
  cases h with
  | refused hclosed herror hworld =>
    rw [hclosed] at hisClosed ⊢
    exact ⟨⟨fun _ => rfl, fun _ => herror⟩, fun _ => ⟨rfl, hworld, rfl⟩, nofun, nofun, hclosed,
      hisClosed⟩
  | @taken k failure? held hclose =>
    rw [isClosed_of_some held] at hisClosed ⊢
    refine ⟨⟨fun h => ?_, nofun⟩, nofun, fun _ _ => ⟨k, failure?, held, rfl, rfl, rfl⟩, ?_,
      isClosed_of_some held, hisClosed⟩
    · cases failure? with
      | some failure => exact absurd h (ofCode_ne_closed _ _ _)
      | none => exact nomatch h
    · intro _ hother
      rw [hclose] at hother
      exact nomatch hother
  | kept functions hlive hother herror =>
    rw [hlive] at hisClosed ⊢
    refine ⟨⟨fun h => absurd h herror, nofun⟩, nofun, ?_, fun _ _ => ⟨rfl, functions, rfl⟩, hlive,
      hisClosed⟩
    intro _ hclose
    rw [hother] at hclose
    exact nomatch hclose

end Effects

/-- Dropping an open value releases its connection. -/
theorem drop_open {c : Connection} {h : Nat} (hopen : c.native? = some h) (w : σ) :
    ((c.drop n.tracking).run ⟨w, []⟩).2.own = [.released h ((n.disconnect h).run w).1] := by
  unfold Connection.drop
  rw [hopen]
  rfl

/-- Dropping a closed value does nothing. -/
theorem drop_closed (m : Native σ) {c : Connection} (hclosed : c.native? = none) (w : σ) :
    (c.drop m).run w = ((), w) := by
  unfold Connection.drop
  rw [hclosed]
  rfl

/-- Notes of an attempt to open a connection: one was made and is open, or none was, or it was
released at once. -/
def OpeningNotes (notes : List HandleNote) : Except Error Nat → Prop
  | .ok h => notes = [.opened h]
  | .error _ => notes = [] ∨ ∃ h failure?, notes = [.opened h, .released h failure?]

theorem connect_notes (path : String) (flags : OpenFlags) (w : σ) :
    let p := (Connection.connect n path flags).run w
    let q := (Connection.connect n.tracking path flags).run ⟨w, []⟩
    q.1 = p.1 ∧ OpeningNotes q.2.own p.1 := by
  unfold Connection.connect
  cases nulError? path with
  | some reason => exact ⟨rfl, .inl rfl⟩
  | none =>
    have hconnect : (n.tracking.connect path flags).run ⟨w, []⟩ =
        (((n.connect path flags).run w).1,
          ⟨((n.connect path flags).run w).2, connectNotes ((n.connect path flags).run w).1⟩) :=
      rfl
    simp only [run_bind, hconnect]
    rcases (n.connect path flags).run w with ⟨⟨failure, _ | h⟩ | h, w'⟩
    · exact ⟨rfl, .inl rfl⟩
    · exact ⟨rfl, .inr ⟨h, _, rfl⟩⟩
    · exact ⟨rfl, rfl⟩

/-- What is expected of the value of an attempt to open a database, and of its notes. -/
def OpenedValue (path : String) (notes : List HandleNote) : Except Error Connection → Prop
  | .ok c => ∃ h, OpeningNotes notes (.ok h) ∧ c = ⟨some h, path, []⟩
  | .error e => OpeningNotes notes (.error e)

theorem openWithFlags_notes (path : String) (flags : OpenFlags) (w : σ) :
    OpenedValue path ((Connection.openWithFlags n.tracking path flags).run ⟨w, []⟩).2.own
      ((Connection.openWithFlags n path flags).run w).1 := by
  unfold Connection.openWithFlags
  by_cases hempty : path.isEmpty = true
  · rw [if_pos hempty, if_pos hempty]
    exact .inl rfl
  rw [if_neg hempty, if_neg hempty]
  obtain ⟨hsame, hnotes⟩ := connect_notes n path flags w
  simp only [run_bind]
  rw [hsame]
  cases hanswer : ((Connection.connect n path flags).run w).1 with
  | error e =>
    rw [hanswer] at hnotes
    exact hnotes
  | ok h =>
    rw [hanswer] at hnotes
    exact ⟨h, hnotes, rfl⟩

/-- Opening a database makes the connection of the new value, or none that is left open. -/
theorem Opening.run_notes (how : Opening) (w : σ) :
    OpenedValue how.path ((how.run n.tracking).run ⟨w, []⟩).2.own ((how.run n).run w).1 := by
  have hmode : ∀ path mode, OpenedValue path
      ((Connection.openMode n.tracking path mode).run ⟨w, []⟩).2.own
      ((Connection.openMode n path mode).run w).1 := by
    intro path mode
    unfold Connection.openMode
    cases OpenFlags.ofMode mode with
    | error e => exact .inl rfl
    | ok flags => exact openWithFlags_notes n path flags w
  cases how with
  | mode path number => exact hmode path number
  | flags path set => exact openWithFlags_notes n path set w
  | memory => exact hmode Connection.memoryPath 0

end Handles

end HostSql
