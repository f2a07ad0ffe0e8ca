import HostSql.Proofs.Connection.Calls
import HostSql.Proofs.Error.Kinds
import HostSql.Proofs.Invariance
import HostSql.Session.Host

/-!
# Where errors come from

An `Operation` is anything that the host may ask of a connection, of a statement, or from inside a
closure of the call that the closure serves. An error says by its form which of them failed and on
whose account: `ErrorLawful`. What callers sort errors by, the form, the kind and the code, never
contradicts itself.

> `Operation.error_origin`: the errors of an operation come from six places.
> `Operation.error_lawful`: so whatever an operation returns is lawful, if the engine only reports
> primary result codes.

`native_primaryCodes` says that the engine of this library does.
-/

namespace HostSql

variable {σ α β : Type}

/-! ## Primary codes -/

/-- The library's own code is not one of the engine's. -/
theorem ErrorKind.known_ne_bindingError {code : Int32} (h : isKnownFailure code = true) :
    code ≠ bindingError := by
  rintro rfl
  exact absurd h (by decide)

/-- Whatever fails in the engine reports a primary code, and a step that does not fail has a row or
is at the end. -/
structure Native.PrimaryCodes (n : Native σ) : Prop where
  connect : ∀ path flags w failure, ((n.connect path flags).run w).1 = .error failure →
    ErrorKind.isKnownFailure failure.code = true
  disconnect : ∀ k w failure, ((n.disconnect k).run w).1 = some failure →
    ErrorKind.isKnownFailure failure.code = true
  prepare : ∀ k sql w failure, ((n.prepare k sql).run w).1 = .error failure →
    ErrorKind.isKnownFailure failure.code = true
  execute : ∀ k sql w failure, ((n.execute k sql).run w).1 = some failure →
    ErrorKind.isKnownFailure failure.code = true
  register : ∀ k r w code, ((n.register k r).run w).1 = .error code →
    ErrorKind.isKnownFailure code = true
  step : ∀ k w, let code := ((n.step k).run w).1.code
    code = ResultCode.row ∨ code = ResultCode.done ∨ ErrorKind.isKnownFailure code = true
  finalize : ∀ k w failure, ((n.finalize k).run w).1 = some failure →
    ErrorKind.isKnownFailure failure.code = true

/-! ## Operations -/

/-- What a closure may ask of the call that it serves. -/
inductive ContextCall where
  | setResult (call : Call) (v : Value)
  | readState
  | insert (key : String) (v : Value)
  | readCount

/-- The error of a request about a call, if it fails. -/
def ContextCall.error? (f : Frame) : ContextCall → Option Error
  | setResult call v => errorOf? (call.setResult f.pending v).1
  | readState => errorOf? (f.ofGroup (·.state))
  | insert key v => errorOf? (f.insert key v).1
  | readCount => errorOf? (f.ofGroup (·.rows))

/-- Anything that a host may ask for. -/
inductive Operation where
  | opening (how : Opening)
  | connection (c : Connection) (request : ConnectionCall)
  | statement (s : Statement) (request : StatementCall)
  | context (f : Frame) (request : ContextCall)

/-- Does what is asked for; the result is the error, if it fails. -/
def Operation.error? (n : Native σ) : Operation → StateM σ (Option Error)
  | opening how => errorOf? <$> how.run n
  | connection c request => (·.1.error?) <$> c.perform n request
  | statement s request => (·.1.error?) <$> s.perform n request
  | context f request => pure (request.error? f)

def Operation.isOpening : Operation → Bool
  | opening _ => true
  | connection _ _ | statement _ _ | context _ _ => false

/-- Whether a path can not be handed to the engine. -/
def Opening.refusesPath (path : String) : Bool := path.isEmpty || (nulError? path).isSome

/-- Whether a mode stands for no flags. -/
def Opening.refusesMode (mode : Int32) : Bool := (errorOf? (OpenFlags.ofMode mode)).isSome

/-- Whether an attempt to open a database is refused for its mode or its path. -/
def Opening.isRefused : Opening → Bool
  | mode path number => refusesMode number || refusesPath path
  | flags path _ => refusesPath path
  | memory => false

/-- Whether a value has no place in the result of a call. -/
def Value.IsBlobOrNull : Value → Prop
  | .blob _ | .null => True
  | .integer _ | .float _ | .text _ => False

/-! ## What is expected of errors -/

/-- What is expected of the error of an operation that failed in a world. -/
structure ErrorLawful (n : Native σ) (w : σ) (op : Operation) (e : Error) : Prop where
  kind : e.kind = ErrorKind.ofCode e.code
  /-- Opening fails in a way of its own. -/
  opening : (∃ code message, e = .opening code message) ↔ op.isOpening = true
  /-- The library's own code says that a mode or a path was refused. -/
  refused : ∀ how, op = .opening how → (e.code = bindingError ↔ how.isRefused = true)
  /-- Then the engine is not asked: any other one would have done as well. -/
  unasked : ∀ how, op = .opening how → how.isRefused = true →
    ∀ m : Native σ, m.log = n.log → how.run m = how.run n
  /-- Otherwise the engine was asked, and said no. -/
  asked : ∀ how, op = .opening how → how.isRefused = false →
    ∃ flags failure, ((n.connect how.path flags).run w).1 = .error failure ∧
      e = .opening failure.code failure.message
  database : e = .closedHandle .database → ∃ c request, op = .connection c request ∧
    c.isClosed = true
  statement : e = .closedHandle .statement → ∃ s request, op = .statement s request ∧
    s.isFinalized = true
  badResultType : ∀ typeName, e = .badResultType typeName → ∃ f call v,
    op = .context f (.setResult call v) ∧ v.IsBlobOrNull ∧ typeName = v.typeName
  /-- All other errors have a kind below the root, which knows their code. -/
  others : (∃ code message, e = .opening code message) ∨ (∃ handle, e = .closedHandle handle) ∨
    (∃ typeName, e = .badResultType typeName) ∨
    ∃ kind code message, e = .engine kind code message ∧ kind ≠ .database ∧
      kind.code? = some code
  display : e.display = match e with
    | .engine kind _ _ => kind.name ++ ": " ++ e.message
    | .opening _ _ => "unable to open database: " ++ e.message
    | .closedHandle _ | .badResultType _ | .unknownStep _ => e.message

/-- The places that errors come from. -/
inductive ErrorOrigin (n : Native σ) (w : σ) : Operation → Error → Prop where
  | refused {how : Opening} (message : String) (h : how.isRefused = true) :
    ErrorOrigin n w (.opening how) (.opening bindingError message)
  | unopened {how : Opening} (h : how.isRefused = false) {flags : OpenFlags}
    {failure : ConnectFailure} (answer : ((n.connect how.path flags).run w).1 = .error failure)
    (known : ErrorKind.isKnownFailure failure.code = true) :
    ErrorOrigin n w (.opening how) (.opening failure.code failure.message)
  | closed {c : Connection} (request : ConnectionCall) (h : c.isClosed = true) :
    ErrorOrigin n w (.connection c request) (.closedHandle .database)
  | finalized {s : Statement} (request : StatementCall) (h : s.isFinalized = true) :
    ErrorOrigin n w (.statement s request) (.closedHandle .statement)
  | badType (f : Frame) (call : Call) {v : Value} (h : v.IsBlobOrNull) :
    ErrorOrigin n w (.context f (.setResult call v)) (.badResultType v.typeName)
  | code {op : Operation} (h : op.isOpening = false) {code : Int32} (message : String)
    (known : ErrorKind.isKnownFailure code = true) : ErrorOrigin n w op (.ofCode code message)

/-! ## Errors with a primary code -/

/-- An error that carries a primary code. -/
def Error.IsPrimary (e : Error) : Prop :=
  ∃ code message, ErrorKind.isKnownFailure code = true ∧ e = .ofCode code message

/-- The errors of a computation, where it fails. -/
def FailsWith (P : Error → Prop) (x : StateM σ (Except Error α)) : Prop :=
  ∀ w e, (x.run w).1 = .error e → P e

namespace FailsWith

variable {P : Error → Prop}

theorem pure_ok (a : α) : FailsWith P (pure (.ok a) : StateM σ (Except Error α)) := nofun

theorem pure_error {e : Error} (h : P e) :
    FailsWith P (pure (.error e) : StateM σ (Except Error α)) := by
  intro w e' he
  cases he
  exact h

/-- What follows may use that its answer was given in some world. -/
theorem bind {x : StateM σ α} {f : α → StateM σ (Except Error β)}
    (hf : ∀ w, FailsWith P (f (x.run w).1)) : FailsWith P (x >>= f) := by
  intro w e he
  exact hf w _ e he

theorem map_ok {x : StateM σ α} : FailsWith P (.ok <$> x) := nofun

end FailsWith

theorem CallAnswer.error?_stepped (answer : Except Error StepResult) :
    (stepped answer).error? = errorOf? answer := by
  cases answer <;> rfl

theorem CallAnswer.error?_finalized (answer : Except Error Unit) :
    (finalized answer).error? = errorOf? answer := by
  cases answer <;> rfl

theorem eq_error_of_errorOf? {answer : Except Error α} {e : Error}
    (h : errorOf? answer = some e) : answer = .error e := by
  cases answer with
  | ok a => exact nomatch h
  | error e' => exact congrArg Except.error (Option.some.inj h)

theorem primary_ofCode {code : Int32} (h : ErrorKind.isKnownFailure code = true)
    (message : String) : (Error.ofCode code message).IsPrimary :=
  ⟨code, message, h, rfl⟩

theorem nulIn_primary (what reason : String) : (Connection.nulIn what reason).IsPrimary :=
  primary_ofCode (by decide) _

section Connection

variable {n : Native σ} (hn : n.PrimaryCodes) {c : Connection}

/-- What an open value does with its connection decides how it fails. -/
theorem withNative_fails {P : Error → Prop} (h : c.isClosed = false)
    {f : Nat → StateM σ (Except Error α)} (hf : ∀ k, FailsWith P (f k)) :
    FailsWith P (c.withNative f) := by
  unfold Connection.withNative
  cases hnative : c.native? with
  | none => simp [Connection.isClosed, hnative] at h
  | some k => exact hf k

include hn

theorem prepare_fails (k : Nat) (sql : String) :
    FailsWith Error.IsPrimary (Connection.prepare n k sql) := by
  unfold Connection.prepare
  cases nulError? sql with
  | some reason => exact .pure_error (nulIn_primary _ _)
  | none =>
    refine .bind fun w => ?_
    cases hanswer : ((n.prepare k sql).run w).1 with
    | error failure => exact .pure_error (primary_ofCode (hn.prepare k sql w failure hanswer) _)
    | ok result => exact .pure_ok _

theorem compile_fails (h : c.isClosed = false) (sql : String) :
    FailsWith Error.IsPrimary (c.compile n sql) := by
  refine withNative_fails h fun k => ?_
  refine .bind fun w => ?_
  cases hanswer : ((Connection.prepare n k sql).run w).1 with
  | error e =>
    have hprimary : e.IsPrimary := prepare_fails hn k sql w e hanswer
    exact .bind fun _ => .pure_error hprimary
  | ok result => exact .pure_ok _

theorem execute_fails (h : c.isClosed = false) (sql : String) :
    FailsWith Error.IsPrimary (c.execute n sql) := by
  refine withNative_fails h fun k => ?_
  cases nulError? sql with
  | some reason => exact .pure_error (nulIn_primary _ _)
  | none =>
    refine .bind fun w => ?_
    cases hanswer : ((n.execute k sql).run w).1 with
    | some failure => exact .pure_error (primary_ofCode (hn.execute k sql w failure hanswer) _)
    | none => exact .pure_ok _

theorem close_fails (h : c.isClosed = false) (w : σ) (e : Error)
    (he : ((c.close n).run w).1.1 = .error e) : e.IsPrimary := by
  unfold Connection.close at he
  cases hnative : c.native? with
  | none => simp [Connection.isClosed, hnative] at h
  | some k =>
    simp only [hnative, run_bind] at he
    cases hanswer : ((n.disconnect k).run w).1 with
    | some failure =>
      rw [hanswer] at he
      cases he
      exact primary_ofCode (hn.disconnect k w failure hanswer) _
    | none =>
      rw [hanswer] at he
      exact nomatch he

theorem register_fails (h : c.isClosed = false) (name : String) (arity : Int32)
    (callbacks : Callbacks) (w : σ) (e : Error)
    (he : ((c.register n name arity callbacks).run w).1.1 = .error e) : e.IsPrimary := by
  unfold Connection.register at he
  cases hnative : c.native? with
  | none => simp [Connection.isClosed, hnative] at h
  | some k =>
    cases hnul : nulError? name with
    | some reason =>
      simp only [hnative, hnul] at he
      cases he
      exact nulIn_primary _ _
    | none =>
      simp only [hnative, hnul, run_bind] at he
      cases hanswer : ((n.register k (FunctionRecord.new name arity callbacks)).run w).1 with
      | error code =>
        rw [hanswer] at he
        cases he
        exact primary_ofCode (hn.register k _ w code hanswer) _
      | ok number =>
        rw [hanswer] at he
        exact nomatch he

omit hn in
theorem declare_fails (h : c.isClosed = false) (name : String) (type : ResultType) :
    FailsWith Error.IsPrimary (c.declare n name type) := by
  refine withNative_fails h fun k => ?_
  by_cases hnone : (c.functions.named name).isEmpty = true
  · rw [if_pos hnone]
    exact .pure_error (primary_ofCode (by decide) _)
  · rw [if_neg hnone]
    exact .bind fun _ => .pure_ok _

/-- Calls of an open connection fail with a primary code. -/
theorem perform_fails (h : c.isClosed = false) (request : ConnectionCall) (w : σ) (e : Error)
    (he : ((c.perform n request).run w).1.1.error? = some e) : e.IsPrimary := by
  have hof {α : Type} {x : StateM σ (Except Error α)} (hx : FailsWith Error.IsPrimary x)
      (herror : errorOf? (x.run w).1 = some e) : e.IsPrimary :=
    hx w e (eq_error_of_errorOf? herror)
  cases request with
  | close => exact close_fails hn h w e (eq_error_of_errorOf? he)
  | compile sql => exact hof (compile_fails hn h sql) he
  | execute sql => exact hof (execute_fails hn h sql) he
  | lastInsertRowId => exact hof (withNative_fails h fun _ => .map_ok) he
  | changes => exact hof (withNative_fails h fun _ => .map_ok) he
  | interrupt => exact hof (withNative_fails h fun _ => .map_ok) he
  | interruptHandle =>
    cases hnative : c.native? with
    | none => simp [Connection.isClosed, hnative] at h
    | some k =>
      have hanswer : errorOf? c.interruptHandle = none := by
        simp [Connection.interruptHandle, hnative, errorOf?]
      exact nomatch hanswer.symm.trans he
  | busyHandler callback => exact hof (withNative_fails h fun _ => .map_ok) he
  | busyTimeout ms => exact hof (withNative_fails h fun _ => .map_ok) he
  | register name arity callbacks =>
    exact register_fails hn h name arity callbacks w e (eq_error_of_errorOf? he)
  | declare name type => exact hof (declare_fails h name type) he

end Connection

section Operations

variable {n : Native σ} (hn : n.PrimaryCodes)

include hn

/-- Steps fail with a primary code unless the statement is finalized. -/
theorem step_fails {s : Statement} (h : s.isFinalized = false) (w : σ) (e : Error)
    (he : ((s.step n).run w).1.1 = .error e) : e.IsPrimary := by
  obtain ⟨vm, columns, types⟩ := s
  unfold Statement.step at he
  cases vm with
  | finalized => exact nomatch h
  | empty => exact nomatch he
  | live k =>
    dsimp only at he
    rw [run_bind] at he
    have hcode := hn.step k w
    generalize ((n.step k).run w).1 = status at he hcode
    by_cases hmore : (status.code = ResultCode.row || status.code = ResultCode.done) = true
    · rw [if_pos hmore] at he
      exact nomatch he
    · rw [if_neg hmore] at he
      have hknown : ErrorKind.isKnownFailure status.code = true := by
        rcases hcode with hrow | hdone | hknown
        · simp [hrow] at hmore
        · simp [hdone] at hmore
        · exact hknown
      unfold Statement.fail at he
      by_cases hbusy : status.code = ResultCode.busy
      · simp only [if_pos hbusy] at he
        cases he
        exact primary_ofCode hknown _
      · simp only [if_neg hbusy, if_pos hknown] at he
        cases he
        exact primary_ofCode hknown _

theorem finalize_fails {s : Statement} (h : s.isFinalized = false) (w : σ) (e : Error)
    (he : ((s.finalize n).run w).1.1 = .error e) : e.IsPrimary := by
  obtain ⟨vm, columns, types⟩ := s
  unfold Statement.finalize at he
  cases vm with
  | finalized => exact nomatch h
  | empty => exact nomatch he
  | live k =>
    dsimp only at he
    rw [run_bind] at he
    cases hanswer : ((n.finalize k).run w).1 with
    | some failure =>
      rw [hanswer] at he
      cases he
      exact primary_ofCode (hn.finalize k w failure hanswer) _
    | none =>
      rw [hanswer] at he
      exact nomatch he

end Operations

/-! ## Opening a database -/

section Opening

variable (n : Native σ)

/-- A mode is refused with the library's own code. -/
theorem ofMode_error {mode : Int32} {e : Error} (h : OpenFlags.ofMode mode = .error e) :
    ∃ message, e = .opening bindingError message := by
  unfold OpenFlags.ofMode at h
  repeat' split at h
  all_goals cases h
  all_goals exact ⟨_, rfl⟩

/-- So is a path; otherwise it is the engine that fails. -/
theorem openWithFlags_error {path : String} {flags : OpenFlags} {w : σ} {e : Error}
    (he : ((Connection.openWithFlags n path flags).run w).1 = .error e) :
    if Opening.refusesPath path then ∃ message, e = .opening bindingError message
    else ∃ failure, ((n.connect path flags).run w).1 = .error failure ∧
      e = .opening failure.code failure.message := by
  unfold Connection.openWithFlags Connection.connect at he
  unfold Opening.refusesPath
  by_cases hempty : path.isEmpty = true
  · rw [if_pos hempty] at he
    cases he
    simp [hempty]
  rw [if_neg hempty] at he
  cases hnul : nulError? path with
  | some reason =>
    simp only [hnul] at he
    cases he
    simp [hempty]
  | none =>
    simp only [hnul, run_bind] at he
    cases hanswer : ((n.connect path flags).run w).1 with
    | ok k =>
      rw [hanswer] at he
      exact nomatch he
    | error failure =>
      rw [hanswer] at he
      have herror : e = .opening failure.code failure.message := by
        cases hmade : failure.connection? with
        | none =>
          simp only [hmade] at he
          cases he
          rfl
        | some k =>
          simp only [hmade] at he
          cases he
          rfl
      simp [hempty, herror]

/-- A path that is refused is not told to the engine. -/
theorem openWithFlags_unasked {path : String} (h : Opening.refusesPath path = true)
    (flags : OpenFlags) {m : Native σ} (hlog : m.log = n.log) :
    Connection.openWithFlags m path flags = Connection.openWithFlags n path flags := by
  unfold Connection.openWithFlags Connection.connect
  rw [hlog]
  cases hnul : nulError? path with
  | some reason => rfl
  | none =>
    have hempty : path.isEmpty = true := by simpa [Opening.refusesPath, hnul] using h
    rw [if_pos hempty, if_pos hempty]

theorem Opening.run_unasked {how : Opening} (h : how.isRefused = true) {m : Native σ}
    (hlog : m.log = n.log) : how.run m = how.run n := by
  cases how with
  | flags path set => exact openWithFlags_unasked n h set hlog
  | memory => exact nomatch h
  | mode path number =>
    simp only [Opening.run, Connection.openMode]
    cases hmode : OpenFlags.ofMode number with
    | error e => rfl
    | ok flags =>
      have hpath : Opening.refusesPath path = true := by
        simpa [Opening.isRefused, Opening.refusesMode, hmode, errorOf?] using h
      exact openWithFlags_unasked n hpath flags hlog

/-- An attempt to open a database fails because it is refused, or because the engine fails. -/
theorem Opening.run_error {how : Opening} {w : σ} {e : Error}
    (he : ((how.run n).run w).1 = .error e) :
    if how.isRefused then ∃ message, e = .opening bindingError message
    else ∃ flags failure, ((n.connect how.path flags).run w).1 = .error failure ∧
      e = .opening failure.code failure.message := by
  have hflags (path : String) (flags : OpenFlags)
      (herror : ((Connection.openWithFlags n path flags).run w).1 = .error e) :
      if refusesPath path then ∃ message, e = .opening bindingError message
      else ∃ flags failure, ((n.connect path flags).run w).1 = .error failure ∧
        e = .opening failure.code failure.message := by
    have hsplit := openWithFlags_error n herror
    split at hsplit
    · rwa [if_pos ‹_›]
    · rw [if_neg ‹_›]
      exact ⟨flags, hsplit⟩
  cases how with
  | flags path set => exact hflags path set he
  | memory => exact hflags Connection.memoryPath .default he
  | mode path number =>
    simp only [Opening.run, Connection.openMode] at he
    cases hmode : OpenFlags.ofMode number with
    | error e' =>
      rw [hmode] at he
      cases he
      simpa [isRefused, refusesMode, hmode, errorOf?] using ofMode_error hmode
    | ok flags =>
      rw [hmode] at he
      have hsplit := hflags path flags he
      simpa [isRefused, refusesMode, hmode, errorOf?, Opening.path] using hsplit

end Opening

/-! ## The engine of a session -/

/-- A registration that the engine turns down is misuse, or comes while something is executed. -/
theorem register_code (connection : Nat) (f : Engine.HostFunction) (w : SessionWorld) :
    let code := ((Engine.register connection f).run w).1
    code = ResultCode.ok ∨ ErrorKind.isKnownFailure code = true := by
  have hany {α : Type} (x : StateM SessionWorld α) :
      KeepsGiving (fun _ => True) (fun _ => True) x := fun _ _ => ⟨trivial, trivial⟩
  have hcode : KeepsGiving (fun _ => True)
      (fun code => code = ResultCode.ok ∨ ErrorKind.isKnownFailure code = true)
      (Engine.register (H := Host) connection f) := by
    unfold Engine.register
    split
    · exact .pure (.inr (by decide))
    refine (hany _).bind fun conn? _ => ?_
    cases conn? with
    | none => exact .pure (.inr (by decide))
    | some conn =>
      dsimp only
      split
      · refine (hany _).bind fun w _ => ?_
        split
        · exact .pure (.inr (by decide))
        · exact (hany _).bind fun _ _ => (hany _).bind fun _ _ => .pure (.inl rfl)
      · exact (hany _).bind fun _ _ => .pure (.inl rfl)
  exact (hcode w trivial).1

/-- The engine only reports primary codes, whatever its host does. -/
theorem native_primaryCodes (hooks : Engine.Hooks Host) : (native hooks).PrimaryCodes where
  connect path flags w failure h := by
    simp only [native, nativeOn, connectNative, run_bind] at h
    cases hanswer : ((Engine.connect path flags).run.run w).1 with
    | ok number =>
      rw [hanswer] at h
      exact nomatch h
    | error fault =>
      rw [hanswer] at h
      cases h
      exact fault.known
  disconnect k w failure h := nomatch h
  prepare k sql w failure h := by
    simp only [native, nativeOn, run_bind] at h
    cases hanswer : ((Engine.prepare hooks k sql.toList).run w).1 with
    | ok result =>
      rw [hanswer] at h
      exact nomatch h
    | error fault =>
      rw [hanswer] at h
      cases h
      exact fault.known
  execute k sql w failure h := by
    simp only [native, nativeOn, run_bind] at h
    cases hanswer : ((Engine.execute hooks k sql.toList).run w).1 with
    | none =>
      rw [hanswer] at h
      exact nomatch h
    | some fault =>
      rw [hanswer] at h
      cases h
      exact fault.known
  register k r w code h := by
    simp only [native, nativeOn, Host.services, registerNative, run_bind] at h
    have hcode := register_code k
      ⟨r.name, r.arity.toInt, r.callbacks.isAggregate, ((Engine.World.fresh).run w).1⟩
      ((Engine.World.fresh).run w).2
    split at h
    · exact nomatch h
    · rename_i hfailed
      cases h
      exact hcode.resolve_left hfailed
  step k w := by
    simp only [native, nativeOn, run_bind]
    cases ((Engine.step hooks k).run w).1 with
    | row => exact .inl rfl
    | done => exact .inr (.inl rfl)
    | failed fault => exact .inr (.inr fault.known)
  finalize k w failure h := by
    simp only [native, nativeOn, run_bind] at h
    cases hanswer : ((Engine.finalize hooks k).run w).1 with
    | none =>
      rw [hanswer] at h
      exact nomatch h
    | some fault =>
      rw [hanswer] at h
      cases h
      exact fault.known

/-! ## All operations -/

/-- Requests about a call fail for a value without a place in its result, or with a primary code. -/
theorem ContextCall.error_origin (n : Native σ) (w : σ) {f : Frame} {request : ContextCall}
    {e : Error} (he : request.error? f = some e) : ErrorOrigin n w (.context f request) e := by
  have hgroup {α : Type} {ask : Group → α} {request : ContextCall}
      (herror : errorOf? (f.ofGroup ask) = some e) :
      ErrorOrigin n w (.context f request) e := by
    unfold Frame.ofGroup at herror
    cases hframe : f.group with
    | some g =>
      rw [hframe] at herror
      exact nomatch herror
    | none =>
      rw [hframe] at herror
      cases herror
      exact .code rfl _ (by decide)
  cases request with
  | setResult call v =>
    unfold ContextCall.error? Call.setResult at he
    cases v with
    | integer n => exact nomatch he
    | float x => exact nomatch he
    | text s => exact nomatch he
    | blob bytes =>
      cases he
      exact .badType f call trivial
    | null =>
      cases he
      exact .badType f call trivial
  | readState => exact hgroup he
  | readCount => exact hgroup he
  | insert key v =>
    unfold ContextCall.error? Frame.insert at he
    cases hframe : f.group with
    | some g =>
      rw [hframe] at he
      exact nomatch he
    | none =>
      rw [hframe] at he
      cases he
      exact .code rfl _ (by decide)

section Operations

variable {n : Native σ} (hn : n.PrimaryCodes)

include hn

/-- Every error comes from one of the places that there are. -/
theorem Operation.error_origin {op : Operation} {w : σ} {e : Error}
    (he : ((op.error? n).run w).1 = some e) : ErrorOrigin n w op e := by
  have hcode {op : Operation} (hop : op.isOpening = false) (h : e.IsPrimary) :
      ErrorOrigin n w op e := by
    obtain ⟨code, message, hknown, rfl⟩ := h
    exact .code hop message hknown
  cases op with
  | opening how =>
    have hfailed : ((how.run n).run w).1 = .error e := eq_error_of_errorOf? he
    have hsplit := Opening.run_error n hfailed
    by_cases hrefused : how.isRefused = true
    · rw [if_pos hrefused] at hsplit
      obtain ⟨message, rfl⟩ := hsplit
      exact .refused message hrefused
    · rw [if_neg hrefused] at hsplit
      obtain ⟨flags, failure, hanswer, rfl⟩ := hsplit
      exact .unopened (by simpa using hrefused) hanswer (hn.connect _ _ _ _ hanswer)
  | connection c request =>
    cases hclosed : c.isClosed with
    | false => exact hcode rfl (perform_fails hn hclosed request w e he)
    | true =>
      have hnone : c.native? = none := by simpa [Connection.isClosed] using hclosed
      obtain ⟨answer, hrun, hanswer⟩ := perform_closed n hnone request w
      have herror : ((c.perform n request).run w).1.1.error? = some e := he
      rw [hrun, hanswer] at herror
      cases herror
      exact .closed request hclosed
  | statement s request =>
    cases hfinalized : s.isFinalized with
    | false =>
      cases request with
      | step =>
        have herror := (CallAnswer.error?_stepped ((s.step n).run w).1.1).symm.trans he
        exact hcode rfl (step_fails hn hfinalized w e (eq_error_of_errorOf? herror))
      | finalize =>
        have herror := (CallAnswer.error?_finalized ((s.finalize n).run w).1.1).symm.trans he
        exact hcode rfl (finalize_fails hn hfinalized w e (eq_error_of_errorOf? herror))
    | true =>
      have hvm : s.vm = .finalized := by simpa [Statement.isFinalized] using hfinalized
      obtain ⟨vm, columns, types⟩ := s
      cases hvm
      have hclosed : some (.closedHandle .statement) = some e := by
        cases request with
        | step => exact he
        | finalize => exact he
      rw [← Option.some.inj hclosed]
      exact .finalized request hfinalized
  | context f request => exact ContextCall.error_origin n w he

omit hn in
/-- Wherever an error comes from, it says so rightly. -/
theorem ErrorOrigin.lawful {op : Operation} {w : σ} {e : Error} (h : ErrorOrigin n w op e) :
    ErrorLawful n w op e := by
  cases h with
  | @refused how message hrefused =>
    refine ⟨rfl, iff_of_true ⟨_, _, rfl⟩ rfl, ?_, ?_, ?_, nofun, nofun, nofun, .inl ⟨_, _, rfl⟩, rfl⟩
    · rintro _ ⟨⟩
      exact iff_of_true rfl hrefused
    · rintro _ ⟨⟩ - m hlog
      exact Opening.run_unasked n hrefused hlog
    · rintro _ ⟨⟩ hasked
      exact nomatch hrefused.symm.trans hasked
  | @unopened how hasked flags failure hanswer hknown =>
    refine ⟨rfl, iff_of_true ⟨_, _, rfl⟩ rfl, ?_, ?_, ?_, nofun, nofun, nofun, .inl ⟨_, _, rfl⟩, rfl⟩
    · rintro _ ⟨⟩
      exact iff_of_false (ErrorKind.known_ne_bindingError hknown) (by simp [hasked])
    · rintro _ ⟨⟩ hrefused
      exact nomatch hrefused.symm.trans hasked
    · rintro _ ⟨⟩ -
      exact ⟨flags, failure, hanswer, rfl⟩
  | closed request hclosed =>
    exact ⟨rfl, iff_of_false nofun nofun, nofun, nofun, nofun,
      fun _ => ⟨_, request, rfl, hclosed⟩, nofun, nofun, .inr (.inl ⟨_, rfl⟩), rfl⟩
  | finalized request hfinalized =>
    exact ⟨rfl, iff_of_false nofun nofun, nofun, nofun, nofun, nofun,
      fun _ => ⟨_, request, rfl, hfinalized⟩, nofun, .inr (.inl ⟨_, rfl⟩), rfl⟩
  | badType f call hv =>
    refine ⟨rfl, iff_of_false nofun nofun, nofun, nofun, nofun, nofun, nofun, ?_,
      .inr (.inr (.inl ⟨_, rfl⟩)), rfl⟩
    rintro _ ⟨⟩
    exact ⟨f, call, _, rfl, hv, rfl⟩
  | @code _ hop code message hknown =>
    obtain ⟨hleaf, hcode⟩ := ErrorKind.ofCode_known hknown
    have hnotOpening {how : Opening} (heq : op = .opening how) : False := by
      rw [heq] at hop
      exact nomatch hop
    refine ⟨rfl, iff_of_false nofun (by simp [hop]), fun _ heq => (hnotOpening heq).elim,
      fun _ heq => (hnotOpening heq).elim, fun _ heq => (hnotOpening heq).elim, nofun, nofun,
      nofun, ?_, rfl⟩
    exact .inr (.inr (.inr ⟨_, code, message, rfl, hleaf, hcode⟩))

/-- Every error says rightly where it comes from. -/
theorem Operation.error_lawful (op : Operation) (w : σ) (e : Error)
    (he : ((op.error? n).run w).1 = some e) : ErrorLawful n w op e :=
  (Operation.error_origin hn he).lawful

end Operations

/-- A database in memory is asked for a column that is not there. -/
theorem unknown_column_lawful :
    let w := ((Connection.openInMemory sessionNative).run SessionWorld.empty).2
    let op : Operation := .connection ⟨some 2, ":memory:", []⟩ (.compile "SELECT missing")
    let e : Error := .engine .sql 1 "no such column: missing"
    ((op.error? sessionNative).run w).1 = some e ∧ ErrorLawful sessionNative w op e := by
  intro w op e
  have he : ((op.error? sessionNative).run w).1 = some e := by decide +kernel
  exact ⟨he, Operation.error_lawful (native_primaryCodes _) op w e he⟩

end HostSql
