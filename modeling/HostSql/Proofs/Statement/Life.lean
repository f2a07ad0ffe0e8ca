import HostSql.Connection
import HostSql.Proofs.Coupling

/-!
# The life of a statement

After a statement has been compiled it is stepped and finalized any number of times, in any order,
and dropped in the end. Between two calls the world may change in any way. What a call asks of the
engine about statements is noted beside the world, with the engine's answers.

`Entry.Lawful` says what is expected of one call, given what the engine compiled and whether the
statement was over already. A statement is over after the first call that `ends` it: a `finalize`,
or a step that the engine failed with a known code other than that of a lock.
-/

namespace HostSql

open Beside

variable {σ α : Type}

/-! ## Notes of what the engine is asked -/

/-- One thing that the engine was asked about a statement. -/
inductive StatementNote where
  | stepped (statement : Nat) (status : NativeStatus)
  /-- A name, a type or a value of a column was read, or the number of columns. -/
  | read (statement : Nat)
  | released (statement : Nat) (failure? : Option NativeFailure)
  deriving Repr, DecidableEq

/-- Whether a statement was used without being released. -/
def StatementNote.isUseOf (statement : Nat) : StatementNote → Bool
  | stepped k _ | read k => k = statement
  | released _ _ => false

/-- How a native step ended, if the note is of one. -/
def StatementNote.status? : StatementNote → Option NativeStatus
  | stepped _ status => some status
  | read _ | released _ _ => none

/-- Notes of using a statement. -/
def UsesOf (statement : Nat) (notes : List StatementNote) : Prop :=
  ∀ note ∈ notes, note.isUseOf statement

/-- Notes of using a statement and then releasing it. -/
def ReleasedOnce (statement : Nat) (notes : List StatementNote) : Prop :=
  ∃ uses failure?, UsesOf statement uses ∧ notes = uses ++ [.released statement failure?]

/-- Notes beside a world, the oldest first. -/
abbrev Noted (σ : Type) := Beside σ (List StatementNote)

/-- Asks something of the engine and notes it. -/
def noted (x : StateM σ α) (note : α → StatementNote) : StateM (Noted σ) α := do
  let answer ← outside x
  modifyOwn (· ++ [note answer])
  return answer

/-- An engine of which it is noted what it is asked about statements. -/
def Native.noting (n : Native σ) : Native (Noted σ) where
  connect path flags := outside (n.connect path flags)
  disconnect connection := outside (n.disconnect connection)
  isOpen connection := outside (n.isOpen connection)
  prepare connection sql := outside (n.prepare connection sql)
  execute connection sql := outside (n.execute connection sql)
  changes connection := outside (n.changes connection)
  lastInsertRowId connection := outside (n.lastInsertRowId connection)
  interrupt connection := outside (n.interrupt connection)
  setPolicy connection policy := outside (n.setPolicy connection policy)
  register connection r := outside (n.register connection r)
  declareType record type := outside (n.declareType record type)
  step k := noted (n.step k) (.stepped k)
  columnCount k := noted (n.columnCount k) fun _ => .read k
  columnName k column := noted (n.columnName k column) fun _ => .read k
  columnType k column := noted (n.columnType k column) fun _ => .read k
  columnText k column := noted (n.columnText k column) fun _ => .read k
  finalize k := noted (n.finalize k) (.released k)
  log r := outside (n.log r)

/-! ## Calls -/

/-- A call of a statement. -/
inductive StatementCall where
  | step
  | finalize
  deriving Repr, DecidableEq

/-- What a call returned. -/
inductive CallAnswer where
  | stepped (answer : Except Error StepResult)
  | finalized (answer : Except Error Unit)

/-- The error of a call that failed. -/
def CallAnswer.error? : CallAnswer → Option Error
  | stepped (.error e) | finalized (.error e) => some e
  | stepped (.ok _) | finalized (.ok _) => none

/-- Makes a call. -/
def Statement.perform (n : Native σ) (s : Statement) :
    StatementCall → StateM σ (CallAnswer × Statement)
  | .step => do
    let (answer, s) ← s.step n
    return (.stepped answer, s)
  | .finalize => do
    let (answer, s) ← s.finalize n
    return (.finalized answer, s)

/-- A call, after the world has changed in some way. -/
structure Turn (σ : Type) where
  meanwhile : σ → σ
  call : StatementCall

/-- What there is to tell of a call. -/
structure Entry (σ : Type) where
  call : StatementCall
  before : σ
  notes : List StatementNote
  answer : CallAnswer
  after : σ
  /-- Whether the statement says that it is finalized, after the call. -/
  isFinalized : Bool

/-- What a call asks of the engine. -/
def Statement.callNotes (n : Native σ) (s : Statement) (call : StatementCall) (w : σ) :
    List StatementNote :=
  ((s.perform n.noting call).run ⟨w, []⟩).2.own

/-- Takes a turn. -/
def Statement.turn (n : Native σ) (s : Statement) (t : Turn σ) :
    StateM σ (Entry σ × Statement) := do
  modify t.meanwhile
  let before ← get
  let (answer, s') ← s.perform n t.call
  return (⟨t.call, before, s.callNotes n t.call before, answer, ← get, s'.isFinalized⟩, s')

/-- Takes one turn after the other. -/
def Statement.turns (n : Native σ) (s : Statement) :
    List (Turn σ) → StateM σ (List (Entry σ) × Statement)
  | [] => return ([], s)
  | t :: rest => do
    let (entry, s) ← s.turn n t
    let (entries, s) ← s.turns n rest
    return (entry :: entries, s)

/-- What the engine is asked when a statement is dropped. -/
def Statement.dropNotes (n : Native σ) (s : Statement) (w : σ) : List StatementNote :=
  ((s.drop n.noting).run ⟨w, []⟩).2.own

/-! ## What is expected -/

/-- Whether a step failed with a known code other than that of a lock. -/
def NativeStatus.isFatal (status : NativeStatus) : Bool :=
  ErrorKind.isKnownFailure status.code && status.code != ResultCode.busy

/-- Whether a call ends a statement that is not over. -/
def Entry.ends (e : Entry σ) : Bool :=
  e.call = .finalize || e.notes.any (·.status?.any (·.isFatal))

/-- The answer of a step whose native step ended in a certain way. -/
structure Entry.AnswersStatus (e : Entry σ) (status : NativeStatus) : Prop where
  row : status.code = ResultCode.row → ∃ r, e.answer = .stepped (.ok r) ∧ r.isRow
  done : status.code = ResultCode.done → ∃ r, e.answer = .stepped (.ok r) ∧ r.isDone
  busy : status.code = ResultCode.busy →
    e.answer = .stepped (.error (.ofCode status.code ("busy in step: " ++ status.message)))
  fatal : status.isFatal → e.answer = .stepped (.error (.ofCode status.code status.message))

/-- The answer to a release that the engine answered in a certain way. -/
def releaseAnswer : (failure? : Option NativeFailure) → Except Error Unit
  | some failure => .error failure.toError
  | none => .ok ()

/-- What is expected of a call, given the engine's statement, if any, and whether the statement was
over before. -/
structure Entry.Lawful (n : Native σ) (native? : Option Nat) (ended : Bool) (e : Entry σ) :
    Prop where
  isFinalized : e.isFinalized = (ended || e.ends)
  /-- A statement that is over is refused, and only such a one. -/
  closed : e.answer.error? = some (.closedHandle .statement) ↔ ended = true
  /-- The engine is not touched for a statement that is over. -/
  untouched : ended = true → e.notes = [] ∧ e.after = e.before
  /-- A step asks the engine for one, once, and answers as the engine did. -/
  step : ended = false → e.call = .step → ∀ k, native? = some k →
    ∃ rest, e.notes = .stepped k ((n.step k).run e.before).1 :: rest ∧
      (∀ note ∈ rest, note.status? = none) ∧ e.AnswersStatus ((n.step k).run e.before).1
  /-- A lock is reported without asking for more. -/
  blocked : ended = false → e.call = .step → ∀ k, native? = some k →
    ((n.step k).run e.before).1.code = ResultCode.busy → e.after = ((n.step k).run e.before).2
  /-- Finalizing releases, and answers as the engine did. -/
  finalize : ended = false → e.call = .finalize → ∀ k, native? = some k →
    e.notes = [.released k ((n.finalize k).run e.before).1] ∧
      e.answer = .finalized (releaseAnswer ((n.finalize k).run e.before).1)
  /-- Without a command there is nothing to step through, and nothing to release. -/
  empty : ended = false → native? = none → e.notes = [] ∧ e.after = e.before ∧
    e.answer = match e.call with
      | .step => .stepped (.ok ⟨none, [], []⟩)
      | .finalize => .finalized (.ok ())

/-- The engine reports the failure of a step once more when the statement is released. -/
def Native.RepeatsFailure (n : Native σ) : Prop :=
  ∀ k w, ErrorKind.isKnownFailure ((n.step k).run w).1.code →
    ∃ failure, ((n.finalize k).run ((n.step k).run w).2).1 = some failure ∧
      ErrorKind.ofCode failure.code = ErrorKind.ofCode ((n.step k).run w).1.code

/-- Whether a call met a lock. -/
def Entry.MetLock (e : Entry σ) : Prop :=
  ∃ note ∈ e.notes, note.status?.any (·.code = ResultCode.busy)

/-- What is expected of all calls of a statement and of dropping it in the end. -/
structure LawfulLife (n : Native σ) (native? : Option Nat) (entries : List (Entry σ))
    (dropped : List StatementNote) : Prop where
  /-- A statement is over after the first call that ends it, and stays so. -/
  calls : ∀ earlier e later, entries = earlier ++ e :: later →
    e.Lawful n native? (earlier.any (·.ends))
  /-- Finalizing directly after a lock fails with it, but releases. -/
  afterLock : n.RepeatsFailure → ∀ earlier e f later, entries = earlier ++ e :: f :: later →
    e.MetLock → f.call = .finalize → f.before = e.after →
    (∃ error, f.answer = .finalized (.error error) ∧ error.kind = .busy) ∧
      f.isFinalized = true ∧ ∃ k, native? = some k ∧ ReleasedOnce k f.notes
  /-- The engine's statement is released once, and not asked for afterwards. -/
  released : ∀ k, native? = some k → ReleasedOnce k (entries.flatMap (·.notes) ++ dropped)
  /-- Without a command there is nothing to release. -/
  nothing : native? = none → entries.flatMap (·.notes) ++ dropped = []

end HostSql
