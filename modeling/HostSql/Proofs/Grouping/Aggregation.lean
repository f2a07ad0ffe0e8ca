import HostSql.Host.Standalone
import HostSql.Proofs.Aggregate.Isolation
import HostSql.Session.Host

/-!
# Aggregates that keep to themselves

A `Local` closure uses nothing but its call: the arguments, the group, the declared result type.
It may report what it sees. An `Aggregation` is an aggregate with such closures, so what it computes
can be told without a database: `Aggregation.fold` is the state after some rows, `value` the result
for them, and `course` the list of all runs of its closures.

> `protect_local`: in a session a local closure runs as it does on its own.
-/

namespace HostSql

open Engine (Datum)

/-! ## Local closures -/

namespace Program

/-- Whether a closure uses no connection. -/
inductive Local : Program → Prop where
  | finish (outcome : Outcome) : Local (.finish outcome)
  | setResult (v : Value) {next : Except Error Value → Program} (h : ∀ answer, Local (next answer)) :
    Local (.setResult v next)
  | setError (message : String) {next : Program} (h : Local next) : Local (.setError message next)
  | readState {next : Except Error GroupState → Program} (h : ∀ answer, Local (next answer)) :
    Local (.readState next)
  | insert (key : String) (v : Value) {next : Except Error Unit → Program}
    (h : ∀ answer, Local (next answer)) : Local (.insert key v next)
  | readCount {next : Except Error Nat → Program} (h : ∀ answer, Local (next answer)) :
    Local (.readCount next)
  | readType {next : ResultType → Program} (h : ∀ type, Local (next type)) : Local (.readType next)
  | emit (event : Event) {next : Program} (h : Local next) : Local (.emit event next)

end Program

/-- A world that differs from another in what has been reported since, and in the log. -/
def Reporting (base w : SessionWorld) (reports : Reports) : Prop :=
  ∃ log, w = { base with host := { base.host with
    events := reports ++ base.host.events
    log := log } }

namespace Reporting

variable {base : SessionWorld} {nested : Engine.Hooks Host}

theorem refl (w : SessionWorld) : Reporting w w [] := ⟨w.host.log, rfl⟩

theorem emit (event : Event) :
    Coupled (Reporting base) ((ambient (native nested)).emit event) (standalone.emit event) := by
  rintro _ reports ⟨log, rfl⟩
  exact ⟨rfl, log, rfl⟩

theorem log (r : LogRecord) :
    Coupled (Reporting base) ((ambient (native nested)).log r) (standalone.log r) := by
  rintro _ reports ⟨log, rfl⟩
  exact ⟨rfl, r :: log, rfl⟩

end Reporting

section Local

variable {base : SessionWorld} {nested : Engine.Hooks Host}

/-- A local closure ends in a session as on its own, and what it leaves there are its reports. -/
theorem Program.run_local (call : Call) {p : Program} (h : p.Local) :
    ∀ f : Frame, Coupled (Reporting base) (p.run (ambient (native nested)) call f)
      (p.run standalone call f) := by
  induction h with
  | finish outcome => exact fun f => .pure (outcome, f)
  | setResult v _ ih =>
    intro f
    simp only [Program.run]
    exact ih _ _
  | setError message _ ih =>
    intro f
    simp only [Program.run]
    exact ih _
  | readState _ ih =>
    intro f
    simp only [Program.run]
    exact ih _ f
  | insert key v _ ih =>
    intro f
    simp only [Program.run]
    exact ih _ _
  | readCount _ ih =>
    intro f
    simp only [Program.run]
    exact ih _ f
  | readType _ ih =>
    intro f
    simp only [Program.run]
    exact ih _ f
  | emit event _ ih =>
    intro f
    simp only [Program.run]
    exact (Reporting.emit event).bind fun _ => ih f

theorem protect_local (nested : Engine.Hooks Host) (r : FunctionRecord) (call : Call)
    (diagnostic : String) {closure : Program} (h : closure.Local) (group : Option Group) :
    Coupled (Reporting base) (protect (ambient (native nested)) r call diagnostic closure group)
      (protect standalone r call diagnostic closure group) := by
  unfold protect
  refine (closure.run_local call h _).bind ?_
  rintro ⟨outcome, frame⟩
  cases outcome with
  | ok => exact .pure frame
  | failed e => exact (Reporting.log _).bind fun _ => .pure _
  | panicked => exact (Reporting.log _).bind fun _ => .pure _

end Local

/-! ## What an aggregate computes -/

/-- An aggregate with local closures. -/
structure Aggregation where
  name : String
  arity : Int32
  resultType : ResultType
  step : List (Option String) → Program
  final : Program
  stepLocal : ∀ texts, (step texts).Local
  finalLocal : final.Local

namespace Aggregation

variable (a : Aggregation)

/-- The record of the aggregate while groups of it are under way. -/
def record (groups : GroupTable) : FunctionRecord where
  name := a.name
  arity := a.arity
  callbacks := .aggregate a.step a.final
  resultType := a.resultType
  groups := groups

/-- What a call of an aggregate's closure comes to: its answer, and the state of the group. -/
structure Ran where
  answer : Except String Datum
  state : GroupState
  reports : Reports

/-- Runs a closure of the aggregate on its own, in a group with so many rows. -/
def run (classes : List StorageClass) (diagnostic : String) (closure : Program) (count : Nat)
    (state : GroupState) : Ran :=
  let (frame, reports) :=
    (protect standalone (a.record .empty) ⟨a.resultType, classes⟩ diagnostic closure
      (some ⟨count, state⟩)).run []
  ⟨frame.pending.result, (frame.group.map (·.state)).getD state, reports⟩

/-- How the groups stand makes no difference to a run. -/
theorem run_eq (groups : GroupTable) (classes : List StorageClass) (diagnostic : String)
    (closure : Program) (count : Nat) (state : GroupState) :
    a.run classes diagnostic closure count state =
      let ended := (protect standalone (a.record groups) ⟨a.resultType, classes⟩ diagnostic closure
        (some ⟨count, state⟩)).run []
      ⟨ended.1.pending.result, (ended.1.group.map (·.state)).getD state, ended.2⟩ := rfl

/-- Runs the step for the arguments of a row. -/
def onRow (args : List Datum) (count : Nat) (state : GroupState) : Ran :=
  a.run (args.map Datum.storageClass) functionFailed (a.step (args.map Datum.readText?)) count state

/-- Runs the finalizer. Its call has no arguments. -/
def atEnd (count : Nat) (state : GroupState) : Ran := a.run [] finalizeFailed a.final count state

/-- The state of a group after a row with its count, or the error of the step. -/
def stepped (state : GroupState) (row : List Datum × Nat) : Except String GroupState :=
  match (a.onRow row.1 row.2 state).answer with
  | .ok _ => .ok (a.onRow row.1 row.2 state).state
  | .error message => .error message

/-- The state of a group after some more rows, or the error of the first step that fails. -/
def foldFrom (count : Nat) (state : GroupState) (rows : List (List Datum)) :
    Except String GroupState :=
  (rows.zipIdx (count + 1)).foldlM a.stepped state

/-- The step folded over the rows of a group from the empty state, with the counts 1, 2 and so on. -/
def fold (rows : List (List Datum)) : Except String GroupState := a.foldFrom 0 [] rows

/-- The result of the aggregate for some more rows. -/
def valueFrom (count : Nat) (state : GroupState) (rows : List (List Datum)) :
    Except String Datum := do
  let state ← a.foldFrom count state rows
  (a.atEnd (count + rows.length) state).answer

/-- The result of the aggregate for the rows of a group: that of the finalizer on the folded state. -/
def value (rows : List (List Datum)) : Except String Datum := a.valueFrom 0 [] rows

/-- A run of one of the closures of an aggregate. -/
inductive ClosureRun where
  | row (args : List Datum) (count : Nat) (state : GroupState)
  /-- The end of a group, which may have been given up. -/
  | ending (givenUp : Bool) (count : Nat) (state : GroupState)
  deriving Repr, DecidableEq

/-- What a run reports. -/
def reports : ClosureRun → Reports
  | .row args count state => (a.onRow args count state).reports
  | .ending _ count state => (a.atEnd count state).reports

/-- The runs of closures for some more rows: the step for each of them up to the first that fails,
and in any case the finalizer. -/
def courseFrom (count : Nat) (state : GroupState) : List (List Datum) → List ClosureRun
  | [] => [.ending false count state]
  | args :: rest =>
    let ran := a.onRow args (count + 1) state
    .row args (count + 1) state ::
      match ran.answer with
      | .ok _ => courseFrom (count + 1) ran.state rest
      | .error _ => [.ending true (count + 1) ran.state]

/-- The runs of closures for the rows of a group. -/
def course (rows : List (List Datum)) : List ClosureRun := a.courseFrom 0 [] rows

section Rows

variable {a} {args : List Datum} {count : Nat} {state : GroupState} {rest : List (List Datum)}

/-- A row whose step does not fail hands its state on. -/
theorem foldFrom_ok {d : Datum} (h : (a.onRow args (count + 1) state).answer = .ok d) :
    a.foldFrom count state (args :: rest) =
      a.foldFrom (count + 1) (a.onRow args (count + 1) state).state rest := by
  have hstep : a.stepped state (args, count + 1) = .ok (a.onRow args (count + 1) state).state := by
    unfold stepped
    rw [h]
  unfold foldFrom
  rw [List.zipIdx_cons, List.foldlM_cons, hstep]
  rfl

/-- A step that fails decides the result. -/
theorem foldFrom_error {message : String}
    (h : (a.onRow args (count + 1) state).answer = .error message) :
    a.foldFrom count state (args :: rest) = .error message := by
  have hstep : a.stepped state (args, count + 1) = .error message := by
    unfold stepped
    rw [h]
  unfold foldFrom
  rw [List.zipIdx_cons, List.foldlM_cons, hstep]
  rfl

theorem valueFrom_ok {d : Datum} (h : (a.onRow args (count + 1) state).answer = .ok d) :
    a.valueFrom count state (args :: rest) =
      a.valueFrom (count + 1) (a.onRow args (count + 1) state).state rest := by
  have hcount : count + (args :: rest).length = count + 1 + rest.length := by
    rw [List.length_cons]
    omega
  unfold valueFrom
  rw [foldFrom_ok h, hcount]

theorem valueFrom_error {message : String}
    (h : (a.onRow args (count + 1) state).answer = .error message) :
    a.valueFrom count state (args :: rest) = .error message := by
  unfold valueFrom
  rw [foldFrom_error h]
  rfl

theorem courseFrom_ok {d : Datum} (h : (a.onRow args (count + 1) state).answer = .ok d) :
    a.courseFrom count state (args :: rest) = .row args (count + 1) state ::
      a.courseFrom (count + 1) (a.onRow args (count + 1) state).state rest := by
  rw [courseFrom]
  simp only [h]

theorem courseFrom_error {message : String}
    (h : (a.onRow args (count + 1) state).answer = .error message) :
    a.courseFrom count state (args :: rest) =
      [.row args (count + 1) state,
        .ending true (count + 1) (a.onRow args (count + 1) state).state] := by
  rw [courseFrom]
  simp only [h]

/-- The first step that fails decides the result. The finalizer runs after it and decides nothing. -/
theorem valueFrom_failed {front : List (List Datum)} {state' : GroupState} {message : String}
    (rest : List (List Datum)) (hfront : a.foldFrom count state front = .ok state')
    (hstep : (a.onRow args (count + front.length + 1) state').answer = .error message) :
    a.valueFrom count state (front ++ args :: rest) = .error message ∧
      ∃ runs, a.courseFrom count state (front ++ args :: rest) =
        runs ++ [.row args (count + front.length + 1) state',
          .ending true (count + front.length + 1)
            (a.onRow args (count + front.length + 1) state').state] := by
  induction front generalizing count state with
  | nil =>
    cases hfront
    exact ⟨valueFrom_error hstep, [], courseFrom_error hstep⟩
  | cons earlier front ih =>
    cases h : (a.onRow earlier (count + 1) state).answer with
    | ok d =>
      rw [foldFrom_ok h] at hfront
      have hcount : count + (earlier :: front).length = count + 1 + front.length := by
        rw [List.length_cons]
        omega
      rw [hcount] at hstep ⊢
      obtain ⟨hvalue, runs, hcourse⟩ := ih hfront hstep
      rw [List.cons_append, valueFrom_ok h, courseFrom_ok h, hcourse]
      exact ⟨hvalue, .row earlier (count + 1) state :: runs, rfl⟩
    | error earlier =>
      rw [foldFrom_error h] at hfront
      cases hfront

end Rows

/-- Whether a run ends its group. -/
def ClosureRun.isEnding : ClosureRun → Bool
  | .row _ _ _ => false
  | .ending _ _ _ => true

/-- A group is ended once, whatever happens to its rows. -/
theorem courseFrom_ended (count : Nat) (state : GroupState) (rows : List (List Datum)) :
    (a.courseFrom count state rows).countP (·.isEnding) = 1 := by
  induction rows generalizing count state with
  | nil => rfl
  | cons args rest ih =>
    cases h : (a.onRow args (count + 1) state).answer with
    | ok d =>
      rw [courseFrom_ok h, List.countP_cons_of_neg Bool.false_ne_true]
      exact ih _ _
    | error message =>
      rw [courseFrom_error h]
      rfl

end Aggregation

end HostSql
