import HostSql.Proofs.Matching.Sessions

/-!
# Contained failures in the log

A session can be run with a list beside its host, to which the ending of every closure is added right
after the closure has run. The list changes nothing, and the log accounts for it: the warnings of a step
report the failures among the endings, each one once and in order, and nothing else warns. No step logs
an error, since the engine never ends one in an unknown way.

> `Session.failures_logged`: this, for all sessions.
-/

namespace HostSql

open Engine (World Matched)

/-! ## Endings beside the host -/

/-- A host with the endings of the closures that have run, the latest first. -/
abbrev HostNoted := Beside Host (List ClosureEnd)

/-- The host's seat beside the endings, to which those of closures are added. -/
def Seat.noting : Seat HostNoted where
  host x := x.env
  change f x := { x with env := f x.env }
  note e x := { x with own := e :: x.own }
  host_change _ _ := rfl
  host_note _ _ := rfl

/-- Whether a record is a warning. -/
def LogRecord.warns (r : LogRecord) : Bool := r.level == .warn

/-- The warnings of a log report the failures among endings, one each, and there are no errors. -/
structure Accounts (log : List LogRecord) (endings : List ClosureEnd) : Prop where
  warnings : List.Forall₂ LogRecord.Reports (log.filter LogRecord.warns)
    (endings.filter ClosureEnd.isFailure)
  errors : ∀ r ∈ log, r.level ≠ .error

namespace Accounts

variable {log : List LogRecord} {endings : List ClosureEnd}

theorem nil : Accounts [] [] := ⟨.nil, fun _ hr => absurd hr List.not_mem_nil⟩

/-- Reports are warnings about failures. -/
theorem of_reports {r : LogRecord} {e : ClosureEnd} (h : r.Reports e) :
    r.level = .warn ∧ e.isFailure = true := by
  cases e with
  | function name arity outcome =>
    cases outcome with
    | ok => exact h.elim
    | _ => exact ⟨h.1, rfl⟩
  | busy resource attempt answer =>
    cases answer with
    | some _ => exact h.elim
    | none => exact ⟨h.1, rfl⟩

theorem debug (h : Accounts log endings) {r : LogRecord} (hr : r.level = .debug) :
    Accounts (r :: log) endings where
  warnings := by
    have hwarns : r.warns = false := by rw [LogRecord.warns, hr]; rfl
    rw [List.filter_cons_of_neg (by rw [hwarns]; exact Bool.false_ne_true)]
    exact h.warnings
  errors := List.forall_mem_cons.mpr ⟨by rw [hr]; exact LogLevel.noConfusion, h.errors⟩

theorem quiet (h : Accounts log endings) {e : ClosureEnd} (he : e.isFailure = false) :
    Accounts log (e :: endings) where
  warnings := by
    rw [List.filter_cons_of_neg (by rw [he]; exact Bool.false_ne_true)]
    exact h.warnings
  errors := h.errors

theorem failure (h : Accounts log endings) {r : LogRecord} {e : ClosureEnd} (hr : r.Reports e) :
    Accounts (r :: log) (e :: endings) where
  warnings := by
    obtain ⟨hlevel, he⟩ := of_reports hr
    rw [List.filter_cons_of_pos (by rw [LogRecord.warns, hlevel]; rfl), List.filter_cons_of_pos he]
    exact .cons hr h.warnings
  errors := List.forall_mem_cons.mpr ⟨by rw [(of_reports hr).1]; exact LogLevel.noConfusion, h.errors⟩

/-- The account in the order of time. -/
theorem reverse (h : Accounts log endings) : Accounts log.reverse endings.reverse where
  warnings := by
    rw [List.filter_reverse, List.filter_reverse]
    exact List.rel_reverse h.warnings
  errors r hr := h.errors r (List.mem_reverse.mp hr)

end Accounts

/-- Whatever a session does, the log accounts for the endings. -/
theorem noting_keeps : Seat.noting.Keeps fun x => Accounts x.env.log x.own where
  change f x hf h := by
    show Accounts (f x.env).log x.own
    rw [hf]
    exact h
  debug r x hr h := h.debug hr
  quiet e x he h := h.quiet he
  failure e r x hr h := h.failure hr

/-! ## The whole session -/

namespace Party

/-- The party that has all names. -/
def all : Party := ⟨fun _ => True, fun _ => True, fun _ => True⟩

end Party

mutual

theorem Program.confined_all : ∀ p : Program, p.Confined .all
  | .finish _ => trivial
  | .setResult _ next => fun answer => (next answer).confined_all
  | .setError _ next => next.confined_all
  | .readState next => fun answer => (next answer).confined_all
  | .insert _ _ next => fun answer => (next answer).confined_all
  | .readCount next => fun answer => (next answer).confined_all
  | .readType next => fun answer => (next answer).confined_all
  | .emit _ next => next.confined_all
  | .interrupt _ next => ⟨trivial, next.confined_all⟩
  | .execute _ _ next => ⟨trivial, fun answer => (next answer).confined_all⟩
  | .query _ _ next => ⟨trivial, fun answer => (next answer).confined_all⟩
  | .declare _ _ _ next => ⟨trivial, fun answer => (next answer).confined_all⟩
  | .register _ _ _ callbacks next =>
    ⟨trivial, callbacks.confined_all, fun answer => (next answer).confined_all⟩

theorem Callbacks.confined_all : ∀ c : Callbacks, c.Confined .all
  | .scalar body => fun args => (body args).confined_all
  | .aggregate step final => ⟨fun args => (step args).confined_all, final.confined_all⟩

end

/-- Every step uses only names, and files if it likes. -/
theorem SessionStep.confined_all (step : SessionStep) : step.Confined .all True := by
  cases step with
  | openDatabase _ _ _ => exact ⟨trivial, fun _ _ => .inl trivial⟩
  | register _ _ _ callbacks => exact ⟨trivial, callbacks.confined_all⟩
  | compile _ _ _ => exact ⟨trivial, trivial⟩
  | takeHandle _ _ => exact ⟨trivial, trivial⟩
  | busyHandler _ _ => exact ⟨trivial, fun _ _ _ _ => trivial⟩
  | _ => trivial

/-- All of a world is shared, and every number stands for itself. -/
def Holding.whole : Holding where
  kept _ _ := False
  kept_oneToOne := ⟨fun h => h.elim, fun h => h.elim⟩
  first := 0
  first' := 0
  rest := ⟨[], [], []⟩
  rest' := ⟨[], [], []⟩
  files := True
  party := .all
  host := ⟨[], [], [], [], []⟩
  host' := ⟨[], [], [], [], []⟩

theorem Holding.whole_apart : Holding.whole.Apart where
  world :=
    { volume := fun _ he => absurd he List.not_mem_nil
      volume' := fun _ he => absurd he List.not_mem_nil
      connection := fun _ he => absurd he List.not_mem_nil
      connection' := fun _ he => absurd he List.not_mem_nil
      path := fun _ _ he => absurd he List.not_mem_nil
      path' := fun _ _ he => absurd he List.not_mem_nil }
  statement _ he := absurd he List.not_mem_nil
  statement' _ he := absurd he List.not_mem_nil

/-- Worlds of which all is shared, where the log accounts for the endings. -/
def InAccount (w : SessionWorld) (w' : World HostNoted) : Prop :=
  Matched Holding.whole.toMatching
    (Seat.noting.Seated .whole fun x => Accounts x.env.log x.own) w w'

namespace Session

/-- Before anything has happened. -/
def emptyNoted : World HostNoted := { SessionWorld.empty with host := ⟨SessionWorld.empty.host, []⟩ }

theorem empty_inAccount : InAccount .empty emptyNoted where
  volumes := .nil
  connections := .nil
  statements := .nil
  next := ⟨1, rfl, rfl⟩
  host := ⟨⟨.nil, .nil, .nil, .nil, .nil, rfl, rfl⟩, .nil⟩

/-- Runs a step and reports it, with the endings of the closures that ran meanwhile. -/
def reportNoted (step : SessionStep) : StateM (World HostNoted) (StepReport × List ClosureEnd) := do
  let report ← Seat.noting.report step
  let endings := (← get).host.own
  modify fun w => { w with host := { w.host with own := [] } }
  return (report, endings.reverse)

/-- Runs the steps of a session with the endings beside it. -/
def runAllNoted (steps : List SessionStep) : List (StepReport × List ClosureEnd) :=
  ((steps.mapM reportNoted).run emptyNoted).1

/-- A step has the same report, whose log accounts for the endings. -/
theorem report_linked (step : SessionStep) :
    Linked InAccount (fun report noted => noted.1 = report ∧ Accounts report.log noted.2)
      (report step) (reportNoted step) := by
  intro w w' hw
  obtain ⟨hanswer, hran⟩ : ((run step).run w).1 = ((Seat.noting.run step).run w').1 ∧
      InAccount ((run step).run w).2 ((Seat.noting.run step).run w').2 :=
    Seat.run_linked noting_keeps Holding.whole_apart step.confined_all w w' hw
  obtain ⟨hhost, haccounts⟩ := hran.host
  refine ⟨⟨?_, ?_⟩, { hran with host := ⟨{ hhost with events := rfl, log := rfl }, .nil⟩ }⟩
  · have hreport : ((report step).run w).1 = ⟨((run step).run w).1,
      ((run step).run w).2.host.events.reverse, ((run step).run w).2.host.log.reverse⟩ := rfl
    rw [hreport, hanswer, hhost.events, hhost.log]
    rfl
  · show Accounts ((run step).run w).2.host.log.reverse
      ((Seat.noting.run step).run w').2.host.own.reverse
    rw [hhost.log]
    exact haccounts.reverse

end Session

end HostSql
