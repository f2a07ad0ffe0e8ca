import HostSql.Proofs.Busy.Meeting

/-!
# Beginning a statement, and beginning it again

A statement that is not running begins with its next step, whether it has never been stepped, has
ended, or was refused a lock when it last began. It counts its questions from zero again and forgets
its failure (`World.begun`); then it claims its volume, and if that is refused it stays as it is,
for the next step to begin it again.

> `step_refused`: a refused beginning is a step that fails with a lock.
> `step_untried`: a step begins a statement as if it had never been tried.
-/

namespace HostSql.Engine

variable {H : Type} {hooks : Hooks H} {k j : Nat} {w w₁ : World H}

/-! ## Beginnings -/

/-- The marks of a statement that begins. -/
def Statement.begun (s : Statement) : Statement :=
  { s with phase := .blocked, failure := none, tripped := false }

/-- The world in which a statement claims its volume: its questions count from zero. -/
def World.begun (w : World H) (k j : Nat) : World H :=
  ((World.modifyStatement j Statement.begun).run (w.withNext k (some 0))).2

/-- The world after a refused beginning: the statement keeps the failure. -/
def World.blocked (w : World H) (j : Nat) : World H :=
  ((block j .busy).run w).2

/-- An interruption of a connection that executes nothing is forgotten. -/
def World.settled (w : World H) (k : Nat) : World H := ((settleInterrupt k).run w).2

/-- A statement whose claim is refused stays as it has begun. -/
theorem beginStatement_refused {program : Program}
    (h : (enter ⟨k, j, hooks⟩ program).run.run (w.begun k j) = (.error .busy, w₁)) :
    (beginStatement ⟨k, j, hooks⟩ program).run w = (.progress (.failed .busy), w₁.blocked j) := by
  unfold beginStatement
  rw [run_bind, run_bind]
  show StateT.run ((enter ⟨k, j, hooks⟩ program).run >>= _) (w.begun k j) = _
  rw [run_bind, h]
  rfl

/-- What a statement does once its volume is claimed. -/
def runProgram (scope : Scope H) (program : Program) : StateM (World H) Progress :=
  match program.action with
  | .query plan => advance scope program (.idle plan)
  | .changeRows target change => runRowChange scope program target change
  | .changeTables change => runTableChange scope program change
  | .nothing => finish scope program ⟨none, false⟩ none
  | action => runTransaction scope action

/-- A statement whose claim is granted, however long that took, does what it has to do. -/
theorem beginStatement_granted {program : Program}
    (h : (enter ⟨k, j, hooks⟩ program).run.run (w.begun k j) = (.ok true, w₁)) :
    (beginStatement ⟨k, j, hooks⟩ program).run w =
      let ended := (runProgram ⟨k, j, hooks⟩ program).run w₁
      (.progress ended.1, ended.2) := by
  unfold beginStatement
  rw [run_bind, run_bind]
  show StateT.run ((enter ⟨k, j, hooks⟩ program).run >>= _) (w.begun k j) = _
  rw [run_bind, h]
  unfold runProgram
  cases program.action <;> rfl

theorem settled_statements (w : World H) (k : Nat) : (w.settled k).statements = w.statements := by
  unfold World.settled settleInterrupt
  rw [run_bind, run_get]
  split <;> rfl

/-- The world in which a statement that is not running begins. -/
def World.starting (w : World H) (k : Nat) (s : Statement) : World H :=
  if s.phase = .blocked then w else w.settled k

/-- A statement that begins needs not be compiled again first. One that was refused a lock is not. -/
def Statement.Begins (s : Statement) (k : Nat) : Prop :=
  s.connection = k ∧ (s.phase = .blocked ∨ s.phase ≠ .running ∧ s.expired = false)

theorem beginCurrent_progress {s : Statement} (hs : w.statements.get? j = some s)
    (hexpired : s.expired = false) {p : Progress} {left : Nat}
    (h : (beginStatement ⟨k, j, hooks⟩ s.program).run (w.settled k) = (.progress p, w₁)) :
    (beginCurrent ⟨k, j, hooks⟩ (left + 1)).run w = (p, w₁) := by
  unfold beginCurrent
  rw [run_bind, run_get]
  simp only [hs]
  unfold refresh
  rw [hexpired, if_neg Bool.false_ne_true, run_bind]
  show StateT.run (_ >>= _) w = _
  rw [run_bind]
  show StateT.run (_ >>= _) (w.settled k) = _
  rw [run_bind, run_get]
  show StateT.run (_ >>= _) (w.settled k) = _
  rw [run_bind, settled_statements, hs]
  simp only [Option.map_some, Option.getD_some]
  rw [h]
  rfl

/-- A step of a statement that is not running begins it. -/
theorem step_progress {s : Statement} (hs : w.statements.get? j = some s) (hbegins : s.Begins k)
    {p : Progress}
    (h : (beginStatement ⟨k, j, hooks⟩ s.program).run (w.starting k s) = (.progress p, w₁)) :
    (step hooks j).run w = (p, w₁) := by
  obtain ⟨rfl, hbegins⟩ := hbegins
  have hcurrent (hblocked : s.phase ≠ .blocked) :
      (beginCurrent ⟨s.connection, j, hooks⟩ (maxRecompilations + 1)).run w = (p, w₁) := by
    unfold World.starting at h
    rw [if_neg hblocked] at h
    exact beginCurrent_progress hs (hbegins.resolve_left hblocked).2 h
  unfold step
  rw [run_bind, run_get]
  simp only [hs]
  cases hphase : s.phase with
  | blocked =>
    unfold World.starting at h
    rw [if_pos hphase] at h
    dsimp only
    rw [run_bind, h]
    rfl
  | running => exact absurd hphase (hbegins.resolve_left (hphase ▸ nofun)).1
  | ready => exact hcurrent (hphase ▸ nofun)
  | halted => exact hcurrent (hphase ▸ nofun)

/-- A step whose claim is refused fails with a lock, and the statement can be stepped again. -/
theorem step_refused {s : Statement} (hs : w.statements.get? j = some s) (hbegins : s.Begins k)
    (h : (enter ⟨k, j, hooks⟩ s.program).run.run ((w.starting k s).begun k j) = (.error .busy, w₁)) :
    (step hooks j).run w = (.failed .busy, w₁.blocked j) :=
  step_progress hs hbegins (beginStatement_refused h)

/-- A step whose claim is granted goes on from there as if it had never been locked. -/
theorem step_granted {s : Statement} (hs : w.statements.get? j = some s) (hbegins : s.Begins k)
    (h : (enter ⟨k, j, hooks⟩ s.program).run.run ((w.starting k s).begun k j) = (.ok true, w₁)) :
    (step hooks j).run w = (runProgram ⟨k, j, hooks⟩ s.program).run w₁ :=
  step_progress hs hbegins (beginStatement_granted h)

end HostSql.Engine
