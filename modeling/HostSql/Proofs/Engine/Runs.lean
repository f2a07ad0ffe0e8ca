import HostSql.Engine.Grouping
import HostSql.Proofs.Coupling

/-!
# Following runs

A long computation on the world is followed step by step: where one part has ended, the next begins.
Much of what the engine does changes nothing or only the state of its host, and then the rest of the
world need not be followed. `Hosted` says so of a computation that asks the host, `Unaided` of one
that does not, and both go through sequencing.
-/

namespace HostSql.Engine

variable {H α β : Type}

/-! ## Runs -/

/-- A computation that may fail, and what follows unless it does. -/
theorem run_bind_ok {x : Run H α} {f : α → Run H β} {a : α} {w w' : World H}
    (h : x.run.run w = (.ok a, w')) : (x >>= f).run.run w = (f a).run.run w' := by
  show StateT.run (x.run >>= ExceptT.bindCont f) w = _
  rw [run_bind, h]
  rfl

theorem run_bind_error {x : Run H α} {f : α → Run H β} {fault : Fault} {w w' : World H}
    (h : x.run.run w = (.error fault, w')) : (x >>= f).run.run w = (.error fault, w') := by
  show StateT.run (x.run >>= ExceptT.bindCont f) w = _
  rw [run_bind, h]
  rfl

/-- Reading the world. -/
theorem run_get_bind (f : World H → Run H β) (w : World H) :
    (get >>= f).run.run w = (f w).run.run w := rfl

theorem connectionOf_run {k : Nat} {conn : Connection} {w : World H}
    (h : w.connections.get? k = some conn) :
    (connectionOf (H := H) k).run.run w = (.ok conn, w) := by
  unfold connectionOf
  rw [run_get_bind, h]
  rfl

theorem connectionOf_missing {k : Nat} {w : World H} (h : w.connections.get? k = none) :
    (connectionOf (H := H) k).run.run w = (.error .misuse, w) := by
  unfold connectionOf
  rw [run_get_bind, h]
  rfl

theorem lift_run (x : StateM (World H) α) (w : World H) :
    (liftM x : Run H α).run.run w = (.ok (x.run w).1, (x.run w).2) := rfl

theorem attempt_run (x : Run H α) (w : World H) :
    (attempt x).run.run w = (.ok (x.run.run w).1, (x.run.run w).2) := rfl

/-! ## Runs that change only the host -/

/-- Gives an answer and leaves the world as it was, but for the host, of which something holds. -/
def Hosted (x : StateM (World H) α) (w : World H) (answer : α) (P : H → Prop) : Prop :=
  ∃ h, x.run w = (answer, { w with host := h }) ∧ P h

namespace Hosted

variable {w : World H} {a : α} {fault : Fault} {P Q : H → Prop}

section Always

variable {x : StateM (World H) α}

theorem pure (h : P w.host) : Hosted (Pure.pure a : StateM (World H) α) w a P := ⟨w.host, rfl, h⟩

theorem bind {f : α → StateM (World H) β} {b : β} (hx : Hosted x w a P)
    (hf : ∀ h, P h → Hosted (f a) { w with host := h } b Q) : Hosted (x >>= f) w b Q := by
  obtain ⟨h, hrun, hP⟩ := hx
  obtain ⟨h', hrun', hQ⟩ := hf h hP
  refine ⟨h', ?_, hQ⟩
  rw [run_bind, hrun]
  exact hrun'

theorem congr {y : StateM (World H) α} (hy : Hosted y w a P) (h : x.run w = y.run w) :
    Hosted x w a P := by
  obtain ⟨host, hrun, hP⟩ := hy
  exact ⟨host, h.trans hrun, hP⟩

theorem mono (hx : Hosted x w a P) (hPQ : ∀ h, P h → Q h) : Hosted x w a Q := by
  obtain ⟨h, hrun, hP⟩ := hx
  exact ⟨h, hrun, hPQ h hP⟩

/-- What does not fail is lifted. -/
theorem lift (hx : Hosted x w a P) : Hosted (liftM x : Run H α).run w (.ok a) P := by
  obtain ⟨h, hrun, hP⟩ := hx
  refine ⟨h, ?_, hP⟩
  rw [lift_run, hrun]

end Always

section Failing

variable {x : Run H α}

theorem return_run (h : P w.host) : Hosted (Pure.pure a : Run H α).run w (.ok a) P := .pure h

theorem bind_ok {f : α → Run H β} {b : Except Fault β} (hx : Hosted x.run w (.ok a) P)
    (hf : ∀ h, P h → Hosted (f a).run { w with host := h } b Q) : Hosted (x >>= f).run w b Q := by
  obtain ⟨h, hrun, hP⟩ := hx
  obtain ⟨h', hrun', hQ⟩ := hf h hP
  exact ⟨h', (run_bind_ok hrun).trans hrun', hQ⟩

theorem bind_error {f : α → Run H β} (hx : Hosted x.run w (.error fault) P) :
    Hosted (x >>= f).run w (.error fault) P := by
  obtain ⟨h, hrun, hP⟩ := hx
  exact ⟨h, run_bind_error hrun, hP⟩

theorem attempt {r : Except Fault α} (hx : Hosted x.run w r P) :
    Hosted (attempt x).run w (.ok r) P := lift hx

end Failing

end Hosted

/-! ## Runs that do not need the host -/

/-- Gives an answer and leaves the world as it was, whatever the state of the host. -/
def Unaided (x : Run H α) (w : World H) (answer : α) : Prop :=
  ∀ h, x.run.run { w with host := h } = (.ok answer, { w with host := h })

namespace Unaided

variable {x : Run H α} {w : World H} {a : α}

theorem return_run : Unaided (Pure.pure a) w a := fun _ => rfl

theorem bind {f : α → Run H β} {b : β} (hx : Unaided x w a) (hf : Unaided (f a) w b) :
    Unaided (x >>= f) w b := fun h => (run_bind_ok (hx h)).trans (hf h)

theorem withHost (hx : Unaided x w a) (h : H) : Unaided x { w with host := h } a := fun h' => hx h'

theorem run (hx : Unaided x w a) : x.run.run w = (.ok a, w) := hx w.host

theorem hosted (hx : Unaided x w a) {P : H → Prop} (h : P w.host) : Hosted x.run w (.ok a) P :=
  ⟨w.host, hx w.host, h⟩

theorem attempt (hx : Unaided x w a) : Unaided (attempt x) w (.ok a) := by
  intro h
  refine (lift_run x.run _).trans ?_
  rw [hx h]

end Unaided

/-- An open connection that nothing is to interrupt. -/
def Undisturbed (connection : Nat) (w : World H) : Prop :=
  ∃ conn, w.connections.get? connection = some conn ∧ conn.interrupted = false

theorem Undisturbed.withHost {connection : Nat} {w : World H} (hw : Undisturbed connection w) (h : H) :
    Undisturbed connection { w with host := h } := hw

theorem checkInterrupt_undisturbed {scope : Scope H} {w : World H}
    (hw : Undisturbed scope.connection w) : Unaided (checkInterrupt scope) w () := by
  obtain ⟨conn, hconn, hcalm⟩ := hw
  have hread : Unaided (connectionOf (H := H) scope.connection) w conn := fun _ =>
    connectionOf_run hconn
  unfold checkInterrupt
  refine hread.bind ?_
  rw [hcalm]
  exact .return_run

end HostSql.Engine
