import HostSql.Host.Invocation

/-!
# Coupled computations

Two computations are coupled by a relation between their states if from related states they give
the same answer and end in related states. Coupling goes through sequencing, so a closure that runs
in two worlds whose answers to its requests are coupled cannot tell the worlds apart:

> `Program.run_coupled`: a closure ends in the same way, with the same frame, in both.
> `callFunction_coupled`, `finishGroup_coupled`: so do the engine's calls, if what they read and
> write of the records is coupled as well.
-/

namespace HostSql

variable {σ τ α β : Type}

/-- A sequence runs its second part where the first has ended. -/
theorem run_bind (x : StateM σ α) (f : α → StateM σ β) (s : σ) :
    (x >>= f).run s = (f (x.run s).1).run (x.run s).2 := rfl

theorem run_get (s : σ) : (get : StateM σ σ).run s = (s, s) := rfl

/-! ## A state beside another -/

/-- A state, and the state of the world around it. -/
structure Beside (ε γ : Type) where
  env : ε
  own : γ

namespace Beside

variable {ε γ α : Type}

/-- A computation on the world around. -/
def outside (x : StateM ε α) : StateM (Beside ε γ) α := fun s =>
  let (answer, env) := x.run s.env
  (answer, { s with env })

/-- A change of the state itself. -/
def modifyOwn (f : γ → γ) : StateM (Beside ε γ) Unit := modify fun s => { s with own := f s.own }

end Beside

/-! ## Coupling -/

/-- From related states both computations give the same answer and end in related states. -/
def Coupled (R : σ → τ → Prop) (x : StateM σ α) (y : StateM τ α) : Prop :=
  ∀ s t, R s t → (x.run s).1 = (y.run t).1 ∧ R (x.run s).2 (y.run t).2

namespace Coupled

variable {R : σ → τ → Prop}

theorem pure (a : α) : Coupled R (Pure.pure a : StateM σ α) (Pure.pure a : StateM τ α) :=
  fun _ _ h => ⟨rfl, h⟩

theorem bind {x : StateM σ α} {y : StateM τ α} {f : α → StateM σ β} {g : α → StateM τ β}
    (hx : Coupled R x y) (hf : ∀ a, Coupled R (f a) (g a)) :
    Coupled R (x >>= f) (y >>= g) := by
  intro s t hst
  obtain ⟨hanswer, hnext⟩ := hx s t hst
  rw [run_bind, run_bind, ← hanswer]
  exact hf _ _ _ hnext

/-- Coupled computations stay coupled when their answers are read in the same way. -/
theorem map {x : StateM σ α} {y : StateM τ α} (f : α → β) (hx : Coupled R x y) :
    Coupled R (f <$> x) (f <$> y) := by
  intro s t hst
  obtain ⟨hanswer, hnext⟩ := hx s t hst
  exact ⟨congrArg f hanswer, hnext⟩

/-- Going through a list with coupled computations is coupled. -/
theorem mapM {f : α → StateM σ β} {g : α → StateM τ β} (h : ∀ a, Coupled R (f a) (g a))
    (l : List α) : Coupled R (l.mapM f) (l.mapM g) := by
  induction l with
  | nil => exact pure []
  | cons a l ih =>
    rw [List.mapM_cons, List.mapM_cons]
    exact (h a).bind fun b => ih.bind fun rest => pure (b :: rest)

end Coupled

/-- The requests of closures are answered alike in two worlds. -/
structure Ambient.Coupled (R : σ → τ → Prop) (a : Ambient σ) (b : Ambient τ) : Prop where
  log : ∀ r, HostSql.Coupled R (a.log r) (b.log r)
  emit : ∀ e, HostSql.Coupled R (a.emit e) (b.emit e)
  interrupt : ∀ handle, HostSql.Coupled R (a.interrupt handle) (b.interrupt handle)
  execute : ∀ c sql, HostSql.Coupled R (a.execute c sql) (b.execute c sql)
  query : ∀ c sql, HostSql.Coupled R (a.query c sql) (b.query c sql)
  declare : ∀ c name type, HostSql.Coupled R (a.declare c name type) (b.declare c name type)
  register : ∀ c name arity callbacks,
    HostSql.Coupled R (a.register c name arity callbacks) (b.register c name arity callbacks)

/-- A closure cannot tell two coupled worlds apart. -/
theorem Program.run_coupled {R : σ → τ → Prop} {a : Ambient σ} {b : Ambient τ}
    (h : a.Coupled R b) (call : Call) :
    ∀ (p : Program) (f : Frame), Coupled R (p.run a call f) (p.run b call f)
  | .finish outcome, f => Coupled.pure (outcome, f)
  | .setResult v next, f => by
    simp only [Program.run]
    exact run_coupled h call (next _) _
  | .setError message next, f => by
    simp only [Program.run]
    exact run_coupled h call next _
  | .readState next, f => by
    simp only [Program.run]
    exact run_coupled h call (next _) f
  | .insert key v next, f => by
    simp only [Program.run]
    exact run_coupled h call (next _) _
  | .readCount next, f => by
    simp only [Program.run]
    exact run_coupled h call (next _) f
  | .readType next, f => by
    simp only [Program.run]
    exact run_coupled h call (next _) f
  | .emit event next, f => by
    simp only [Program.run]
    exact (h.emit event).bind fun _ => run_coupled h call next f
  | .interrupt handle next, f => by
    simp only [Program.run]
    exact (h.interrupt handle).bind fun _ => run_coupled h call next f
  | .execute c sql next, f => by
    simp only [Program.run]
    exact (h.execute c sql).bind fun answer => run_coupled h call (next answer) f
  | .query c sql next, f => by
    simp only [Program.run]
    exact (h.query c sql).bind fun answer => run_coupled h call (next answer) f
  | .declare c name type next, f => by
    simp only [Program.run]
    exact (h.declare c name type).bind fun answer => run_coupled h call (next answer) f
  | .register c name arity callbacks next, f => by
    simp only [Program.run]
    exact (h.register c name arity callbacks).bind fun answer => run_coupled h call (next answer) f

/-- A contained closure cannot tell two coupled worlds apart. -/
theorem protect_coupled {R : σ → τ → Prop} {a : Ambient σ} {b : Ambient τ}
    (h : a.Coupled R b) (r : FunctionRecord) (call : Call) (diagnostic : String)
    (closure : Program) (group : Option Group) :
    Coupled R (protect a r call diagnostic closure group)
      (protect b r call diagnostic closure group) := by
  unfold protect
  refine (closure.run_coupled h call _).bind ?_
  rintro ⟨outcome, frame⟩
  cases outcome with
  | ok => exact Coupled.pure frame
  | failed e => exact (h.log _).bind fun _ => Coupled.pure _
  | panicked => exact (h.log _).bind fun _ => Coupled.pure _

/-! ## The engine's calls -/

section Calls

variable {R : σ → τ → Prop} {a : Ambient σ} {b : Ambient τ} (h : a.Coupled R b)
  (hrecord : ∀ record, Coupled R (a.record? record) (b.record? record))
  (hset : ∀ record groups, Coupled R (a.setGroups record groups) (b.setGroups record groups))

include hrecord

theorem groupsOf_coupled (record : Nat) : Coupled R (groupsOf a record) (groupsOf b record) :=
  (hrecord record).bind fun _ => .pure _

include hset

theorem groupId_coupled (record : Nat) (slot : Option Nat) :
    Coupled R (groupId a record slot) (groupId b record slot) := by
  cases slot with
  | some id => exact .pure id
  | none => exact (groupsOf_coupled hrecord record).bind fun _ => (hset _ _).bind fun _ => .pure _

theorem takeGroup_coupled (record id : Nat) :
    Coupled R (takeGroup a record id) (takeGroup b record id) :=
  (groupsOf_coupled hrecord record).bind fun _ => (hset _ _).bind fun _ => .pure _

theorem putBackGroup_coupled (record id : Nat) (group : Group) :
    Coupled R (putBackGroup a record id group) (putBackGroup b record id group) :=
  (groupsOf_coupled hrecord record).bind fun _ => hset _ _

include h

/-- A call of a function is coupled if all that it uses is. -/
theorem callFunction_coupled (record : Nat) (slot : Option Nat) (args : List Engine.Datum) :
    Coupled R (callFunction a record slot args) (callFunction b record slot args) := by
  unfold callFunction
  refine (hrecord record).bind fun r? => ?_
  cases r? with
  | none => exact .pure _
  | some r =>
    dsimp only
    cases r.callbacks with
    | scalar body => exact (protect_coupled h _ _ _ _ _).bind fun _ => .pure _
    | aggregate step final =>
      refine (groupId_coupled hrecord hset record slot).bind fun id => ?_
      refine (takeGroup_coupled hrecord hset record id).bind fun group => ?_
      refine (protect_coupled h _ _ _ _ _).bind fun frame => ?_
      exact (putBackGroup_coupled hrecord hset _ _ _).bind fun _ => .pure _

/-- The end of a group is coupled if all that it uses is. -/
theorem finishGroup_coupled (record : Nat) (slot : Option Nat) :
    Coupled R (finishGroup a record slot) (finishGroup b record slot) := by
  unfold finishGroup
  refine (hrecord record).bind fun r? => ?_
  cases r? with
  | none => exact .pure _
  | some r =>
    dsimp only
    cases r.callbacks with
    | scalar body => exact .pure _
    | aggregate step final =>
      exact (takeGroup_coupled hrecord hset record _).bind fun _ =>
        (protect_coupled h _ _ _ _ _).bind fun _ => .pure _

end Calls

end HostSql
