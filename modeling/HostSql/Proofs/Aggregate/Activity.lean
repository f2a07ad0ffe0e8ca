import HostSql.Proofs.Coupling
import Mathlib.Logic.Function.Basic

/-!
# What an engine does with an aggregate

An `Activity` is any finite course of callbacks of one aggregate: steps and ends of any groups, in
any order, and nested, for while a closure runs each of its requests may cause an activity of its
own. Callbacks may depend on everything that has happened before. The only rule is in the type: no
callback is issued for a group whose closure is running.

An activity is run by a `Service`, which performs single callbacks. `Surroundings.shared` performs
them as the library does, by `callFunction` and `finishGroup` on the aggregate's one table of
groups; the engine keeps a slot for each group, empty at first and empty again after the group's
end.

> `Activity.run_coupled`: services whose callbacks are coupled whenever the activities nested in
> them are cannot be told apart by any activity.
-/

namespace HostSql

open Engine (Datum)

/-- What an aggregate is registered as. -/
structure HostAggregate where
  name : String
  arity : Int32
  step : List (Option String) → Program
  final : Program

/-- The record of an aggregate with a declared type and its groups. -/
def HostAggregate.record (f : HostAggregate) (type : ResultType) (groups : GroupTable) :
    FunctionRecord :=
  ⟨f.name, f.arity, .aggregate f.step f.final, type, groups⟩

open Beside

/-- The world around one aggregate: what the requests of closures do in it, before and after the
callbacks that they cause, which type is declared for the aggregate, and what becomes of the
results of callbacks. -/
structure Surroundings (ε : Type) where
  /-- The number of the aggregate's record. -/
  number : Nat
  before : Ambient ε
  after : Ambient ε
  resultType : ε → ResultType
  heard : (group : Nat) → Except String Datum → ε → ε

/-- A course of callbacks while the closures of some groups are running. -/
inductive Activity (ε : Type) : (running : List Nat) → Type where
  | rest {running : List Nat} : Activity ε running
  | step {running : List Nat} (group : Nat) (free : group ∉ running) (args : List Datum)
      (during : ε → Activity ε (group :: running)) (next : ε → Activity ε running) :
      Activity ε running
  | finish {running : List Nat} (group : Nat) (free : group ∉ running)
      (during : ε → Activity ε (group :: running)) (next : ε → Activity ε running) :
      Activity ε running

/-- How single callbacks are performed, given what each request of the closure causes. -/
structure Service (ε γ : Type) where
  step : (group : Nat) → List Datum → (nested : ε → StateM (Beside ε γ) Unit) →
    StateM (Beside ε γ) (Except String Datum)
  finish : (group : Nat) → (nested : ε → StateM (Beside ε γ) Unit) →
    StateM (Beside ε γ) (Except String Datum)

variable {ε γ : Type}

/-- Runs an activity. -/
def Activity.run (s : Surroundings ε) (service : Service ε γ) {running : List Nat} :
    Activity ε running → StateM (Beside ε γ) Unit
  | .rest => return
  | .step group _ args during next => do
    let result ← service.step group args fun e => (during e).run s service
    outside (modify (s.heard group result))
    (next (← get).env).run s service
  | .finish group _ during next => do
    let result ← service.finish group fun e => (during e).run s service
    outside (modify (s.heard group result))
    (next (← get).env).run s service

namespace Surroundings

/-- A request of a running closure: it reaches the world, causes callbacks, and is answered. -/
def reach {α : Type} (s : Surroundings ε) (nested : ε → StateM (Beside ε γ) Unit)
    (request : Ambient ε → StateM ε α) : StateM (Beside ε γ) α := do
  let _ ← outside (request s.before)
  nested (← get).env
  outside (request s.after)

/-- What a running closure uses. -/
def ambient (s : Surroundings ε) (nested : ε → StateM (Beside ε γ) Unit) :
    Ambient (Beside ε γ) where
  record? record := outside (s.after.record? record)
  setGroups record groups := outside (s.after.setGroups record groups)
  log r := outside (s.after.log r)
  emit event := outside (s.after.emit event)
  interrupt handle := s.reach nested (·.interrupt handle)
  execute connection sql := s.reach nested (·.execute connection sql)
  query connection sql := s.reach nested (·.query connection sql)
  declare connection name type := s.reach nested (·.declare connection name type)
  register connection name arity callbacks :=
    s.reach nested (·.register connection name arity callbacks)

end Surroundings

/-! ## One table for all groups -/

/-- The groups of an aggregate in its table, and the engine's slots for them. -/
structure SharedGroups where
  groups : GroupTable
  slots : (group : Nat) → Option Nat

/-- Before any callback. -/
def SharedGroups.start : SharedGroups := ⟨.empty, fun _ => none⟩

/-- The engine writes a group's slot. -/
def SharedGroups.setSlot (w : SharedGroups) (group : Nat) (slot : Option Nat) : SharedGroups :=
  { w with slots := Function.update w.slots group slot }

namespace Surroundings

/-- What a running closure uses, with the aggregate's own record among the records. -/
def sharing (s : Surroundings ε) (f : HostAggregate)
    (nested : ε → StateM (Beside ε SharedGroups) Unit) : Ambient (Beside ε SharedGroups) :=
  { s.ambient nested with
    record? := fun record =>
      if record = s.number then do
        let w ← get
        return some (f.record (s.resultType w.env) w.own.groups)
      else (s.ambient nested).record? record
    setGroups := fun record groups =>
      if record = s.number then modifyOwn fun w => { w with groups }
      else (s.ambient nested).setGroups record groups }

/-- Callbacks as the library performs them, with the engine's slots. -/
def shared (s : Surroundings ε) (f : HostAggregate) : Service ε SharedGroups where
  step group args nested := do
    let reply ← callFunction (s.sharing f nested) s.number ((← get).own.slots group) args
    modifyOwn (·.setSlot group reply.slot)
    return reply.result
  finish group nested := do
    let reply ← finishGroup (s.sharing f nested) s.number ((← get).own.slots group)
    modifyOwn (·.setSlot group none)
    return reply.result

end Surroundings

/-! ## Services that cannot be told apart -/

/-- Related states have the same world around them, whatever it becomes. -/
structure SameEnv {γ δ : Type} (R : Beside ε γ → Beside ε δ → Prop) : Prop where
  env : ∀ {w w'}, R w w' → w.env = w'.env
  become : ∀ {w w'} (e : ε), R w w' → R { w with env := e } { w' with env := e }

namespace SameEnv

variable {γ δ α : Type} {R : Beside ε γ → Beside ε δ → Prop}

/-- What happens in the world around is the same. -/
theorem outside (h : SameEnv R) (x : StateM ε α) :
    Coupled R (Beside.outside x) (Beside.outside x) := by
  intro w w' hw
  have heq : x.run w.env = x.run w'.env := by rw [h.env hw]
  refine ⟨congrArg Prod.fst heq, ?_⟩
  show R { w with env := (x.run w.env).2 } { w' with env := (x.run w'.env).2 }
  rw [heq]
  exact h.become _ hw

/-- What depends only on the world around goes on in the same way. -/
theorem next (h : SameEnv R) {x : ε → StateM (Beside ε γ) α} {y : ε → StateM (Beside ε δ) α}
    (hx : ∀ e, Coupled R (x e) (y e)) :
    Coupled R (do x (← get).env) (do y (← get).env) := by
  intro w w' hw
  have hnext : Coupled R (x w.env) (y w'.env) := h.env hw ▸ hx w.env
  exact hnext w w' hw

/-- What closures use is coupled if the activities that their requests cause are. -/
theorem ambient (h : SameEnv R) (s : Surroundings ε) {nested : ε → StateM (Beside ε γ) Unit}
    {nested' : ε → StateM (Beside ε δ) Unit} (hnested : ∀ e, Coupled R (nested e) (nested' e)) :
    (s.ambient nested).Coupled R (s.ambient nested') := by
  have hreach : ∀ {α : Type} (request : Ambient ε → StateM ε α),
      Coupled R (s.reach nested request) (s.reach nested' request) := fun request =>
    (h.outside (request s.before)).bind fun _ =>
      h.next fun e => (hnested e).bind fun _ => h.outside (request s.after)
  exact ⟨fun _ => h.outside _, fun _ => h.outside _, fun _ => hreach _, fun _ _ => hreach _,
    fun _ _ => hreach _, fun _ _ _ => hreach _, fun _ _ _ _ => hreach _⟩

end SameEnv

/-- Two services whose callbacks are coupled, given that the activities nested in them are, are not
told apart by any activity. What relates their states may depend on which closures are running. -/
theorem Activity.run_coupled {γ δ P : Type} (s : Surroundings ε) {service : Service ε γ}
    {service' : Service ε δ} {R : List Nat → P → Beside ε γ → Beside ε δ → Prop}
    (hworld : ∀ running p, SameEnv (R running p))
    (hstep : ∀ {running group} nested nested' args, group ∉ running →
      (∀ p e, Coupled (R (group :: running) p) (nested e) (nested' e)) →
      ∀ p, Coupled (R running p) (service.step group args nested)
        (service'.step group args nested'))
    (hfinish : ∀ {running group} nested nested', group ∉ running →
      (∀ p e, Coupled (R (group :: running) p) (nested e) (nested' e)) →
      ∀ p, Coupled (R running p) (service.finish group nested) (service'.finish group nested'))
    {running : List Nat} (activity : Activity ε running) :
    ∀ p, Coupled (R running p) (activity.run s service) (activity.run s service') := by
  induction activity with
  | rest => exact fun _ => Coupled.pure ()
  | step group free args during next ihduring ihnext =>
    intro p
    refine (hstep _ _ args free (fun p e => ihduring e p) p).bind fun result => ?_
    exact ((hworld _ p).outside _).bind fun _ => (hworld _ p).next fun e => ihnext e p
  | finish group free during next ihduring ihnext =>
    intro p
    refine (hfinish _ _ free (fun p e => ihduring e p) p).bind fun result => ?_
    exact ((hworld _ p).outside _).bind fun _ => (hworld _ p).next fun e => ihnext e p

end HostSql
