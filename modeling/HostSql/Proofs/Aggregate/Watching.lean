import HostSql.Proofs.Aggregate.Activity

/-!
# Watching the table of groups

`Surroundings.watched` performs callbacks as the library does, on the same table and with the same
slots, and keeps a diary beside them: which callbacks have begun, whose closures are running, which
ids have been handed out, and what all that was at every moment at which the world can look: before
and after every callback, when a closure logs or emits something, and before and after whatever a
request of it causes.

> `Activity.watched_run`: the diary changes nothing.

`TableMoment.Right` says what is expected at a moment.
-/

namespace HostSql

open Engine (Datum)
open Beside

variable {ε : Type}

/-! ## Moments -/

/-- A callback of an aggregate. -/
inductive GroupCallback where
  | step (group : Nat)
  | finish (group : Nat)
  deriving Repr, DecidableEq

def GroupCallback.group : GroupCallback → Nat
  | step g | finish g => g

/-- Whether a group has been stepped and not been finished since, the latest callback first. -/
def inProgress (group : Nat) : List GroupCallback → Bool
  | [] => false
  | .step g :: past => g == group || inProgress group past
  | .finish g :: past => g != group && inProgress group past

/-- What there is to see at some time. -/
structure TableMoment where
  shared : SharedGroups
  /-- The groups whose closures are running, the innermost first. -/
  running : List Nat
  /-- The callbacks that have begun, the latest first. -/
  past : List GroupCallback
  /-- The ids that have been handed out, the latest first. -/
  issued : List Nat

namespace TableMoment

/-- The ids under which the table has groups. -/
def keys (m : TableMoment) : List Nat := m.shared.groups.groups.map (·.1)

/-- The id under which a step looks for its group, and the table in which it does. A group without
a slot is begun before. -/
def sought (m : TableMoment) (group : Nat) : Nat × GroupTable :=
  match m.shared.slots group with
  | some id => (id, m.shared.groups)
  | none => m.shared.groups.allocate

/-- What is expected at a moment. -/
structure Right (m : TableMoment) : Prop where
  bounds : ∀ id ∈ m.keys, 1 ≤ id ∧ id ≤ m.shared.groups.lastId
  /-- The table has the groups that have been stepped and not finished and whose closures are not
  running, and no others. -/
  keys : ∀ id, id ∈ m.keys ↔
    ∃ g ∉ m.running, inProgress g m.past = true ∧ m.shared.slots g = some id
  slots : ∀ g ∉ m.running, (m.shared.slots g).isSome = inProgress g m.past
  apart : ∀ g ∉ m.running, ∀ g' ∉ m.running, ∀ id, m.shared.slots g = some id →
    m.shared.slots g' = some id → g = g'
  /-- No id has been handed out twice. -/
  issued : m.issued.Nodup
  issuedBounds : ∀ id, id ∈ m.issued ↔ 1 ≤ id ∧ id ≤ m.shared.groups.lastId
  /-- A step finds its group. -/
  step : ∀ g ∉ m.running, ((m.sought g).2.groups.get? (m.sought g).1).isSome = true
  /-- The end of a group finds it if it has a slot, and only then. -/
  finish : ∀ g ∉ m.running,
    (m.shared.groups.groups.get? ((m.shared.slots g).getD unusedSlot)).isSome =
      (m.shared.slots g).isSome
  /-- When all groups have been finished, nothing is left. -/
  empty : (∀ g ∉ m.running, inProgress g m.past = false) → m.shared.groups.groups = []

end TableMoment

/-! ## The diary -/

/-- What there is to see now, and at all moments that have been looked at, the latest first. -/
structure TableDiary extends TableMoment where
  moments : List TableMoment

namespace TableDiary

/-- Before any callback. -/
def start : TableDiary := ⟨⟨.start, [], [], []⟩, []⟩

def look (d : TableDiary) : TableDiary := { d with moments := d.toTableMoment :: d.moments }

/-- A callback begins. -/
def begin (d : TableDiary) (c : GroupCallback) : TableDiary :=
  { d with running := c.group :: d.running, past := c :: d.past }

/-- The library changes the table. It has handed out an id if it has begun a group. -/
def setGroups (d : TableDiary) (groups : GroupTable) : TableDiary :=
  { d with
    shared := { d.shared with groups }
    issued :=
      if groups = d.shared.groups.allocate.2 then d.shared.groups.allocate.1 :: d.issued
      else d.issued }

/-- A callback has ended, and the engine writes the group's slot. -/
def done (d : TableDiary) (group : Nat) (slot : Option Nat) : TableDiary :=
  { d with shared := d.shared.setSlot group slot, running := d.running.tail }

end TableDiary

/-- Looks at what there is to see. -/
def lookNow : StateM (Beside ε TableDiary) Unit := modifyOwn (·.look)

namespace Surroundings

/-- What a request of a closure causes, looked at before and after. -/
def looking (nested : ε → StateM (Beside ε TableDiary) Unit) (e : ε) :
    StateM (Beside ε TableDiary) Unit := do
  lookNow
  nested e
  lookNow

/-- What a running closure uses, looked at, with the aggregate's own record among the records. -/
def watching (s : Surroundings ε) (f : HostAggregate)
    (nested : ε → StateM (Beside ε TableDiary) Unit) : Ambient (Beside ε TableDiary) :=
  { s.ambient (looking nested) with
    record? := fun record =>
      if record = s.number then do
        let w ← get
        return some (f.record (s.resultType w.env) w.own.shared.groups)
      else (s.ambient (looking nested)).record? record
    setGroups := fun record groups =>
      if record = s.number then modifyOwn (·.setGroups groups)
      else (s.ambient (looking nested)).setGroups record groups
    log := fun r => do
      lookNow
      outside (s.after.log r)
    emit := fun event => do
      lookNow
      outside (s.after.emit event) }

/-- Callbacks as the library performs them, with the engine's slots and a diary. -/
def watched (s : Surroundings ε) (f : HostAggregate) : Service ε TableDiary where
  step group args nested := do
    lookNow
    modifyOwn (·.begin (.step group))
    let reply ← callFunction (s.watching f nested) s.number ((← get).own.shared.slots group) args
    modifyOwn (·.done group reply.slot)
    lookNow
    return reply.result
  finish group nested := do
    lookNow
    modifyOwn (·.begin (.finish group))
    let reply ← finishGroup (s.watching f nested) s.number ((← get).own.shared.slots group)
    modifyOwn (·.done group none)
    lookNow
    return reply.result

end Surroundings

/-! ## The diary changes nothing -/

/-- A table with its slots, and the same with a diary. -/
def SameTable (w : Beside ε SharedGroups) (d : Beside ε TableDiary) : Prop :=
  w = ⟨d.env, d.own.shared⟩

namespace SameTable

theorem sameEnv : SameEnv (@SameTable ε) where
  env := by
    rintro _ ⟨e, d⟩ rfl
    rfl
  become := by
    rintro _ ⟨e, d⟩ e' rfl
    rfl

/-- What changes the diary only goes unnoticed. -/
theorem unnoticed {α : Type} {change : TableDiary → TableDiary}
    {x : StateM (Beside ε SharedGroups) α} {y : StateM (Beside ε TableDiary) α}
    (h : Coupled SameTable x y) (hchange : ∀ d, (change d).shared = d.shared) :
    Coupled SameTable x (modifyOwn change >>= fun _ => y) := by
  rintro _ ⟨e, d⟩ rfl
  refine h _ ⟨e, change d⟩ ?_
  show Beside.mk e d.shared = ⟨e, (change d).shared⟩
  rw [hchange]

/-- Looking changes the diary only. -/
theorem looked {α : Type} {x : StateM (Beside ε SharedGroups) α}
    {y : StateM (Beside ε TableDiary) α} (h : Coupled SameTable x y) :
    Coupled SameTable x (lookNow >>= fun _ => y) :=
  unnoticed h fun _ => rfl

/-- A change of the table and the slots is one of what the diary is about. -/
theorem ofModify {change : SharedGroups → SharedGroups} {change' : TableDiary → TableDiary}
    (h : ∀ d, (change' d).shared = change d.shared) :
    Coupled SameTable (modifyOwn change : StateM (Beside ε SharedGroups) Unit)
      (modifyOwn change') := by
  rintro _ ⟨e, d⟩ rfl
  refine ⟨rfl, ?_⟩
  show Beside.mk e (change d.shared) = ⟨e, (change' d).shared⟩
  rw [h]

/-- What reads a slot reads the same. -/
theorem readSlot {α : Type} (group : Nat) {x : Option Nat → StateM (Beside ε SharedGroups) α}
    {y : Option Nat → StateM (Beside ε TableDiary) α}
    (h : ∀ slot, Coupled SameTable (x slot) (y slot)) :
    Coupled SameTable (do x ((← get).own.slots group))
      (do y ((← get).own.shared.slots group)) := by
  rintro _ ⟨e, d⟩ rfl
  exact h (d.shared.slots group) _ ⟨e, d⟩ rfl

end SameTable

section Unnoticed

variable (s : Surroundings ε) (f : HostAggregate)
  {nested : ε → StateM (Beside ε SharedGroups) Unit}
  {nested' : ε → StateM (Beside ε TableDiary) Unit}

theorem reach_sameTable (hnested : ∀ e, Coupled SameTable (nested e) (nested' e)) {α : Type}
    (request : Ambient ε → StateM ε α) :
    Coupled SameTable (s.reach nested request)
      (s.reach (Surroundings.looking nested') request) := by
  refine (SameTable.sameEnv.outside (request s.before)).bind fun _ => ?_
  have hlooking : ∀ e, Coupled SameTable (do nested e; outside (request s.after))
      (do Surroundings.looking nested' e; outside (request s.after)) := fun e =>
    SameTable.looked ((hnested e).bind fun _ =>
      SameTable.looked (SameTable.sameEnv.outside (request s.after)))
  exact SameTable.sameEnv.next hlooking

theorem watching_sameTable (hnested : ∀ e, Coupled SameTable (nested e) (nested' e)) :
    (s.sharing f nested).Coupled SameTable (s.watching f nested') where
  log r := SameTable.looked (SameTable.sameEnv.outside (s.after.log r))
  emit event := SameTable.looked (SameTable.sameEnv.outside (s.after.emit event))
  interrupt _ := reach_sameTable s hnested _
  execute _ _ := reach_sameTable s hnested _
  query _ _ := reach_sameTable s hnested _
  declare _ _ _ := reach_sameTable s hnested _
  register _ _ _ _ := reach_sameTable s hnested _

theorem record_sameTable (record : Nat) :
    Coupled SameTable ((s.sharing f nested).record? record)
      ((s.watching f nested').record? record) := by
  by_cases hown : record = s.number
  · simp only [Surroundings.sharing, Surroundings.watching, if_pos hown]
    rintro _ ⟨e, d⟩ rfl
    exact ⟨rfl, rfl⟩
  · simp only [Surroundings.sharing, Surroundings.watching, if_neg hown]
    exact SameTable.sameEnv.outside _

theorem setGroups_sameTable (record : Nat) (groups : GroupTable) :
    Coupled SameTable ((s.sharing f nested).setGroups record groups)
      ((s.watching f nested').setGroups record groups) := by
  by_cases hown : record = s.number
  · simp only [Surroundings.sharing, Surroundings.watching, if_pos hown]
    exact SameTable.ofModify fun _ => rfl
  · simp only [Surroundings.sharing, Surroundings.watching, if_neg hown]
    exact SameTable.sameEnv.outside _

/-- A step is not changed by the diary. -/
theorem step_sameTable (group : Nat) (args : List Datum)
    (hnested : ∀ e, Coupled SameTable (nested e) (nested' e)) :
    Coupled SameTable ((s.shared f).step group args nested)
      ((s.watched f).step group args nested') := by
  have hcall : ∀ slot, Coupled SameTable
      (do
        let reply ← callFunction (s.sharing f nested) s.number slot args
        modifyOwn (·.setSlot group reply.slot)
        return reply.result)
      (do
        let reply ← callFunction (s.watching f nested') s.number slot args
        modifyOwn (·.done group reply.slot)
        lookNow
        return reply.result) := by
    intro slot
    refine (callFunction_coupled (watching_sameTable s f hnested) (record_sameTable s f)
      (setGroups_sameTable s f) s.number slot args).bind fun reply => ?_
    exact (SameTable.ofModify fun _ => rfl).bind fun _ => SameTable.looked (.pure _)
  exact SameTable.looked (SameTable.unnoticed (SameTable.readSlot group hcall) fun _ => rfl)

/-- The end of a group is not changed by the diary. -/
theorem finish_sameTable (group : Nat)
    (hnested : ∀ e, Coupled SameTable (nested e) (nested' e)) :
    Coupled SameTable ((s.shared f).finish group nested)
      ((s.watched f).finish group nested') := by
  have hcall : ∀ slot, Coupled SameTable
      (do
        let reply ← finishGroup (s.sharing f nested) s.number slot
        modifyOwn (·.setSlot group none)
        return reply.result)
      (do
        let reply ← finishGroup (s.watching f nested') s.number slot
        modifyOwn (·.done group none)
        lookNow
        return reply.result) := by
    intro slot
    refine (finishGroup_coupled (watching_sameTable s f hnested) (record_sameTable s f)
      (setGroups_sameTable s f) s.number slot).bind fun reply => ?_
    exact (SameTable.ofModify fun _ => rfl).bind fun _ => SameTable.looked (.pure _)
  exact SameTable.looked (SameTable.unnoticed (SameTable.readSlot group hcall) fun _ => rfl)

end Unnoticed

/-- No activity is changed by the diary. -/
theorem Activity.watched_run (s : Surroundings ε) (f : HostAggregate) {running : List Nat}
    (activity : Activity ε running) :
    Coupled SameTable (activity.run s (s.shared f)) (activity.run s (s.watched f)) := by
  refine activity.run_coupled s (P := Unit) (R := fun _ _ => SameTable)
    (fun _ _ => SameTable.sameEnv) ?_ ?_ ()
  · intro running group nested nested' args free hnested p
    exact step_sameTable s f group args (hnested p)
  · intro running group nested nested' free hnested p
    exact finish_sameTable s f group (hnested p)

end HostSql
