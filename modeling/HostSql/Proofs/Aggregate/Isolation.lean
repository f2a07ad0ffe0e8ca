import HostSql.Proofs.AssocLaws
import HostSql.Proofs.Aggregate.Activity

/-!
# Groups of an aggregate are isolated

All groups of an aggregate share one table, and a group is out of the table while its closure runs.
Here that is compared with a service in which groups share nothing: `Surroundings.apart` keeps for
each group only the states that its own steps have left, and runs a closure on their number and on
the last of them.

> `Activity.run_isolated`: whatever an engine does with an aggregate, everything around the
> aggregate becomes what it becomes when groups are kept apart.

The proof is a simulation. `Agree` relates the table and the slots to the histories; for the groups
whose closures are running, which are out of the table, it says which id each of them holds and
that its history stands still. One callback preserves `Agree` if the activities nested in it do
(`step_coupled`, `finish_coupled`), and an induction on activities gives the rest.
-/

namespace HostSql

open Engine (Datum)
open Beside

variable {ε : Type}

/-! ## Groups kept apart -/

/-- The states that the steps of each group have left, the newest first. -/
abbrev Histories := (group : Nat) → List GroupState

/-- Before any callback. -/
def Histories.start : Histories := fun _ => []

/-- The group that a closure sees after so many steps of it. -/
def groupAfter (left : List GroupState) : Group := ⟨left.length, left.headD []⟩

/-- The state in which a call leaves its group. -/
def Frame.stateLeft (f : Frame) : GroupState := (f.group.map (·.state)).getD []

/-- Runs the closure of a step on a group. -/
def HostAggregate.runStep {σ : Type} (f : HostAggregate) (a : Ambient σ) (type : ResultType)
    (args : List Datum) (group : Group) : StateM σ Frame :=
  protect a (f.record type .empty) ⟨type, args.map Datum.storageClass⟩ functionFailed
    (f.step (args.map Datum.readText?)) (some group)

/-- Runs the closure of the end on a group. -/
def HostAggregate.runFinal {σ : Type} (f : HostAggregate) (a : Ambient σ) (type : ResultType)
    (group : Group) : StateM σ Frame :=
  protect a (f.record type .empty) ⟨type, []⟩ finalizeFailed f.final (some group)

/-- Callbacks of an aggregate whose groups share nothing. -/
def Surroundings.apart (s : Surroundings ε) (f : HostAggregate) : Service ε Histories where
  step group args nested := do
    let w ← get
    let left := w.own group
    let frame ← f.runStep (s.ambient nested) (s.resultType w.env) args
      ⟨left.length + 1, left.headD []⟩
    modifyOwn (Function.update · group (frame.stateLeft :: left))
    return frame.pending.result
  finish group nested := do
    let w ← get
    let left := w.own group
    let frame ← f.runFinal (s.ambient nested) (s.resultType w.env) ⟨left.length, left.headD []⟩
    modifyOwn (Function.update · group [])
    return frame.pending.result

/-! ## The row count of a running closure -/

/-- A closure can change the state of its group but not its row count. -/
theorem Program.run_rows {σ : Type} (a : Ambient σ) (call : Call) (rows : Nat) :
    ∀ (p : Program) (pending : Pending) (state : GroupState) (w : σ),
      ∃ state', (((p.run a call ⟨pending, some ⟨rows, state⟩⟩).run w).1.2).group =
        some ⟨rows, state'⟩
  | .finish _, _, state, _ => ⟨state, rfl⟩
  | .setResult v next, pending, state, w => by
    simp only [Program.run]
    exact run_rows a call rows (next _) _ state w
  | .setError message next, pending, state, w => by
    simp only [Program.run]
    exact run_rows a call rows next _ state w
  | .readState next, pending, state, w => by
    simp only [Program.run]
    exact run_rows a call rows (next _) pending state w
  | .insert key v next, pending, state, w => by
    simp only [Program.run]
    exact run_rows a call rows (next _) pending (state.set key v) w
  | .readCount next, pending, state, w => by
    simp only [Program.run]
    exact run_rows a call rows (next _) pending state w
  | .readType next, pending, state, w => by
    simp only [Program.run]
    exact run_rows a call rows (next _) pending state w
  | .emit event next, pending, state, w => by
    simp only [Program.run, run_bind]
    exact run_rows a call rows next pending state _
  | .interrupt handle next, pending, state, w => by
    simp only [Program.run, run_bind]
    exact run_rows a call rows next pending state _
  | .execute c sql next, pending, state, w => by
    simp only [Program.run, run_bind]
    exact run_rows a call rows (next _) pending state _
  | .query c sql next, pending, state, w => by
    simp only [Program.run, run_bind]
    exact run_rows a call rows (next _) pending state _
  | .declare c name type next, pending, state, w => by
    simp only [Program.run, run_bind]
    exact run_rows a call rows (next _) pending state _
  | .register c name arity callbacks next, pending, state, w => by
    simp only [Program.run, run_bind]
    exact run_rows a call rows (next _) pending state _

/-- Containing a failure does not touch the group. -/
theorem protect_group {σ : Type} (a : Ambient σ) (r : FunctionRecord) (call : Call)
    (diagnostic : String) (closure : Program) (group : Option Group) (w : σ) :
    ((protect a r call diagnostic closure group).run w).1.group =
      ((closure.run a call (.start group)).run w).1.2.group := by
  unfold protect
  rw [run_bind]
  obtain ⟨outcome, frame⟩ := ((closure.run a call (.start group)).run w).1
  cases outcome <;> rfl

/-- However a call ends, its group has the row count it was given. -/
theorem protect_rows {σ : Type} (a : Ambient σ) (r : FunctionRecord) (call : Call)
    (diagnostic : String) (closure : Program) (rows : Nat) (state : GroupState) (w : σ) :
    ∃ state', ((protect a r call diagnostic closure (some ⟨rows, state⟩)).run w).1.group =
      some ⟨rows, state'⟩ := by
  rw [protect_group]
  exact closure.run_rows a call rows .start state w

namespace HostAggregate

theorem runStep_coupled {σ τ : Type} {R : σ → τ → Prop} {a : Ambient σ} {b : Ambient τ}
    (h : a.Coupled R b) (f : HostAggregate) (type : ResultType) (args : List Datum)
    (group : Group) : Coupled R (f.runStep a type args group) (f.runStep b type args group) :=
  protect_coupled h _ _ _ _ _

theorem runFinal_coupled {σ τ : Type} {R : σ → τ → Prop} {a : Ambient σ} {b : Ambient τ}
    (h : a.Coupled R b) (f : HostAggregate) (type : ResultType) (group : Group) :
    Coupled R (f.runFinal a type group) (f.runFinal b type group) :=
  protect_coupled h _ _ _ _ _

theorem runStep_rows {σ : Type} (f : HostAggregate) (a : Ambient σ) (type : ResultType)
    (args : List Datum) (group : Group) (w : σ) :
    ∃ state, ((f.runStep a type args group).run w).1.group = some ⟨group.rows, state⟩ :=
  protect_rows a _ _ _ _ group.rows group.state w

end HostAggregate

/-! ## A group out of its table -/

/-- A group leaves the table for a step. It is begun if it has no id. -/
def GroupTable.leave (t : GroupTable) : (slot : Option Nat) → Nat × Group × GroupTable
  | some id => (id, t.take id)
  | none => (t.allocate.1, t.allocate.2.take t.allocate.1)

/-- A group that leaves the table leaves the others there, and its id has been issued. -/
theorem GroupTable.leave_table (t : GroupTable) (slot : Option Nat)
    (h : ∀ id, slot = some id → id ≤ t.lastId) :
    (∀ j, j ≠ (t.leave slot).1 → (t.leave slot).2.2.groups.get? j = t.groups.get? j) ∧
      t.lastId ≤ (t.leave slot).2.2.lastId ∧ (t.leave slot).1 ≤ (t.leave slot).2.2.lastId := by
  cases slot with
  | some id => exact ⟨fun j hj => Assoc.get?_erase_ne _ hj.symm, Nat.le_refl _, h id rfl⟩
  | none =>
    refine ⟨fun j hj => ?_, Nat.le_succ _, Nat.le_refl _⟩
    have hj : t.lastId + 1 ≠ j := hj.symm
    show Assoc.get? (Assoc.erase (Assoc.set t.groups (t.lastId + 1) .empty) (t.lastId + 1)) j = _
    rw [Assoc.get?_erase_ne _ hj, Assoc.get?_set_ne _ hj]

/-- The table and the slots after a group has come back from a step. -/
def SharedGroups.comeBack (w : SharedGroups) (group id : Nat) (g : Group) : SharedGroups :=
  { w with groups := w.groups.putBack id g }.setSlot group (some id)

/-- The id of a group: that in its slot, or the one it holds while its closure runs. -/
def idOf (slots : Nat → Option Nat) (running : List Nat) (held : Nat → Option Nat)
    (group : Nat) : Option Nat :=
  if group ∈ running then held group else slots group

/-- The table and the slots tell the same as the histories of the groups. -/
structure Agree (running : List Nat) (held : Nat → Option Nat) (left : Histories)
    (s : Beside ε SharedGroups) (t : Beside ε Histories) : Prop where
  env : s.env = t.env
  unused : s.own.groups.groups.get? unusedSlot = none
  fresh : ∀ g ∉ running, s.own.slots g = none → t.own g = []
  stored : ∀ g ∉ running, ∀ id, s.own.slots g = some id →
    s.own.groups.groups.get? id = some (groupAfter (t.own g))
  still : ∀ g ∈ running, t.own g = left g
  issued : ∀ g id, idOf s.own.slots running held g = some id →
    unusedSlot < id ∧ id ≤ s.own.groups.lastId
  distinct : ∀ g g' id, idOf s.own.slots running held g = some id →
    idOf s.own.slots running held g' = some id → g = g'

variable {running : List Nat} {held : Nat → Option Nat} {left : Histories} {group : Nat}

/-- A closure that begins to run holds an id; the other groups have theirs. -/
theorem idOf_cons (slots : Nat → Option Nat) (id? : Option Nat) (g : Nat) :
    idOf slots (group :: running) (Function.update held group id?) g =
      if g = group then id? else idOf slots running held g := by
  unfold idOf
  by_cases hg : g = group
  · rw [hg, if_pos List.mem_cons_self, if_pos rfl, Function.update_self]
  · rw [if_neg hg, Function.update_of_ne hg]
    simp only [List.mem_cons, hg, false_or]

/-- A slot that is written has its new id; the other groups have theirs. -/
theorem idOf_update (slots : Nat → Option Nat) (id? : Option Nat) (free : group ∉ running)
    (g : Nat) :
    idOf (Function.update slots group id?) running held g =
      if g = group then id? else idOf slots running held g := by
  unfold idOf
  by_cases hg : g = group
  · rw [hg, if_neg free, if_pos rfl, Function.update_self]
  · rw [if_neg hg, Function.update_of_ne hg]

/-- A closure that has run gives the id it held back to the slot. -/
theorem idOf_update_eq (slots : Nat → Option Nat) (id? : Option Nat) (free : group ∉ running)
    (g : Nat) :
    idOf (Function.update slots group id?) running held g =
      idOf slots (group :: running) (Function.update held group id?) g := by
  rw [idOf_update slots id? free, idOf_cons]

/-- A group whose closure is not running has the id in its slot. -/
theorem idOf_resting (slots : Nat → Option Nat) (held : Nat → Option Nat)
    (free : group ∉ running) : idOf slots running held group = slots group :=
  if_neg free

namespace Agree

variable {s : Beside ε SharedGroups} {t : Beside ε Histories}

/-- Before any callback there is nothing to tell. -/
theorem start (e : ε) (held : Nat → Option Nat) (left : Histories) :
    Agree [] held left ⟨e, .start⟩ ⟨e, .start⟩ where
  env := rfl
  unused := rfl
  fresh _ _ _ := rfl
  stored _ _ _ h := nomatch h
  still _ h := nomatch h
  issued _ _ h := nomatch h
  distinct _ _ _ h := nomatch h

/-- What happens around the aggregate is the same. -/
theorem sameEnv : SameEnv (@Agree ε running held left) where
  env h := h.env
  become _ h := { h with env := rfl }

/-- A group that leaves for a step is what its history says. -/
theorem leave_group (h : Agree running held left s t) (free : group ∉ running) :
    (s.own.groups.leave (s.own.slots group)).2.1 = groupAfter (t.own group) := by
  cases hslot : s.own.slots group with
  | some id =>
    show (s.own.groups.groups.get? id).getD .empty = _
    rw [h.stored group free id hslot]
    rfl
  | none =>
    rw [h.fresh group free hslot]
    show ((s.own.groups.groups.set (s.own.groups.lastId + 1) .empty).get? _).getD .empty = _
    rw [GroupTable.allocate, Assoc.get?_set_self]
    rfl

/-- The id that a group leaves with is its own. -/
theorem leave_id (h : Agree running held left s t) (free : group ∉ running) :
    unusedSlot < (s.own.groups.leave (s.own.slots group)).1 ∧
      ∀ g id, idOf s.own.slots running held g = some id →
        id = (s.own.groups.leave (s.own.slots group)).1 → g = group := by
  cases hslot : s.own.slots group with
  | some id =>
    have hid : idOf s.own.slots running held group = some id := by
      rw [idOf_resting _ _ free, hslot]
    refine ⟨(h.issued group id hid).1, fun g j hj heq => h.distinct g group id ?_ hid⟩
    rw [hj, heq]
    rfl
  | none =>
    -- the id that is issued now is above all those in use
    refine ⟨Nat.succ_pos _, fun g j hj heq => ?_⟩
    have hle := (h.issued g j hj).2
    have heq : j = s.own.groups.lastId + 1 := heq
    omega

/-- When a closure begins to run, the history of its group stands still as well. -/
theorem still_out (h : Agree running held left s t) (group : Nat) :
    ∀ g ∈ group :: running, t.own g = Function.update left group (t.own group) g := by
  intro g hg
  by_cases hgg : g = group
  · rw [hgg, Function.update_self]
  · rw [Function.update_of_ne hgg]
    exact h.still g ((List.mem_cons.mp hg).resolve_left hgg)

/-- When a closure has run, the histories of the other running groups still stand. -/
theorem still_back {held' : Nat → Option Nat} {old : List GroupState}
    (h : Agree (group :: running) held' (Function.update left group old) s t)
    (free : group ∉ running) (new : List GroupState) :
    ∀ g ∈ running, Function.update t.own group new g = left g := by
  intro g hg
  have hgg : g ≠ group := fun heq => free (heq ▸ hg)
  have hstill := h.still g (List.mem_cons_of_mem _ hg)
  rw [Function.update_of_ne hgg] at hstill ⊢
  exact hstill

/-- After a group has left for a step its closure is running, and the rest is as it was. -/
theorem leave (h : Agree running held left s t) (free : group ∉ running) :
    Agree (group :: running)
      (Function.update held group (some (s.own.groups.leave (s.own.slots group)).1))
      (Function.update left group (t.own group))
      { s with own := { s.own with groups := (s.own.groups.leave (s.own.slots group)).2.2 } }
      t := by
  obtain ⟨hpos, hown⟩ := h.leave_id free
  obtain ⟨hkept, hgrown, hbound⟩ := s.own.groups.leave_table (s.own.slots group) fun id hid =>
    (h.issued group id (by rw [idOf_resting _ _ free, hid])).2
  generalize s.own.groups.leave (s.own.slots group) = out at hpos hown hkept hgrown hbound
  obtain ⟨id, g, table⟩ := out
  refine {
    env := h.env
    unused := ?unused
    fresh := ?fresh
    stored := ?stored
    still := ?still
    issued := ?issued
    distinct := ?distinct }
  case unused =>
    exact (hkept _ (Nat.ne_of_lt hpos)).trans h.unused
  case fresh =>
    intro g hg hslot
    exact h.fresh g (List.not_mem_of_not_mem_cons hg) hslot
  case stored =>
    intro g hg j hslot
    have hr : g ∉ running := List.not_mem_of_not_mem_cons hg
    -- the id that has left is not that of another group
    have hj : j ≠ id := by
      intro heq
      have := hown g j (by rw [idOf_resting _ _ hr]; exact hslot) heq
      exact hg (this ▸ List.mem_cons_self)
    exact (hkept j hj).trans (h.stored g hr j hslot)
  case still =>
    exact h.still_out group
  case issued =>
    intro g j hj
    rw [idOf_cons] at hj
    split at hj
    · cases hj
      exact ⟨hpos, hbound⟩
    · exact ⟨(h.issued g j hj).1, Nat.le_trans (h.issued g j hj).2 hgrown⟩
  case distinct =>
    intro g g' j hj hj'
    rw [idOf_cons] at hj hj'
    split at hj <;> split at hj'
    next hg hg' => rw [hg, hg']
    next hg hg' =>
      cases hj
      exact absurd (hown g' id hj' rfl) hg'
    next hg hg' =>
      cases hj'
      exact absurd (hown g id hj rfl) hg
    next => exact h.distinct g g' j hj hj'

/-- A group that comes back from a step has one more state in its history. -/
theorem comeBack {id : Nat} {old : List GroupState}
    (h : Agree (group :: running) (Function.update held group (some id))
      (Function.update left group old) s t)
    (free : group ∉ running) (state : GroupState) :
    Agree running held left
      { s with own := s.own.comeBack group id ⟨old.length + 1, state⟩ }
      { t with own := Function.update t.own group (state :: old) } := by
  have hid : idOf s.own.slots (group :: running) (Function.update held group (some id)) group =
      some id := by
    rw [idOf_cons, if_pos rfl]
  obtain ⟨hpos, hbound⟩ := h.issued group id hid
  refine {
    env := h.env
    unused := ?unused
    fresh := ?fresh
    stored := ?stored
    still := ?still
    issued := ?issued
    distinct := ?distinct }
  case unused =>
    exact (Assoc.get?_set_ne _ (Nat.ne_of_gt hpos) _).trans h.unused
  case fresh =>
    intro g hg hslot
    by_cases hgg : g = group
    · simp [SharedGroups.comeBack, SharedGroups.setSlot, hgg] at hslot
    · have hslot : s.own.slots g = none := by
        rw [← hslot]
        exact (Function.update_of_ne hgg _ _).symm
      show Function.update t.own group (state :: old) g = []
      rw [Function.update_of_ne hgg]
      exact h.fresh g (by simp [hgg, hg]) hslot
  case stored =>
    intro g hg j hslot
    by_cases hgg : g = group
    · -- the group itself is back with what its closure left
      have hj : some id = some j := by
        rw [← hslot, hgg]
        exact (Function.update_self group (some id) s.own.slots).symm
      cases hj
      show Assoc.get? (Assoc.set _ id _) id = some (groupAfter (Function.update t.own group _ g))
      rw [Assoc.get?_set_self, hgg, Function.update_self]
      rfl
    · have hslot : s.own.slots g = some j := by
        rw [← hslot]
        exact (Function.update_of_ne hgg _ _).symm
      have hfree : g ∉ group :: running := by simp [hgg, hg]
      have hj : id ≠ j := by
        rintro rfl
        exact hgg (h.distinct g group id (by rw [idOf_resting _ _ hfree, hslot]) hid)
      show Assoc.get? (Assoc.set _ id _) j = some (groupAfter (Function.update t.own group _ g))
      rw [Assoc.get?_set_ne _ hj, Function.update_of_ne hgg]
      exact h.stored g hfree j hslot
  case still =>
    exact h.still_back free _
  case issued =>
    intro g j hj
    exact h.issued g j ((idOf_update_eq _ _ free g).symm.trans hj)
  case distinct =>
    intro g g' j hj hj'
    exact h.distinct g g' j ((idOf_update_eq _ _ free g).symm.trans hj)
      ((idOf_update_eq _ _ free g').symm.trans hj')

/-- A group that is taken at its end is what its history says. -/
theorem take_group (h : Agree running held left s t) (free : group ∉ running) :
    (s.own.groups.take ((s.own.slots group).getD unusedSlot)).1 = groupAfter (t.own group) := by
  cases hslot : s.own.slots group with
  | some id =>
    show (s.own.groups.groups.get? id).getD .empty = _
    rw [h.stored group free id hslot]
    rfl
  | none =>
    show (s.own.groups.groups.get? unusedSlot).getD .empty = _
    rw [h.unused, h.fresh group free hslot]
    rfl

/-- After a group has been taken at its end its closure is running and holds no id. -/
theorem take (h : Agree running held left s t) (free : group ∉ running) :
    Agree (group :: running) (Function.update held group none)
      (Function.update left group (t.own group))
      { s with own := { s.own with
        groups := (s.own.groups.take ((s.own.slots group).getD unusedSlot)).2 } }
      t := by
  -- no other group loses its entry, also when the group that ends has none
  have hkept : ∀ g ∉ group :: running, ∀ id, s.own.slots g = some id →
      (s.own.slots group).getD unusedSlot ≠ id := by
    intro g hg id hslot heq
    have hgr : g ∉ running := List.not_mem_of_not_mem_cons hg
    have hid : idOf s.own.slots running held g = some id := by rw [idOf_resting _ _ hgr, hslot]
    cases hown : s.own.slots group with
    | none =>
      rw [hown] at heq
      exact absurd heq (Nat.ne_of_lt (h.issued g id hid).1)
    | some j =>
      rw [hown] at heq
      have hj : idOf s.own.slots running held group = some id := by
        rw [idOf_resting _ _ free, hown, ← heq]
        rfl
      exact hg (h.distinct g group id hid hj ▸ List.mem_cons_self)
  refine {
    env := h.env
    unused := ?unused
    fresh := ?fresh
    stored := ?stored
    still := ?still
    issued := ?issued
    distinct := ?distinct }
  case unused =>
    by_cases hslot : (s.own.slots group).getD unusedSlot = unusedSlot
    · show Assoc.get? (Assoc.erase _ ((s.own.slots group).getD unusedSlot)) unusedSlot = none
      rw [hslot]
      exact Assoc.get?_erase_self _ _
    · exact (Assoc.get?_erase_ne _ hslot).trans h.unused
  case fresh =>
    intro g hg hslot
    exact h.fresh g (List.not_mem_of_not_mem_cons hg) hslot
  case stored =>
    intro g hg id hslot
    exact (Assoc.get?_erase_ne _ (hkept g hg id hslot)).trans
      (h.stored g (List.not_mem_of_not_mem_cons hg) id hslot)
  case still =>
    exact h.still_out group
  case issued =>
    intro g j hj
    rw [idOf_cons] at hj
    split at hj
    · exact nomatch hj
    · exact h.issued g j hj
  case distinct =>
    intro g g' j hj hj'
    rw [idOf_cons] at hj hj'
    split at hj <;> split at hj'
    next => exact nomatch hj
    next => exact nomatch hj
    next => exact nomatch hj'
    next => exact h.distinct g g' j hj hj'

/-- A group that has ended begins anew. -/
theorem ended {old : List GroupState}
    (h : Agree (group :: running) (Function.update held group none)
      (Function.update left group old) s t)
    (free : group ∉ running) :
    Agree running held left { s with own := s.own.setSlot group none }
      { t with own := Function.update t.own group [] } := by
  refine {
    env := h.env
    unused := h.unused
    fresh := ?fresh
    stored := ?stored
    still := ?still
    issued := ?issued
    distinct := ?distinct }
  case fresh =>
    intro g hg hslot
    by_cases hgg : g = group
    · rw [hgg]
      exact Function.update_self _ _ _
    · have hslot : s.own.slots g = none := by
        rw [← hslot]
        exact (Function.update_of_ne hgg _ _).symm
      exact (Function.update_of_ne hgg _ _).trans (h.fresh g (by simp [hgg, hg]) hslot)
  case stored =>
    intro g hg id hslot
    by_cases hgg : g = group
    · simp [SharedGroups.setSlot, hgg] at hslot
    · have hslot : s.own.slots g = some id := by
        rw [← hslot]
        exact (Function.update_of_ne hgg _ _).symm
      show s.own.groups.groups.get? id = some (groupAfter (Function.update t.own group [] g))
      rw [Function.update_of_ne hgg]
      exact h.stored g (by simp [hgg, hg]) id hslot
  case still =>
    exact h.still_back free _
  case issued =>
    intro g j hj
    exact h.issued g j ((idOf_update_eq _ _ free g).symm.trans hj)
  case distinct =>
    intro g g' j hj hj'
    exact h.distinct g g' j ((idOf_update_eq _ _ free g).symm.trans hj)
      ((idOf_update_eq _ _ free g').symm.trans hj')

end Agree

/-! ## One callback -/

/-- The aggregate's own record has the groups of the shared table. -/
theorem sharing_record (s : Surroundings ε) (f : HostAggregate)
    (nested : ε → StateM (Beside ε SharedGroups) Unit) (w : Beside ε SharedGroups) :
    ((s.sharing f nested).record? s.number).run w =
      (some (f.record (s.resultType w.env) w.own.groups), w) := by
  simp only [Surroundings.sharing, if_pos]
  rfl

/-- Changing the groups of the aggregate's own record changes the shared table. -/
theorem sharing_setGroups (s : Surroundings ε) (f : HostAggregate)
    (nested : ε → StateM (Beside ε SharedGroups) Unit) (groups : GroupTable)
    (w : Beside ε SharedGroups) :
    ((s.sharing f nested).setGroups s.number groups).run w =
      ((), { w with own := { w.own with groups } }) := by
  simp only [Surroundings.sharing, if_pos]
  rfl

/-- The groups of the aggregate's own record are those of the shared table. -/
theorem sharing_groupsOf (s : Surroundings ε) (f : HostAggregate)
    (nested : ε → StateM (Beside ε SharedGroups) Unit) (w : Beside ε SharedGroups) :
    (groupsOf (s.sharing f nested) s.number).run w = (w.own.groups, w) := by
  unfold groupsOf
  rw [run_bind, sharing_record]
  rfl

/-- A step on the shared table: the group's way out of it and back. -/
theorem shared_step_run (s : Surroundings ε) (f : HostAggregate) (group : Nat) (args : List Datum)
    (nested : ε → StateM (Beside ε SharedGroups) Unit) (w : Beside ε SharedGroups) :
    ((s.shared f).step group args nested).run w =
      let (id, g, groups) := w.own.groups.leave (w.own.slots group)
      let (frame, w) := (f.runStep (s.sharing f nested) (s.resultType w.env) args g.nextRow).run
        { w with own := { w.own with groups } }
      (frame.pending.result,
        { w with own := w.own.comeBack group id (frame.group.getD g.nextRow) }) := by
  simp only [Surroundings.shared, callFunction, run_bind, run_get, sharing_record]
  cases w.own.slots group with
  | some id =>
    simp only [HostAggregate.record, groupId, takeGroup, putBackGroup, run_bind,
      sharing_groupsOf, sharing_setGroups]
    rfl
  | none =>
    simp only [HostAggregate.record, groupId, takeGroup, putBackGroup, run_bind,
      sharing_groupsOf, sharing_setGroups]
    rfl

/-- The end of a group of the shared table. -/
theorem shared_finish_run (s : Surroundings ε) (f : HostAggregate) (group : Nat)
    (nested : ε → StateM (Beside ε SharedGroups) Unit) (w : Beside ε SharedGroups) :
    ((s.shared f).finish group nested).run w =
      let (g, groups) := w.own.groups.take ((w.own.slots group).getD unusedSlot)
      let (frame, w) := (f.runFinal (s.sharing f nested) (s.resultType w.env) g).run
        { w with own := { w.own with groups } }
      (frame.pending.result, { w with own := w.own.setSlot group none }) := by
  simp only [Surroundings.shared, finishGroup, run_bind, run_get, sharing_record]
  simp only [HostAggregate.record, takeGroup, run_bind, sharing_groupsOf, sharing_setGroups]
  rfl

/-- A step of groups kept apart. -/
theorem apart_step_run (s : Surroundings ε) (f : HostAggregate) (group : Nat) (args : List Datum)
    (nested : ε → StateM (Beside ε Histories) Unit) (w : Beside ε Histories) :
    ((s.apart f).step group args nested).run w =
      let left := w.own group
      let (frame, w) := (f.runStep (s.ambient nested) (s.resultType w.env) args
        (groupAfter left).nextRow).run w
      (frame.pending.result,
        { w with own := Function.update w.own group (frame.stateLeft :: left) }) := rfl

/-- The end of a group kept apart. -/
theorem apart_finish_run (s : Surroundings ε) (f : HostAggregate) (group : Nat)
    (nested : ε → StateM (Beside ε Histories) Unit) (w : Beside ε Histories) :
    ((s.apart f).finish group nested).run w =
      let (frame, w) := (f.runFinal (s.ambient nested) (s.resultType w.env)
        (groupAfter (w.own group))).run w
      (frame.pending.result, { w with own := Function.update w.own group [] }) := rfl

section Callback

variable {running : List Nat} {held : Nat → Option Nat} {left : Histories} {group : Nat}
  {nested : ε → StateM (Beside ε SharedGroups) Unit}
  {nested' : ε → StateM (Beside ε Histories) Unit}

/-- A running closure is told the same of the world around it, with the shared table and without. -/
theorem sharing_coupled (s : Surroundings ε) (f : HostAggregate)
    (hnested : ∀ e, Coupled (Agree running held left) (nested e) (nested' e)) :
    (s.sharing f nested).Coupled (Agree running held left) (s.ambient nested') := by
  have h := Agree.sameEnv.ambient s hnested
  exact ⟨h.log, h.emit, h.interrupt, h.execute, h.query, h.declare, h.register⟩

/-- A step cannot tell the shared table from groups kept apart. -/
theorem step_coupled (s : Surroundings ε) (f : HostAggregate) (free : group ∉ running)
    (args : List Datum)
    (hnested : ∀ held left e,
      Coupled (Agree (group :: running) held left) (nested e) (nested' e)) :
    Coupled (Agree running held left) ((s.shared f).step group args nested)
      ((s.apart f).step group args nested') := by
  intro w w' h
  have hgroup := h.leave_group free
  have hout := h.leave free
  rw [shared_step_run, apart_step_run, ← h.env]
  generalize w.own.groups.leave (w.own.slots group) = out at hgroup hout ⊢
  obtain ⟨id, g, table⟩ := out
  have hg : g = groupAfter (w'.own group) := hgroup
  rw [hg]
  -- the closure behaves in the same way, and leaves its group with the row count it got
  obtain ⟨hframe, hafter⟩ := f.runStep_coupled (sharing_coupled s f (hnested _ _))
    (s.resultType w.env) args (groupAfter (w'.own group)).nextRow _ _ hout
  obtain ⟨state, hstate⟩ := f.runStep_rows (s.ambient nested') (s.resultType w.env) args
    (groupAfter (w'.own group)).nextRow w'
  dsimp only at hframe hafter ⊢
  generalize (f.runStep (s.sharing f nested) _ args _).run _ = called at hframe hafter ⊢
  generalize (f.runStep (s.ambient nested') _ args _).run w' = called' at hframe hafter hstate ⊢
  obtain ⟨frame, after⟩ := called
  obtain ⟨frame', after'⟩ := called'
  cases hframe
  have hstate : frame.group = some ⟨(w'.own group).length + 1, state⟩ := hstate
  refine ⟨rfl, ?_⟩
  simp only [Frame.stateLeft, hstate, Option.getD_some, Option.map_some]
  exact hafter.comeBack free state

/-- The end of a group cannot tell the shared table from groups kept apart. -/
theorem finish_coupled (s : Surroundings ε) (f : HostAggregate) (free : group ∉ running)
    (hnested : ∀ held left e,
      Coupled (Agree (group :: running) held left) (nested e) (nested' e)) :
    Coupled (Agree running held left) ((s.shared f).finish group nested)
      ((s.apart f).finish group nested') := by
  intro w w' h
  have hgroup := h.take_group free
  have hout := h.take free
  rw [shared_finish_run, apart_finish_run, ← h.env]
  generalize w.own.groups.take ((w.own.slots group).getD unusedSlot) = out at hgroup hout ⊢
  obtain ⟨g, table⟩ := out
  have hg : g = groupAfter (w'.own group) := hgroup
  rw [hg]
  obtain ⟨hframe, hafter⟩ := f.runFinal_coupled (sharing_coupled s f (hnested _ _))
    (s.resultType w.env) (groupAfter (w'.own group)) _ _ hout
  exact ⟨congrArg (·.pending.result) hframe, hafter.ended free⟩

end Callback

/-! ## All callbacks -/

/-- No activity can tell the shared table from groups kept apart. -/
theorem Activity.shared_coupled (s : Surroundings ε) (f : HostAggregate) {running : List Nat}
    (activity : Activity ε running) (held : Nat → Option Nat) (left : Histories) :
    Coupled (Agree running held left) (activity.run s (s.shared f))
      (activity.run s (s.apart f)) := by
  -- what the nested activities of a closure may rely on is that its own group stands still
  refine activity.run_coupled s (P := (Nat → Option Nat) × Histories)
    (R := fun running p => Agree running p.1 p.2) (fun _ _ => Agree.sameEnv) ?_ ?_ (held, left)
  · intro running group nested nested' args free hnested p
    exact step_coupled s f free args fun held left e => hnested (held, left) e
  · intro running group nested nested' free hnested p
    exact finish_coupled s f free fun held left e => hnested (held, left) e

end HostSql
