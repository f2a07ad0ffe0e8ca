import HostSql.Proofs.Aggregate.Isolation
import HostSql.Proofs.Aggregate.Watching

/-!
# The table of groups has the groups it should have

> `Activity.run_bookkept`: whatever an engine does with an aggregate, at every moment the table has
> exactly the groups that have been stepped and not been finished and whose closures are not
> running, each under an id of its own that was handed out once. So a step finds its group, the end
> of a group finds it if it ever had a slot, and nothing is left when all groups have ended.

That an engine ends every group that has a slot, also when it gives up a query, is its own affair:
here any callbacks may come in any order, and whichever groups have been ended have left nothing.
Ids are natural numbers, so this is about fewer groups than a machine word can count.

The diary of `Surroundings.watched` is carried through the simulation that isolates groups:
`Keeping` is `Agree` with what has to be known of the diary (`TableMoment.Kept`). What `Agree` says
about slots and ids makes the current moment right (`Keeping.right`), and each way of the table is
followed as it is there: out for a step and back, and out for good.
-/

namespace HostSql

open Engine (Datum)
open Beside

variable {ε : Type} {running : List Nat} {held : Nat → Option Nat} {left : Histories} {group : Nat}

/-! ## What is kept -/

/-- What is known of the diary while the closures of some groups are running and hold these ids. -/
structure TableMoment.Kept (running : List Nat) (held : Nat → Option Nat) (m : TableMoment) :
    Prop where
  runs : m.running = running
  /-- No group is in the table that has no slot. -/
  keys : ∀ id, (m.shared.groups.groups.get? id).isSome = true →
    ∃ g ∉ running, m.shared.slots g = some id
  progress : ∀ g, inProgress g m.past = (idOf m.shared.slots running held g).isSome
  issued : m.issued.Nodup
  bounds : ∀ id, id ∈ m.issued ↔ 1 ≤ id ∧ id ≤ m.shared.groups.lastId

/-- The table with its slots and its diary, and the histories of groups that share nothing. -/
structure Keeping (running : List Nat) (held : Nat → Option Nat) (left : Histories)
    (d : Beside ε TableDiary) (t : Beside ε Histories) : Prop where
  agree : Agree running held left ⟨d.env, d.own.shared⟩ t
  kept : d.own.Kept running held
  moments : ∀ m ∈ d.own.moments, m.Right

/-- Before any callback. -/
theorem TableMoment.Kept.start (held : Nat → Option Nat) : TableDiary.start.Kept [] held where
  runs := rfl
  keys _ h := nomatch h
  progress _ := rfl
  issued := List.nodup_nil
  bounds id := by
    refine ⟨nofun, fun ⟨hpos, hle⟩ => ?_⟩
    have hle : id ≤ 0 := hle
    omega

/-! ## A moment that is right -/

section Moment

variable {m : TableMoment} {e : ε} {t : Beside ε Histories}

theorem TableMoment.Kept.slot_isSome (k : m.Kept running held) {g : Nat} (hg : g ∉ running) :
    (m.shared.slots g).isSome = inProgress g m.past := by
  rw [k.progress g, idOf_resting _ _ hg]

/-- A group with a slot is in the table. -/
theorem Agree.slot_found (h : Agree running held left ⟨e, m.shared⟩ t) {g id : Nat}
    (hg : g ∉ running) (hslot : m.shared.slots g = some id) :
    (m.shared.groups.groups.get? id).isSome = true := by
  have hget : m.shared.groups.groups.get? id = some _ := h.stored g hg id hslot
  rw [hget]
  rfl

/-- The ids in the table are those of the groups that are in progress and rest. -/
theorem TableMoment.Kept.mem_keys (k : m.Kept running held)
    (h : Agree running held left ⟨e, m.shared⟩ t) (id : Nat) : id ∈ m.keys ↔
      ∃ g ∉ m.running, inProgress g m.past = true ∧ m.shared.slots g = some id := by
  unfold TableMoment.keys
  rw [Assoc.mem_keys_iff, k.runs]
  constructor
  · intro hsome
    obtain ⟨g, hg, hslot⟩ := k.keys id hsome
    refine ⟨g, hg, ?_, hslot⟩
    rw [← k.slot_isSome hg, hslot]
    rfl
  · rintro ⟨g, hg, -, hslot⟩
    exact h.slot_found hg hslot

/-- A step finds its group, also one that is only begun by it. -/
theorem Agree.step_found (h : Agree running held left ⟨e, m.shared⟩ t) {g : Nat}
    (hg : g ∉ running) : ((m.sought g).2.groups.get? (m.sought g).1).isSome = true := by
  unfold TableMoment.sought
  cases hslot : m.shared.slots g with
  | some id => exact h.slot_found hg hslot
  | none =>
    show ((m.shared.groups.groups.set (m.shared.groups.lastId + 1) .empty).get?
      (m.shared.groups.lastId + 1)).isSome = true
    rw [Assoc.get?_set_self]
    rfl

/-- The end of a group finds it if it has a slot. Without one nothing is there. -/
theorem Agree.finish_found (h : Agree running held left ⟨e, m.shared⟩ t) {g : Nat}
    (hg : g ∉ running) : (m.shared.groups.groups.get? ((m.shared.slots g).getD unusedSlot)).isSome =
      (m.shared.slots g).isSome := by
  cases hslot : m.shared.slots g with
  | some id => exact h.slot_found hg hslot
  | none =>
    have hunused : m.shared.groups.groups.get? unusedSlot = none := h.unused
    show (m.shared.groups.groups.get? unusedSlot).isSome = false
    rw [hunused]
    rfl

/-- A moment is right if slots and ids are as they should be. -/
theorem TableMoment.Kept.right (k : m.Kept running held)
    (h : Agree running held left ⟨e, m.shared⟩ t) : m.Right := by
  have hresting {g : Nat} (hg : g ∉ m.running) : g ∉ running := k.runs ▸ hg
  have hid {g id : Nat} (hg : g ∉ m.running) (hslot : m.shared.slots g = some id) :
      idOf m.shared.slots running held g = some id :=
    (idOf_resting _ _ (hresting hg)).trans hslot
  refine {
    bounds := ?bounds
    keys := k.mem_keys h
    slots := fun g hg => k.slot_isSome (hresting hg)
    apart := fun g hg g' hg' id hslot hslot' => h.distinct g g' id (hid hg hslot) (hid hg' hslot')
    issued := k.issued
    issuedBounds := k.bounds
    step := fun g hg => h.step_found (hresting hg)
    finish := fun g hg => h.finish_found (hresting hg)
    empty := ?empty }
  case bounds =>
    intro id hmem
    obtain ⟨g, hg, -, hslot⟩ := (k.mem_keys h id).mp hmem
    exact h.issued g id (hid hg hslot)
  case empty =>
    intro hended
    refine List.eq_nil_iff_forall_not_mem.mpr fun p hp => ?_
    obtain ⟨g, hg, hprogress, -⟩ := (k.mem_keys h p.1).mp (List.mem_map_of_mem hp)
    rw [hended g hg] at hprogress
    exact nomatch hprogress

end Moment

namespace Keeping

variable {d : Beside ε TableDiary} {t : Beside ε Histories}

theorem right (h : Keeping running held left d t) : d.own.Right := h.kept.right h.agree

/-- What happens around the aggregate is the same. -/
theorem sameEnv : SameEnv (@Keeping ε running held left) where
  env h := h.agree.env
  become e h := { h with agree := Agree.sameEnv.become e h.agree }

/-- Before any callback there is nothing to keep. -/
theorem start (e : ε) (held : Nat → Option Nat) (left : Histories) :
    Keeping [] held left ⟨e, .start⟩ ⟨e, .start⟩ :=
  ⟨.start e held left, .start held, nofun⟩

theorem look (h : Keeping running held left d t) :
    Keeping running held left { d with own := d.own.look } t :=
  ⟨h.agree, h.kept, List.forall_mem_cons.mpr ⟨h.right, h.moments⟩⟩

/-- Looking first does not keep two computations from being coupled. -/
theorem looked {α : Type} {x : StateM (Beside ε TableDiary) α}
    {y : StateM (Beside ε Histories) α} (h : Coupled (Keeping running held left) x y) :
    Coupled (Keeping running held left) (lookNow >>= fun _ => x) y :=
  fun _ t hd => h _ t hd.look

theorem looked_after {x : StateM (Beside ε TableDiary) Unit} {y : StateM (Beside ε Histories) Unit}
    (h : Coupled (Keeping running held left) x y) :
    Coupled (Keeping running held left) (x >>= fun _ => lookNow) y := by
  intro d t hd
  obtain ⟨-, hnext⟩ := h d t hd
  exact ⟨rfl, hnext.look⟩

end Keeping

/-! ## Out of the table and back -/

/-- A change of the table in which no group is begun hands out no id. -/
theorem TableDiary.setGroups_issued (d : TableDiary) {groups : GroupTable}
    (h : groups.lastId = d.shared.groups.lastId) : (d.setGroups groups).issued = d.issued := by
  refine if_neg fun heq => ?_
  have hlast : groups.lastId = d.shared.groups.lastId + 1 := congrArg GroupTable.lastId heq
  omega

/-- A group leaves the table for a step. It is begun if it has no id. -/
def TableDiary.leave (d : TableDiary) (group : Nat) : TableDiary :=
  match d.shared.slots group with
  | some id => d.setGroups (d.shared.groups.take id).2
  | none => (d.setGroups d.shared.groups.allocate.2).setGroups
      (d.shared.groups.allocate.2.take d.shared.groups.allocate.1).2

/-- A group comes back from a step, and its callback ends. -/
def TableDiary.comeBack (d : TableDiary) (group id : Nat) (g : Group) : TableDiary :=
  (d.setGroups (d.shared.groups.putBack id g)).done group (some id)

namespace TableMoment.Kept

variable {d : TableDiary}

/-- A group whose closure begins to run is in progress if it holds an id. -/
theorem progress_begin (k : d.Kept running held) (c : GroupCallback) (id? : Option Nat)
    (hc : inProgress c.group (c :: d.past) = id?.isSome) :
    ∀ g, inProgress g (c :: d.past) =
      (idOf d.shared.slots (c.group :: running) (Function.update held c.group id?) g).isSome := by
  intro g
  rw [idOf_cons]
  by_cases hg : g = c.group
  · rw [if_pos hg, hg]
    exact hc
  · rw [if_neg hg, ← k.progress g]
    cases c with
    | step h =>
      have hne : (h == g) = false := beq_eq_false_iff_ne.mpr (Ne.symm hg)
      show (h == g || inProgress g d.past) = _
      rw [hne, Bool.false_or]
    | finish h =>
      have hne : (h != g) = true := bne_iff_ne.mpr (Ne.symm hg)
      show (h != g && inProgress g d.past) = _
      rw [hne, Bool.true_and]

/-- The groups that are left when one has gone out of the table. -/
theorem keys_without (k : d.Kept running held) {id : Nat} {groups : Assoc Nat Group}
    (hgone : groups.get? id = none) (hrest : ∀ j, id ≠ j → groups.get? j =
      d.shared.groups.groups.get? j)
    (hid : ∀ j, d.shared.slots group = some j → j = id) :
    ∀ j, (groups.get? j).isSome = true → ∃ g ∉ group :: running, d.shared.slots g = some j := by
  intro j hj
  have hne : id ≠ j := by
    rintro rfl
    rw [hgone] at hj
    exact nomatch hj
  rw [hrest j hne] at hj
  obtain ⟨g, hg, hslot⟩ := k.keys j hj
  have hgroup : g ≠ group := by
    rintro rfl
    exact hne (hid j hslot).symm
  exact ⟨g, fun hmem => (List.mem_cons.mp hmem).elim hgroup hg, hslot⟩

theorem step_begun (group : Nat) (past : List GroupCallback) :
    inProgress group (.step group :: past) = true := by
  show (group == group || inProgress group past) = true
  rw [beq_self_eq_true, Bool.true_or]

theorem finish_begun (group : Nat) (past : List GroupCallback) :
    inProgress group (.finish group :: past) = false := by
  show (group != group && inProgress group past) = false
  rw [bne_self_eq_false, Bool.false_and]

/-- A callback begins for which a group has been taken. -/
theorem out (k : d.Kept running held) (c : GroupCallback) (id? : Option Nat) {id : Nat}
    (hc : inProgress c.group (c :: d.past) = id?.isSome)
    (hid : ∀ j, d.shared.slots c.group = some j → j = id) :
    ((d.begin c).setGroups (d.shared.groups.take id).2).Kept (c.group :: running)
      (Function.update held c.group id?) := by
  have hissued : ((d.begin c).setGroups (d.shared.groups.take id).2).issued = d.issued :=
    TableDiary.setGroups_issued _ rfl
  refine ⟨congrArg (c.group :: ·) k.runs, ?_, k.progress_begin c id? hc, hissued ▸ k.issued,
    hissued ▸ k.bounds⟩
  exact k.keys_without (Assoc.get?_erase_self _ _) (fun j hj => Assoc.get?_erase_ne _ hj) hid

/-- A callback begins for which a group has been begun and taken. Its id is above all that have been
handed out. -/
theorem out_first (k : d.Kept running held) (hslot : d.shared.slots group = none) :
    let fresh := d.shared.groups.allocate
    (((d.begin (.step group)).setGroups fresh.2).setGroups (fresh.2.take fresh.1).2).Kept
      (group :: running) (Function.update held group (some fresh.1)) := by
  intro fresh
  have hissued : (((d.begin (.step group)).setGroups fresh.2).setGroups
      (fresh.2.take fresh.1).2).issued = fresh.1 :: d.issued := by
    have htaken : (((d.begin (.step group)).setGroups fresh.2).setGroups
        (fresh.2.take fresh.1).2).issued = ((d.begin (.step group)).setGroups fresh.2).issued :=
      TableDiary.setGroups_issued _ rfl
    exact htaken.trans (if_pos rfl)
  refine ⟨congrArg (group :: ·) k.runs, ?keys,
    k.progress_begin (.step group) (some fresh.1) (step_begun group d.past), ?issued, ?bounds⟩
  case keys =>
    refine k.keys_without (Assoc.get?_erase_self _ _) (fun j hj => ?_)
      fun j hj => nomatch hslot.symm.trans hj
    exact (Assoc.get?_erase_ne _ hj).trans (Assoc.get?_set_ne _ hj _)
  case issued =>
    rw [hissued]
    refine List.nodup_cons.mpr ⟨fun hmem => ?_, k.issued⟩
    have hle := ((k.bounds fresh.1).mp hmem).2
    exact absurd hle (Nat.not_succ_le_self _)
  case bounds =>
    intro j
    rw [hissued, List.mem_cons, k.bounds j]
    show j = d.shared.groups.lastId + 1 ∨ _ ↔ 1 ≤ j ∧ j ≤ d.shared.groups.lastId + 1
    omega

/-- After a group has left for a step. -/
theorem leave (k : d.Kept running held) (group : Nat) :
    ((d.begin (.step group)).leave group).Kept (group :: running)
      (Function.update held group (some (d.shared.groups.leave (d.shared.slots group)).1)) := by
  have hbegun : (d.begin (.step group)).shared.slots group = d.shared.slots group := rfl
  unfold TableDiary.leave
  rw [hbegun]
  cases hslot : d.shared.slots group with
  | some id =>
    refine k.out (.step group) (some id) (step_begun group d.past) fun j hj => ?_
    exact (Option.some.inj (hslot.symm.trans hj)).symm
  | none => exact k.out_first hslot

/-- A callback ends that has left no group without a slot in the table. -/
theorem done {id? : Option Nat} (free : group ∉ running) (hruns : d.running = group :: running)
    (hkeys : ∀ j, (d.shared.groups.groups.get? j).isSome = true →
      id? = some j ∨ ∃ g ∉ group :: running, d.shared.slots g = some j)
    (hprogress : ∀ g, inProgress g d.past =
      (idOf d.shared.slots (group :: running) (Function.update held group id?) g).isSome)
    (hissued : d.issued.Nodup) (hbounds : ∀ id, id ∈ d.issued ↔ 1 ≤ id ∧
      id ≤ d.shared.groups.lastId) : (d.done group id?).Kept running held := by
  refine ⟨?runs, ?keys, ?progress, hissued, hbounds⟩
  case runs =>
    show d.running.tail = running
    rw [hruns]
    rfl
  case keys =>
    intro j hj
    rcases hkeys j hj with hown | ⟨g, hg, hslot⟩
    · exact ⟨group, free, (Function.update_self _ _ _).trans hown⟩
    · have hgroup : g ≠ group := fun heq => hg (heq ▸ List.mem_cons_self)
      exact ⟨g, List.not_mem_of_not_mem_cons hg, (Function.update_of_ne hgroup _ _).trans hslot⟩
  case progress =>
    intro g
    show inProgress g d.past = (idOf (Function.update d.shared.slots group id?) _ _ g).isSome
    rw [hprogress g, idOf_update_eq d.shared.slots id? free]

/-- After a group has come back from a step. -/
theorem comeBack {id : Nat}
    (k : d.Kept (group :: running) (Function.update held group (some id)))
    (free : group ∉ running) (g : Group) : (d.comeBack group id g).Kept running held := by
  have hissued : (d.setGroups (d.shared.groups.putBack id g)).issued = d.issued :=
    TableDiary.setGroups_issued d rfl
  refine done free k.runs (fun j hj => ?_) k.progress (hissued ▸ k.issued) (hissued ▸ k.bounds)
  by_cases hid : id = j
  · exact .inl (congrArg some hid)
  · have hj : ((d.shared.groups.groups.set id g).get? j).isSome = true := hj
    rw [Assoc.get?_set_ne _ hid] at hj
    exact .inr (k.keys j hj)

/-- After a group has been taken at its end. -/
theorem take (k : d.Kept running held) (group : Nat) :
    ((d.begin (.finish group)).setGroups
      (d.shared.groups.take ((d.shared.slots group).getD unusedSlot)).2).Kept (group :: running)
        (Function.update held group none) := by
  refine k.out (.finish group) none (finish_begun group d.past) fun j hj => ?_
  have hslot : d.shared.slots group = some j := hj
  rw [hslot]
  rfl

/-- After a group has ended. -/
theorem ended (k : d.Kept (group :: running) (Function.update held group none))
    (free : group ∉ running) : (d.done group none).Kept running held :=
  done free k.runs (fun j hj => .inr (k.keys j hj)) k.progress k.issued k.bounds

end TableMoment.Kept

namespace TableDiary

/-- What leaves the table is the same with the diary. -/
theorem leave_shared (d : TableDiary) (group : Nat) :
    (d.leave group).shared =
      { d.shared with groups := (d.shared.groups.leave (d.shared.slots group)).2.2 } := by
  unfold leave
  cases d.shared.slots group <;> rfl

theorem leave_moments (d : TableDiary) (group : Nat) : (d.leave group).moments = d.moments := by
  unfold leave
  cases d.shared.slots group <;> rfl

end TableDiary

namespace Keeping

variable {d : Beside ε TableDiary} {t : Beside ε Histories}

/-- After a group has left for a step its closure is running. -/
theorem leave (h : Keeping running held left d t) (free : group ∉ running) :
    Keeping (group :: running)
      (Function.update held group (some (d.own.shared.groups.leave (d.own.shared.slots group)).1))
      (Function.update left group (t.own group))
      { d with own := (d.own.begin (.step group)).leave group } t := by
  refine ⟨?_, h.kept.leave group, ?_⟩
  · rw [TableDiary.leave_shared]
    exact h.agree.leave free
  · rw [TableDiary.leave_moments]
    exact h.moments

/-- A group that comes back from a step has one more state in its history. -/
theorem comeBack {id : Nat} {old : List GroupState}
    (h : Keeping (group :: running) (Function.update held group (some id))
      (Function.update left group old) d t)
    (free : group ∉ running) (state : GroupState) :
    Keeping running held left
      { d with own := d.own.comeBack group id ⟨old.length + 1, state⟩ }
      { t with own := Function.update t.own group (state :: old) } :=
  ⟨h.agree.comeBack free state, h.kept.comeBack free _, h.moments⟩

/-- After a group has been taken at its end its closure is running and holds no id. -/
theorem take (h : Keeping running held left d t) (free : group ∉ running) :
    Keeping (group :: running) (Function.update held group none)
      (Function.update left group (t.own group))
      { d with
        own := (d.own.begin (.finish group)).setGroups
          (d.own.shared.groups.take ((d.own.shared.slots group).getD unusedSlot)).2 } t :=
  ⟨h.agree.take free, h.kept.take group, h.moments⟩

/-- A group that has ended begins anew. -/
theorem ended {old : List GroupState}
    (h : Keeping (group :: running) (Function.update held group none)
      (Function.update left group old) d t)
    (free : group ∉ running) :
    Keeping running held left { d with own := d.own.done group none }
      { t with own := Function.update t.own group [] } :=
  ⟨h.agree.ended free, h.kept.ended free, h.moments⟩

end Keeping

/-! ## One callback -/

section Runs

variable (s : Surroundings ε) (f : HostAggregate) (nested : ε → StateM (Beside ε TableDiary) Unit)
  (w : Beside ε TableDiary)

/-- The aggregate's own record has the groups of the table. -/
theorem watching_record :
    ((s.watching f nested).record? s.number).run w =
      (some (f.record (s.resultType w.env) w.own.shared.groups), w) := by
  simp only [Surroundings.watching, if_pos]
  rfl

/-- Changing the groups of the aggregate's own record changes the table. -/
theorem watching_setGroups (groups : GroupTable) :
    ((s.watching f nested).setGroups s.number groups).run w =
      ((), { w with own := w.own.setGroups groups }) := by
  simp only [Surroundings.watching, if_pos]
  rfl

theorem watching_groupsOf :
    (groupsOf (s.watching f nested) s.number).run w = (w.own.shared.groups, w) := by
  unfold groupsOf
  rw [run_bind, watching_record]
  rfl

/-- The library's part of a step: the group's way out of the table and back. -/
theorem watching_call_run (group : Nat) (args : List Datum) :
    (callFunction (s.watching f nested) s.number (w.own.shared.slots group) args).run w =
      let out := w.own.shared.groups.leave (w.own.shared.slots group)
      let p := (f.runStep (s.watching f nested) (s.resultType w.env) args out.2.1.nextRow).run
        { w with own := w.own.leave group }
      (⟨some out.1, p.1.pending.result⟩, { p.2 with
        own := p.2.own.setGroups (p.2.own.shared.groups.putBack out.1
          (p.1.group.getD out.2.1.nextRow)) }) := by
  unfold TableDiary.leave
  simp only [callFunction, run_bind, watching_record]
  cases w.own.shared.slots group with
  | some id =>
    simp only [HostAggregate.record, groupId, takeGroup, putBackGroup, run_bind,
      watching_groupsOf, watching_setGroups]
    rfl
  | none =>
    simp only [HostAggregate.record, groupId, takeGroup, putBackGroup, run_bind,
      watching_groupsOf, watching_setGroups]
    rfl

/-- The library's part of the end of a group. -/
theorem watching_finish_run (group : Nat) :
    (finishGroup (s.watching f nested) s.number (w.own.shared.slots group)).run w =
      let out := w.own.shared.groups.take ((w.own.shared.slots group).getD unusedSlot)
      let p := (f.runFinal (s.watching f nested) (s.resultType w.env) out.1).run
        { w with own := w.own.setGroups out.2 }
      (⟨w.own.shared.slots group, p.1.pending.result⟩, p.2) := by
  simp only [finishGroup, run_bind, watching_record]
  simp only [HostAggregate.record, takeGroup, run_bind, watching_groupsOf, watching_setGroups]
  rfl

/-- A step with the diary, given what left the table and how the closure ran. -/
theorem watched_step_run {group : Nat} {args : List Datum} {out : Nat × Group × GroupTable}
    {frame : Frame} {after : Beside ε TableDiary}
    (hout : w.own.shared.groups.leave (w.own.shared.slots group) = out)
    (hrun : (f.runStep (s.watching f nested) (s.resultType w.env) args out.2.1.nextRow).run
      { w with own := (w.own.look.begin (.step group)).leave group } = (frame, after)) :
    ((s.watched f).step group args nested).run w =
      (frame.pending.result, { after with
        own := (after.own.comeBack group out.1 (frame.group.getD out.2.1.nextRow)).look }) := by
  let begun : Beside ε TableDiary := { w with own := w.own.look.begin (.step group) }
  have hbegun : begun.own.shared.groups.leave (begun.own.shared.slots group) = out := hout
  have hcall := watching_call_run s f nested begun group args
  rw [hbegun] at hcall
  dsimp only at hcall
  rw [show (f.runStep (s.watching f nested) (s.resultType begun.env) args out.2.1.nextRow).run
    { begun with own := begun.own.leave group } = (frame, after) from hrun] at hcall
  show (let q := (callFunction (s.watching f nested) s.number _ args).run begun;
    (q.1.result, { q.2 with own := (q.2.own.done group q.1.slot).look })) = _
  rw [hcall]
  rfl

/-- The end of a group with the diary, given what left the table and how the closure ran. -/
theorem watched_finish_run {group : Nat} {out : Group × GroupTable} {frame : Frame}
    {after : Beside ε TableDiary}
    (hout : w.own.shared.groups.take ((w.own.shared.slots group).getD unusedSlot) = out)
    (hrun : (f.runFinal (s.watching f nested) (s.resultType w.env) out.1).run
      { w with own := (w.own.look.begin (.finish group)).setGroups out.2 } = (frame, after)) :
    ((s.watched f).finish group nested).run w =
      (frame.pending.result, { after with own := (after.own.done group none).look }) := by
  let begun : Beside ε TableDiary := { w with own := w.own.look.begin (.finish group) }
  have hbegun : begun.own.shared.groups.take ((begun.own.shared.slots group).getD unusedSlot) =
      out := hout
  have hcall := watching_finish_run s f nested begun group
  rw [hbegun] at hcall
  dsimp only at hcall
  rw [show (f.runFinal (s.watching f nested) (s.resultType begun.env) out.1).run
    { begun with own := begun.own.setGroups out.2 } = (frame, after) from hrun] at hcall
  show (let q := (finishGroup (s.watching f nested) s.number _).run begun;
    (q.1.result, { q.2 with own := (q.2.own.done group none).look })) = _
  rw [hcall]

end Runs

section Callback

variable {nested : ε → StateM (Beside ε TableDiary) Unit}
  {nested' : ε → StateM (Beside ε Histories) Unit}

/-- A running closure is told the same of the world around it, with the diary and without. -/
theorem watching_coupled (s : Surroundings ε) (f : HostAggregate)
    (hnested : ∀ e, Coupled (Keeping running held left) (nested e) (nested' e)) :
    (s.watching f nested).Coupled (Keeping running held left) (s.ambient nested') := by
  have hlooking : ∀ e, Coupled (Keeping running held left) (Surroundings.looking nested e)
      (nested' e) :=
    fun e => Keeping.looked (Keeping.looked_after (hnested e))
  have h := Keeping.sameEnv.ambient s hlooking
  exact ⟨fun r => Keeping.looked (h.log r), fun e => Keeping.looked (h.emit e), h.interrupt,
    h.execute, h.query, h.declare, h.register⟩

/-- A step keeps the diary, if the activities in it do. -/
theorem watched_step_coupled (s : Surroundings ε) (f : HostAggregate) (free : group ∉ running)
    (args : List Datum)
    (hnested : ∀ held left e,
      Coupled (Keeping (group :: running) held left) (nested e) (nested' e)) :
    Coupled (Keeping running held left) ((s.watched f).step group args nested)
      ((s.apart f).step group args nested') := by
  intro w w' h
  have hgroup := h.agree.leave_group free
  have hout := h.look.leave free
  cases hleave : w.own.shared.groups.leave (w.own.shared.slots group) with
  | mk id rest =>
    obtain ⟨g, table⟩ := rest
    have hid : (w.own.look.shared.groups.leave (w.own.look.shared.slots group)).1 = id :=
      congrArg Prod.fst hleave
    have hg : g = groupAfter (w'.own group) := (congrArg (·.2.1) hleave).symm.trans hgroup
    rw [hid] at hout
    -- the closure behaves in the same way, and leaves its group with the row count it got
    obtain ⟨hframe, hafter⟩ := f.runStep_coupled (watching_coupled s f (hnested _ _))
      (s.resultType w.env) args g.nextRow _ _ hout
    obtain ⟨state, hstate⟩ := f.runStep_rows (s.ambient nested') (s.resultType w.env) args
      g.nextRow w'
    have henv : w.env = w'.env := h.agree.env
    cases hrun : (f.runStep (s.watching f nested) (s.resultType w.env) args g.nextRow).run
        { w with own := (w.own.look.begin (.step group)).leave group } with
    | mk frame after =>
      rw [watched_step_run s f nested w hleave hrun, apart_step_run, ← henv]
      dsimp only at hframe hafter ⊢
      rw [hrun] at hframe hafter
      rw [← hg]
      generalize (f.runStep (s.ambient nested') _ args _).run w' = called' at hframe hafter hstate ⊢
      obtain ⟨frame', after'⟩ := called'
      cases hframe
      have hstate : frame.group = some ⟨(w'.own group).length + 1, state⟩ := by
        rw [hg] at hstate
        exact hstate
      refine ⟨rfl, ?_⟩
      simp only [Frame.stateLeft, hstate, Option.getD_some, Option.map_some]
      exact (hafter.comeBack free state).look

/-- The end of a group keeps the diary, if the activities in it do. -/
theorem watched_finish_coupled (s : Surroundings ε) (f : HostAggregate) (free : group ∉ running)
    (hnested : ∀ held left e,
      Coupled (Keeping (group :: running) held left) (nested e) (nested' e)) :
    Coupled (Keeping running held left) ((s.watched f).finish group nested)
      ((s.apart f).finish group nested') := by
  intro w w' h
  have hgroup := h.agree.take_group free
  have hout := h.look.take free
  have henv : w.env = w'.env := h.agree.env
  cases htake : w.own.shared.groups.take ((w.own.shared.slots group).getD unusedSlot) with
  | mk g table =>
    have htable : (w.own.look.shared.groups.take
        ((w.own.look.shared.slots group).getD unusedSlot)).2 = table := congrArg Prod.snd htake
    have hg : g = groupAfter (w'.own group) := (congrArg Prod.fst htake).symm.trans hgroup
    rw [htable] at hout
    obtain ⟨hframe, hafter⟩ := f.runFinal_coupled (watching_coupled s f (hnested _ _))
      (s.resultType w.env) g _ _ hout
    cases hrun : (f.runFinal (s.watching f nested) (s.resultType w.env) g).run
        { w with own := (w.own.look.begin (.finish group)).setGroups table } with
    | mk frame after =>
      rw [watched_finish_run s f nested w htake hrun, apart_finish_run, ← henv]
      dsimp only at hframe hafter ⊢
      rw [hrun] at hframe hafter
      rw [← hg]
      exact ⟨congrArg (·.pending.result) hframe, (hafter.ended free).look⟩

end Callback

/-! ## All callbacks -/

/-- The diary is kept through every activity. -/
theorem Activity.watched_coupled (s : Surroundings ε) (f : HostAggregate) {running : List Nat}
    (activity : Activity ε running) (held : Nat → Option Nat) (left : Histories) :
    Coupled (Keeping running held left) (activity.run s (s.watched f))
      (activity.run s (s.apart f)) := by
  refine activity.run_coupled s (P := (Nat → Option Nat) × Histories)
    (R := fun running p => Keeping running p.1 p.2) (fun _ _ => Keeping.sameEnv) ?_ ?_ (held, left)
  · intro running group nested nested' args free hnested p
    exact watched_step_coupled s f free args fun held left e => hnested (held, left) e
  · intro running group nested nested' free hnested p
    exact watched_finish_coupled s f free fun held left e => hnested (held, left) e

/-- The bookkeeping of groups is right: in any course of callbacks of an aggregate, interleaved and
nested, the table is what it should be in the end and at every moment before. The moments are those
of the diary, which changes nothing. -/
theorem Activity.run_bookkept (s : Surroundings ε) (f : HostAggregate) (activity : Activity ε [])
    (e : ε) :
    let plain := ((activity.run s (s.shared f)).run ⟨e, SharedGroups.start⟩).2
    let watched := ((activity.run s (s.watched f)).run ⟨e, TableDiary.start⟩).2
    plain = ⟨watched.env, watched.own.shared⟩ ∧ watched.own.Right ∧
      ∀ m ∈ watched.own.moments, m.Right := by
  have hsame := (activity.watched_run s f _ ⟨e, TableDiary.start⟩ rfl).2
  have hstart := Keeping.start e (fun _ => none) Histories.start
  have hkept := (activity.watched_coupled s f _ _ _ _ hstart).2
  exact ⟨hsame, hkept.right, hkept.moments⟩

end HostSql
