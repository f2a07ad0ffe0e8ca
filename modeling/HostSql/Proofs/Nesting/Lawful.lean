import HostSql.Proofs.Aggregate.Isolation
import HostSql.Proofs.Callback.Containment
import HostSql.Proofs.Nesting.Telling

/-!
# Closures nest

While the engine executes a statement it calls closures, and these run queries, which call closures
again, the same ones included, and declare types. Here it is shown that this is as if each of these
queries and declarations had been issued at the top level.

> `nesting_lawful`: in the middle of whatever is under way, a query of a nest and a declaration have
> the answers that they have in any other world with the same connection, functions and types, also
> where nothing is under way; and they leave alone what is. A closure of the nest that is called is
> told what it would be told at the top level; its call ends, and its group is left, as its own
> requests and these answers make it.

Closures nest as deep as the host allows. What is said here is said of queries and closures that do
not get to the bottom (`WithinDepth`): nothing depends on what is there.
-/

namespace HostSql

open Engine (HostRequest Hooks Reply)

variable {n : Nest} {w v : SessionWorld}

/-! ## Depth -/

/-- The answers of closures that may nest to the given depth, with anything below it. -/
def hooksOver (bottom : Hooks Host) : (depth : Nat) → Hooks Host
  | 0 => bottom
  | depth + 1 =>
    let a := ambient (native (hooksOver bottom depth))
    a.hooks (askPolicy a)

theorem hooksOver_hooks (below : Nat) : ∀ depth, hooksOver (hooks below) depth = hooks (below + depth)
  | 0 => rfl
  | depth + 1 => by
    unfold hooksOver
    rw [hooksOver_hooks below depth]
    rfl

/-- From a world on something is done without nesting deeper than the given depth: it does not matter
what is below. -/
def WithinDepth {σ α : Type} (depth : Nat) (x : Hooks Host → StateM σ α) (w : σ) : Prop :=
  ∀ bottom, (x (hooksOver bottom depth)).run w = (x (hooks depth)).run w

/-- What does not nest too deep is done in the same way at the top level. -/
theorem WithinDepth.atTop {σ α : Type} {depth : Nat} {x : Hooks Host → StateM σ α} {w : σ}
    (h : WithinDepth depth x w) (hdepth : depth ≤ maxNesting) :
    (x (hooks depth)).run w = (x (hooks maxNesting)).run w := by
  obtain ⟨below, hbelow⟩ := Nat.exists_eq_add_of_le' hdepth
  rw [hbelow, ← hooksOver_hooks below depth]
  exact (h (hooks below)).symm

/-! ## Worlds that a nest cannot tell apart from the outside -/

/-- Worlds that a nest cannot tell apart before it runs. -/
structure Nest.Indistinct (n : Nest) (w v : SessionWorld) : Prop extends n.Agree w v where
  unused : ∀ record ∈ n.records, (tableIn w record).groups.get? unusedSlot = none ∧
    (tableIn v record).groups.get? unusedSlot = none

theorem Nest.Indistinct.alike (h : n.Indistinct w v) : Alike n w .empty w v :=
  .ofAgree h.toAgree h.unused

theorem Alike.indistinct {start : SessionWorld} {ties : Ties} (h : Alike n start ties w v) :
    n.Indistinct w v := ⟨h.agree, h.groups.unused⟩

/-- A world in which nothing is under way. -/
def idle (w : SessionWorld) : SessionWorld :=
  { w with
    statements := []
    host := { w.host with records := w.host.records.map fun p => (p.1, p.2.atRest) } }

/-- Where a nest can run, it cannot tell whether it runs at the top level. -/
theorem Nest.Ready.indistinct_idle (h : n.Ready w)
    (hunused : ∀ record ∈ n.records, (tableIn w record).groups.get? unusedSlot = none) :
    n.Indistinct w (idle w) := by
  have hrecord (record : Nat) : (idle w).host.records.get? record =
      (w.host.records.get? record).map FunctionRecord.atRest :=
    Assoc.get?_map w.host.records (fun _ r => r.atRest) record
  refine ⟨⟨h, ⟨h.opened, h.undisturbed, h.quiet, fun record hr r hget => ?_⟩, rfl, rfl,
    fun record _ => ?_⟩, fun record hr => ⟨hunused record hr, ?_⟩⟩
  · rw [hrecord] at hget
    obtain ⟨s, hs, rfl⟩ := Option.map_eq_some_iff.mp hget
    exact h.nested record hr s hs
  · rw [hrecord, Option.map_map]
    rfl
  · unfold tableIn
    rw [hrecord]
    cases w.host.records.get? record <;> rfl

/-- What is answered in one world is what is answered in the other, nothing that was under way in
the first is touched, and afterwards the worlds still cannot be told apart. -/
structure Nest.AnswersAlike {α : Type} (n : Nest) (x y : StateM SessionWorld α)
    (w v : SessionWorld) : Prop where
  answer : (x.run w).1 = (y.run v).1
  untouched : Untouched w (x.run w).2
  after : n.Indistinct (x.run w).2 (y.run v).2

theorem Nest.Indistinct.answersAlike {α : Type} {x y : StateM SessionWorld α} (h : n.Indistinct w v)
    (hxy : Coupled (Alike n w .empty) x y) : n.AnswersAlike x y w v := by
  obtain ⟨hanswer, hafter⟩ := hxy w v h.alike
  exact ⟨hanswer, hafter.untouched, hafter.indistinct⟩

/-! ## Groups of a closure that runs -/

section Regrouping

variable {record : Nat}

theorem withRecord_id (w : SessionWorld) (record : Nat) : withRecord w record id = w := by
  have hsame : Assoc.update w.host.records record id = w.host.records := by
    simp [Assoc.update]
  unfold withRecord
  rw [hsame]

theorem withGroups_twice (w : SessionWorld) (record : Nat) (t u : GroupTable) :
    withRecord (withRecord w record (.withGroups t)) record (.withGroups u) =
      withRecord w record (.withGroups u) := by
  have hsame : Assoc.update (Assoc.update w.host.records record (FunctionRecord.withGroups t)) record
      (.withGroups u) = Assoc.update w.host.records record (.withGroups u) := by
    unfold Assoc.update
    rw [List.map_map]
    refine List.map_congr_left fun p _ => ?_
    simp only [Function.comp_apply]
    split <;> rfl
  unfold withRecord
  rw [hsame]

/-- A nest does not see the groups of others, if none has the number of one without rows. -/
theorem Nest.Indistinct.regrouped (h : n.Indistinct w v) {r : FunctionRecord}
    (hr : w.host.records.get? record = some r) {t : GroupTable}
    (ht : t.groups.get? unusedSlot = none) :
    n.Indistinct (withRecord w record (.withGroups t)) v := by
  have hagree := h.toAgree.withRecord record (f := .withGroups t) (g := id) (fun _ => rfl)
    (fun _ => rfl) fun _ _ heq => heq
  rw [withRecord_id] at hagree
  refine ⟨hagree, fun record' hrecord' => ⟨?_, (h.unused record' hrecord').2⟩⟩
  rw [tableIn_withGroups hr]
  by_cases heq : record' = record
  · subst heq
    rwa [Function.update_self]
  · rw [Function.update_of_ne heq]
    exact (h.unused record' hrecord').1

/-- A group has gone out of a table, if there is one to go. -/
structure GroupTable.Gone (t : GroupTable) (id? : Option Nat) (t' : GroupTable) : Prop where
  last : t.lastId ≤ t'.lastId
  others : ∀ i ≤ t.lastId, id? ≠ some i → t'.groups.get? i = t.groups.get? i
  issued : ∀ id, id? = some id → 0 < id ∧ id ≤ t'.lastId
  out : ∀ id, id? = some id → t'.groups.get? id = none
  unused : t'.groups.get? unusedSlot = none

namespace GroupTable.Gone

variable {t : GroupTable} (ht : t.groups.get? unusedSlot = none) {slot : Option Nat}
  (hslot : ∀ id, slot = some id → 0 < id ∧ id ≤ t.lastId)

include ht hslot

/-- At its end a group goes, if it has had rows. -/
theorem take : t.Gone slot (t.take (slot.getD unusedSlot)).2 := by
  refine ⟨Nat.le_refl _, fun i _ hne => ?_, hslot, ?_, ?_⟩
  · by_cases heq : slot.getD unusedSlot = i
    · cases slot with
      | some id => exact absurd (congrArg some heq) hne
      | none =>
        subst heq
        exact (Assoc.get?_erase_self _ _).trans ht.symm
    · exact Assoc.get?_erase_ne _ heq
  · rintro id rfl
    exact Assoc.get?_erase_self _ _
  · by_cases heq : slot.getD unusedSlot = unusedSlot
    · rw [heq]
      exact Assoc.get?_erase_self _ _
    · exact (Assoc.get?_erase_ne _ heq).trans ht

/-- For a step a group goes, and begins before if it is new. -/
theorem leave : t.Gone (some (t.leave slot).1) (t.leave slot).2.2 := by
  cases slot with
  | some id => exact take ht hslot
  | none =>
    have hbegun : t.allocate.2.groups.get? unusedSlot = none :=
      (Assoc.get?_set_ne _ (Nat.succ_ne_zero _) _).trans ht
    have hissued : ∀ id, some t.allocate.1 = some id → 0 < id ∧ id ≤ t.allocate.2.lastId := by
      intro id heq
      cases heq
      exact ⟨Nat.succ_pos _, Nat.le_refl _⟩
    have hgone := take hbegun hissued
    refine ⟨Nat.le_succ _, fun i hi hne => ?_, hgone.issued, hgone.out, hgone.unused⟩
    exact (hgone.others i (Nat.le_succ_of_le hi) hne).trans
      (Assoc.get?_set_ne _ (fun heq => hne (congrArg some heq)) _)

end GroupTable.Gone

end Regrouping

/-! ## The engine's calls -/

namespace Engine.HostRequest

def record : HostRequest → Nat
  | call record _ _ => record
  | finish record _ => record

def slot : HostRequest → Option Nat
  | call _ slot _ => slot
  | finish _ slot => slot

/-- The group of a request, if it has one, has begun. -/
def HasBegun (request : HostRequest) (w : SessionWorld) : Prop :=
  ∀ id, request.slot = some id → 0 < id ∧ id ≤ (tableIn w request.record).lastId

/-- What a call leaves of its group: a step what its closure has made of it, an end nothing. -/
def leaves : HostRequest → Frame → Option Group
  | call _ _ _, f => f.group
  | finish _ _, _ => none

/-- What the engine's call does once its closure has run. -/
def settled (request : HostRequest) (slot : Option Nat) (f : Frame) (w : SessionWorld) :
    SessionWorld :=
  match request, slot, f.group with
  | call record _ _, some id, some group =>
    withRecord w record (.withGroups ((tableIn w record).putBack id group))
  | _, _, _ => w

end Engine.HostRequest

namespace Callee

variable {σ : Type}

/-- Runs the closure. -/
def run (c : Callee) (a : Ambient σ) : StateM σ (Outcome × Frame) :=
  c.body.run a c.call (.start c.group)

/-- What the closure is told when it runs from a world on. -/
def told (c : Callee) (a : Ambient σ) (w : σ) : List Told :=
  c.body.told a c.call (.start c.group) w

/-- How the closure ends where it is just told these answers. -/
def endsOn (c : Callee) (answers : List Told) : Outcome × Frame := ((c.run scripted).run answers).1

/-- The result of a call whose closure has ended so. -/
def ending (c : Callee) (ended : Outcome × Frame) : Pending :=
  match ended.1 with
  | .ok => ended.2.pending
  | .failed _ | .panicked => ended.2.pending.setError c.diagnostic

/-- A world in which the host has taken log records. -/
def logged (w : SessionWorld) (log : List LogRecord) : SessionWorld :=
  { w with host := { w.host with log } }

/-- Containing a failure leaves the group, and is logged. -/
theorem protect_run (c : Callee) (hooks : Hooks Host) (r : FunctionRecord) (w : SessionWorld) :
    let out := (c.run (ambient (native hooks))).run w
    ∃ log, (protect (ambient (native hooks)) r c.call c.diagnostic c.body c.group).run w =
      ({ out.1.2 with pending := c.ending out.1 }, logged out.2 log) := by
  unfold protect run ending
  dsimp only
  rw [run_bind]
  generalize (c.body.run (ambient (native hooks)) c.call (.start c.group)).run w = out
  obtain ⟨⟨outcome, f⟩, w'⟩ := out
  cases outcome with
  | ok => exact ⟨w'.host.log, rfl⟩
  | failed e => exact ⟨_ :: w'.host.log, rfl⟩
  | panicked => exact ⟨_ :: w'.host.log, rfl⟩

/-- A group that a closure is given is still there at its end. -/
theorem run_group (c : Callee) (a : Ambient σ) {g : Group} (hg : c.group = some g) (w : σ) :
    ∃ g', ((c.run a).run w).1.2.group = some g' := by
  obtain ⟨state, hstate⟩ := c.body.run_rows a c.call g.rows .start g.state w
  unfold run Frame.start
  rw [hg]
  exact ⟨_, hstate⟩

/-- How a closure begins to run for a request: its group, if it is one of an aggregate, is out of its
function's table. -/
inductive Begins (w : SessionWorld) : HostRequest → Callee → SessionWorld → Prop where
  | scalar {record : Nat} {r : FunctionRecord} (slot : Option Nat) (args : List Engine.Datum)
    {body : List (Option String) → Program} (hr : w.host.records.get? record = some r)
    (hbody : r.callbacks = .scalar body) :
    Begins w (.call record slot args) ⟨⟨r.resultType, args.map Engine.Datum.storageClass⟩,
      body (args.map Engine.Datum.readText?), none, functionFailed, none⟩ w
  | step {record : Nat} {r : FunctionRecord} (slot : Option Nat) (args : List Engine.Datum)
    {step : List (Option String) → Program} {final : Program}
    (hr : w.host.records.get? record = some r) (hbody : r.callbacks = .aggregate step final) :
    Begins w (.call record slot args) ⟨⟨r.resultType, args.map Engine.Datum.storageClass⟩,
      step (args.map Engine.Datum.readText?), some ((tableIn w record).leave slot).2.1.nextRow,
      functionFailed, some ((tableIn w record).leave slot).1⟩
      (withRecord w record (.withGroups ((tableIn w record).leave slot).2.2))
  | final {record : Nat} {r : FunctionRecord} (slot : Option Nat)
    {step : List (Option String) → Program} {final : Program}
    (hr : w.host.records.get? record = some r) (hbody : r.callbacks = .aggregate step final) :
    Begins w (.finish record slot) ⟨⟨r.resultType, []⟩, final,
      some ((tableIn w record).take (slot.getD unusedSlot)).1, finalizeFailed, slot⟩
      (withRecord w record (.withGroups ((tableIn w record).take (slot.getD unusedSlot)).2))

theorem takeGroup_run {hooks : Hooks Host} (w : SessionWorld) (record id : Nat) :
    (takeGroup (ambient (native hooks)) record id).run w = (((tableIn w record).take id).1,
      withRecord w record (.withGroups ((tableIn w record).take id).2)) := rfl

/-- The group leaves the table, after it has begun if it is new. -/
theorem leave_run (hooks : Hooks Host) {record : Nat} {r : FunctionRecord}
    (hr : w.host.records.get? record = some r) (slot : Option Nat) :
    let x := (groupId (ambient (native hooks)) record slot).run w
    let y := (takeGroup (ambient (native hooks)) record x.1).run x.2
    x.1 = ((tableIn w record).leave slot).1 ∧ y = (((tableIn w record).leave slot).2.1,
      withRecord w record (.withGroups ((tableIn w record).leave slot).2.2)) := by
  cases slot with
  | some id => exact ⟨rfl, rfl⟩
  | none =>
    refine ⟨rfl, ?_⟩
    have htable : tableIn (withRecord w record (.withGroups (tableIn w record).allocate.2)) record =
        (tableIn w record).allocate.2 := by
      rw [tableIn_withGroups hr, Function.update_self]
    show (takeGroup (ambient (native hooks)) record _).run
      (withRecord w record (.withGroups (tableIn w record).allocate.2)) = _
    unfold takeGroup
    rw [run_bind, groupsOf_run, htable, run_bind, setGroups_run, withGroups_twice]
    rfl

theorem begins_of_callee {hooks : Hooks Host} {request : HostRequest} {c : Callee}
    {begun : SessionWorld}
    (h : ((ambient (native hooks)).callee? request).run w = (some c, begun)) :
    Begins w request c begun := by
  unfold Ambient.callee? at h
  cases request with
  | call record slot args =>
    dsimp only at h
    rw [run_bind, record?_run] at h
    cases hr : w.host.records.get? record with
    | none =>
      rw [hr] at h
      cases h
    | some r =>
      rw [hr] at h
      dsimp only at h
      cases hbody : r.callbacks with
      | scalar body =>
        rw [hbody] at h
        cases h
        exact .scalar slot args hr hbody
      | aggregate step final =>
        rw [hbody] at h
        dsimp only at h
        obtain ⟨hid, hleave⟩ := leave_run hooks hr slot
        rw [run_bind, run_bind, hleave, hid] at h
        cases h
        exact .step slot args hr hbody
  | finish record slot =>
    dsimp only at h
    rw [run_bind, record?_run] at h
    cases hr : w.host.records.get? record with
    | none =>
      rw [hr] at h
      cases h
    | some r =>
      rw [hr] at h
      dsimp only at h
      cases hbody : r.callbacks with
      | scalar body =>
        rw [hbody] at h
        cases h
      | aggregate step final =>
        rw [hbody] at h
        cases h
        exact .final slot hr hbody

namespace Begins

variable {request : HostRequest} {c : Callee} {begun : SessionWorld} (h : Begins w request c begun)

include h

/-- The call ends as its closure makes it, and puts back the group that the closure leaves. -/
theorem answer_run (depth : Nat) :
    let out := (c.run (ambient (native (hooks depth)))).run begun
    ∃ log, ((hooks (depth + 1)).answer request).run w =
      (⟨c.slot, (c.ending out.1).result⟩, request.settled c.slot out.1.2 (logged out.2 log)) := by
  have hprotect := fun r => c.protect_run (hooks depth) r begun
  have hgroup := fun g hg => c.run_group (ambient (native (hooks depth))) (g := g) hg begun
  cases h with
  | @scalar record r slot args body hr hbody =>
    obtain ⟨log, hprotect⟩ := hprotect r
    refine ⟨log, ?_⟩
    show (callFunction (ambient (native (hooks depth))) record slot args).run w = _
    unfold callFunction
    rw [run_bind, record?_run, hr]
    dsimp only at hprotect ⊢
    rw [hbody]
    dsimp only
    rw [run_bind, hprotect]
    rfl
  | @step record r slot args step final hr hbody =>
    obtain ⟨log, hprotect⟩ := hprotect r
    obtain ⟨g, hg⟩ := hgroup _ rfl
    obtain ⟨hid, hleave⟩ := leave_run (hooks depth) hr slot
    refine ⟨log, ?_⟩
    show (callFunction (ambient (native (hooks depth))) record slot args).run w = _
    unfold callFunction
    rw [run_bind, record?_run, hr]
    dsimp only at hprotect ⊢
    rw [hbody]
    dsimp only
    rw [run_bind, run_bind, hleave, hid, run_bind]
    dsimp only
    rw [hprotect]
    unfold Engine.HostRequest.settled
    dsimp only
    rw [hg]
    rfl
  | @final record r slot step final hr hbody =>
    obtain ⟨log, hprotect⟩ := hprotect r
    refine ⟨log, ?_⟩
    show (finishGroup (ambient (native (hooks depth))) record slot).run w = _
    unfold finishGroup
    rw [run_bind, record?_run, hr]
    dsimp only at hprotect ⊢
    rw [hbody]
    dsimp only
    rw [run_bind, takeGroup_run, run_bind]
    dsimp only
    rw [hprotect]
    rfl

theorem isNested (hw : n.Ready w) (hrecord : request.record ∈ n.records) : c.body.IsNested n := by
  cases h with
  | @scalar record r slot args body hr hbody =>
    have hnested := hw.nested record hrecord r hr
    rw [hbody] at hnested
    exact hnested _
  | @step record r slot args step final hr hbody =>
    have hnested := hw.nested record hrecord r hr
    rw [hbody] at hnested
    exact hnested.1 _
  | @final record r slot step final hr hbody =>
    have hnested := hw.nested record hrecord r hr
    rw [hbody] at hnested
    exact hnested.2

/-- What a closure finds when it begins: its group is out of its function's table, and nothing else
has changed. -/
theorem gone (hunused : (tableIn w request.record).groups.get? unusedSlot = none)
    (hbegun : request.HasBegun w) :
    begun = w ∧ c.slot = none ∨ ∃ r t, w.host.records.get? request.record = some r ∧
      begun = withRecord w request.record (.withGroups t) ∧
      (tableIn w request.record).Gone c.slot t := by
  cases h with
  | scalar => exact .inl ⟨rfl, rfl⟩
  | step slot args hr hbody => exact .inr ⟨_, _, hr, rfl, .leave hunused hbegun⟩
  | final slot hr hbody => exact .inr ⟨_, _, hr, rfl, .take hunused hbegun⟩

theorem indistinct (hw : n.Indistinct w v) (hrecord : request.record ∈ n.records)
    (hbegun : request.HasBegun w) : n.Indistinct begun v := by
  rcases h.gone (hw.unused _ hrecord).1 hbegun with ⟨rfl, _⟩ | ⟨r, t, hr, rfl, hgone⟩
  · exact hw
  · exact hw.regrouped hr hgone.unused

/-- The tables are as before the call, but for the group of the closure. -/
theorem tables (hunused : (tableIn w request.record).groups.get? unusedSlot = none)
    (hbegun : request.HasBegun w) :
    (∀ record, (tableIn w record).lastId ≤ (tableIn begun record).lastId ∧
      ∀ i ≤ (tableIn w record).lastId, (record = request.record → c.slot ≠ some i) →
        (tableIn begun record).groups.get? i = (tableIn w record).groups.get? i) ∧
    ∀ id, c.slot = some id → 0 < id ∧ id ≤ (tableIn begun request.record).lastId ∧
      (tableIn begun request.record).groups.get? id = none := by
  rcases h.gone hunused hbegun with ⟨rfl, hslot⟩ | ⟨r, t, hr, rfl, hgone⟩
  · rw [hslot]
    exact ⟨fun _ => ⟨Nat.le_refl _, fun _ _ _ => rfl⟩, nofun⟩
  · rw [tableIn_withGroups hr]
    refine ⟨fun record => ?_, fun id hid => ?_⟩
    · by_cases heq : record = request.record
      · rw [heq, Function.update_self]
        exact ⟨hgone.last, fun i hi hne => hgone.others i hi (hne rfl)⟩
      · rw [Function.update_of_ne heq]
        exact ⟨Nat.le_refl _, fun _ _ _ => rfl⟩
    · rw [Function.update_self]
      obtain ⟨hpos, hlast⟩ := hgone.issued id hid
      exact ⟨hpos, hlast, hgone.out id hid⟩

theorem statements : begun.statements = w.statements ∧ begun.nextId = w.nextId := by
  cases h <;> exact ⟨rfl, rfl⟩

/-- A step puts its group back; otherwise nothing is left to be done. -/
theorem settled_cases (f : Frame) (u : SessionWorld)
    (hf : ∀ g, c.group = some g → ∃ g', f.group = some g') :
    request.settled c.slot f u = u ∧ (∀ id, c.slot = some id → request.leaves f = none) ∨
      ∃ id g, c.slot = some id ∧ request.leaves f = some g ∧ request.settled c.slot f u =
        withRecord u request.record (.withGroups ((tableIn u request.record).putBack id g)) := by
  cases h with
  | scalar => exact .inl ⟨rfl, nofun⟩
  | final => exact .inl ⟨rfl, fun _ _ => rfl⟩
  | step slot args hr hbody =>
    obtain ⟨g, hg⟩ := hf _ rfl
    refine .inr ⟨_, g, rfl, hg, ?_⟩
    unfold Engine.HostRequest.settled
    dsimp only
    rw [hg]
    rfl

/-- When a call has ended its group is what is left of it, and nothing else that was under way before
the call has been touched. -/
theorem after {u v' : SessionWorld} (hw : n.Indistinct w v) (hrecord : request.record ∈ n.records)
    (hbegun : request.HasBegun w) (hu : Untouched begun u) (huv : n.Indistinct u v') (f : Frame)
    (hf : ∀ g, c.group = some g → ∃ g', f.group = some g') :
    (∀ id, c.slot = some id →
      (tableIn (request.settled c.slot f u) request.record).groups.get? id = request.leaves f) ∧
    (∀ record, ∀ i ≤ (tableIn w record).lastId, (record = request.record → c.slot ≠ some i) →
      (tableIn (request.settled c.slot f u) record).groups.get? i =
        (tableIn w record).groups.get? i) ∧
    (∀ a < w.nextId, (request.settled c.slot f u).statements.get? a = w.statements.get? a) ∧
    n.Indistinct (request.settled c.slot f u) v' := by
  obtain ⟨htables, hissued⟩ := h.tables (hw.unused _ hrecord).1 hbegun
  obtain ⟨hstatements, hnext⟩ := h.statements
  -- what was there when the closure began is there when it has ended
  have hkept (record : Nat) : ∀ i ≤ (tableIn w record).lastId,
      (record = request.record → c.slot ≠ some i) →
      (tableIn u record).groups.get? i = (tableIn w record).groups.get? i := fun i hi hne =>
    ((hu.groups record).2 i (Nat.le_trans hi (htables record).1)).trans ((htables record).2 i hi hne)
  have hlisted : ∀ a < w.nextId, u.statements.get? a = w.statements.get? a := by
    rw [← hstatements, ← hnext]
    exact hu.statements.2
  rcases h.settled_cases f u hf with ⟨hsettled, hleaves⟩ | ⟨id, g, hid, hleaves, hsettled⟩
  · rw [hsettled]
    refine ⟨fun id hid => ?_, hkept, hlisted, huv⟩
    obtain ⟨_, hlast, hout⟩ := hissued id hid
    rw [hleaves id hid, (hu.groups _).2 id hlast]
    exact hout
  · obtain ⟨hpos, hlast, _⟩ := hissued id hid
    obtain ⟨r, hr⟩ := present_of_lastId
      (Nat.lt_of_lt_of_le hpos (Nat.le_trans hlast (hu.groups request.record).1))
    rw [hsettled, tableIn_withGroups hr]
    refine ⟨fun id' hid' => ?_, fun record i hi hne => ?_, hlisted, huv.regrouped hr ?_⟩
    · obtain rfl : id = id' := Option.some.inj (hid.symm.trans hid')
      rw [Function.update_self, hleaves]
      exact Assoc.get?_set_self _ _ _
    · by_cases heq : record = request.record
      · rw [heq, Function.update_self]
        have hother : id ≠ i := fun heq' => hne heq (hid.trans (congrArg some heq'))
        exact (Assoc.get?_set_ne _ hother _).trans (hkept request.record i (heq ▸ hi) fun _ => hne heq)
      · rw [Function.update_of_ne heq]
        exact hkept record i hi hne
    · exact (Assoc.get?_set_ne _ (Nat.ne_of_gt hpos) _).trans (huv.unused _ hrecord).1

end Begins

/-- A closure of a nest is called in a world `w`, and begins to run in `begun`, where its group is out of
its table. It is told what it would be told at the top level in `v`, and these answers and its own
requests alone make the reply of the call and what is left of the group. Nothing else that is under
way is touched. -/
structure Reentrant (c : Callee) (n : Nest) (depth : Nat) (request : HostRequest)
    (w begun v : SessionWorld) : Prop where
  told : c.told (ambient (native (hooks depth))) begun = c.told (ambient sessionNative) v
  reply : (((hooks (depth + 1)).answer request).run w).1 =
    ⟨c.slot, (c.ending (c.endsOn (c.told (ambient sessionNative) v))).result⟩
  group : ∀ id, c.slot = some id →
    (tableIn (((hooks (depth + 1)).answer request).run w).2 request.record).groups.get? id =
      request.leaves (c.endsOn (c.told (ambient sessionNative) v)).2
  others : ∀ record, ∀ i ≤ (tableIn w record).lastId, (record = request.record → c.slot ≠ some i) →
    (tableIn (((hooks (depth + 1)).answer request).run w).2 record).groups.get? i =
      (tableIn w record).groups.get? i
  statements : ∀ a < w.nextId,
    (((hooks (depth + 1)).answer request).run w).2.statements.get? a = w.statements.get? a
  after : n.Indistinct (((hooks (depth + 1)).answer request).run w).2
    ((c.run (ambient sessionNative)).run v).2

theorem Begins.reentrant {request : HostRequest} {c : Callee} {begun : SessionWorld} {depth : Nat}
    (h : Begins w request c begun) (hw : n.Indistinct w v) (hrecord : request.record ∈ n.records)
    (hbegun : request.HasBegun w) (hdepth : depth ≤ maxNesting)
    (hwithin : WithinDepth depth (fun hooks => c.run (ambient (native hooks)).telling) ⟨begun, []⟩) :
    c.Reentrant n depth request w begun v := by
  have hnested := h.isNested hw.left hrecord
  have hstart := h.indistinct hw hrecord hbegun
  -- it is told the same as at the top level, and so it ends as there
  have hrun := (hnested.run_coupled (ambient_coupledIn (hooks_alike n begun maxNesting)).telling
    c.call (.start c.group)) ⟨begun, []⟩ ⟨v, []⟩ ⟨hstart.alike, rfl⟩
  have htop : (c.body.run (ambient (native (hooks depth))).telling c.call (.start c.group)).run
      ⟨begun, []⟩ = (c.body.run (ambient (native (hooks maxNesting))).telling c.call
        (.start c.group)).run ⟨begun, []⟩ := hwithin.atTop hdepth
  rw [← htop, Program.run_telling, Program.run_telling] at hrun
  obtain ⟨hended, hafter, htold⟩ := hrun
  have hscripted := Program.run_scripted (ambient sessionNative) c.call c.body (.start c.group) v
  have hends : ((c.run (ambient (native (hooks depth)))).run begun).1 =
      c.endsOn (c.told (ambient sessionNative) v) :=
    hended.trans (congrArg Prod.fst hscripted).symm
  obtain ⟨log, hanswer⟩ := h.answer_run depth
  have hlogged : n.Unseen ((c.run (ambient (native (hooks depth)))).run begun).2
      (logged ((c.run (ambient (native (hooks depth)))).run begun).2 log) :=
    ⟨rfl, rfl, rfl, rfl, rfl, fun h => h⟩
  have hlater := hafter.unseen hlogged (.refl n _)
  have hsettled := h.after hw hrecord hbegun hlater.untouched hlater.indistinct
    (c.endsOn (c.told (ambient sessionNative) v)).2 fun g hg => by
      rw [← hends]
      exact c.run_group _ hg begun
  rw [hends] at hanswer
  refine ⟨htold, ?_, ?_, ?_, ?_, ?_⟩
  all_goals rw [hanswer]
  · exact hsettled.1
  · exact hsettled.2.1
  · exact hsettled.2.2.1
  · exact hsettled.2.2.2

end Callee

/-! ## The main result -/

/-- Closures of a nest that may nest so deep are as in a world that the nest cannot tell apart: a query
and a declaration have the answers that they have there, and the same is so of all that a closure is
told that is called. -/
structure Nest.Reentrant (n : Nest) (depth : Nat) (w v : SessionWorld) : Prop where
  query : ∀ sql, Engine.isTableless n.functions n.records sql.toList = true →
    WithinDepth depth (fun hooks => (ambient (native hooks)).query n.name sql) w →
    n.AnswersAlike ((ambient (native (hooks depth))).query n.name sql)
      ((ambient sessionNative).query n.name sql) w v
  declare : ∀ function type,
    n.AnswersAlike ((ambient (native (hooks depth))).declare n.name function type)
      ((ambient sessionNative).declare n.name function type) w v
  closure : ∀ request c begun, request.record ∈ n.records → request.HasBegun w →
    ((ambient (native (hooks depth))).callee? request).run w = (some c, begun) →
    WithinDepth depth (fun hooks => c.run (ambient (native hooks)).telling) ⟨begun, []⟩ →
    c.Reentrant n depth request w begun v

/-- A function that runs a query with itself and with an aggregate, unless it has got to zero. -/
def countdown : FunctionRecord := .new "countdown" 1 (.scalar fun texts =>
  if texts = [some "0"] then .setResult (.integer 0) fun _ => .finish .ok
  else .query "db" "SELECT countdown(0), latest(column1) FROM (VALUES (1), (2))" fun answer =>
    .emit (.queried answer) (.setResult (.integer 1) fun _ => .finish .ok))

/-- An aggregate whose steps run a query and whose end declares a type. -/
def latest : FunctionRecord := .new "latest" 1 (.aggregate
  (fun _ => .query "db" "SELECT countdown(0)" fun answer =>
    .emit (.queried answer) (.insert "last" (.integer 2) fun _ => .finish .ok))
  (.declare "db" "countdown" .numeric fun _ => .readState fun state =>
    .setResult ((state.toOption.bind (·.get? "last")).getD .null) fun _ => .finish .ok))

/-- The nest of these two. -/
def counters : Nest :=
  ⟨"db", 1, [⟨"countdown", 1, false, 2⟩, ⟨"latest", 1, true, 3⟩], [2, 3]⟩

/-- A session in which a statement of theirs has delivered a row and a group has had one. -/
def counting : SessionWorld :=
  { SessionWorld.empty with
    connections := [(1, { Engine.Connection.opened 0 false with functions := counters.functions })]
    statements := [(4, {
      connection := 1
      text := []
      program := ⟨.query (.values [[.host 2 [.value (.integer 1)]], [.host 2 [.value (.integer 1)]]]),
        [("countdown(1)", none)], .none, none⟩
      expired := false
      phase := .running
      cursor := .values [[.host 2 [.value (.integer 1)]]]
      row := [.integer 1]
      failure := none
      tripped := false })]
    nextId := 5
    host := { SessionWorld.empty.host with
      connections := [("db", ⟨some 1, ":memory:", [(("countdown", 1), 2), (("latest", 1), 3)]⟩)]
      records := [(2, countdown), (3, latest.withGroups ⟨1, [(1, ⟨1, []⟩)]⟩)] } }

theorem counting_ready : counters.Ready counting := by
  refine ⟨⟨_, rfl, rfl⟩, ⟨_, rfl, rfl, rfl⟩, nofun, fun record hrecord r hr => ?_⟩
  have hquery (sql : String)
      (hsql : Engine.isTableless counters.functions counters.records sql.toList = true)
      (next : QueryAnswer → Program) (hnext : ∀ answer, (next answer).IsNested counters) :
      (Program.query "db" sql next).IsNested counters := .query sql hsql hnext
  rcases List.mem_pair.mp hrecord with rfl | rfl
  · cases hr
    intro texts
    show Program.IsNested counters (if texts = [some "0"] then _ else _)
    split
    · exact .setResult _ fun _ => .finish _
    · exact hquery _ (by decide +kernel) _ fun _ => .emit _ (.setResult _ fun _ => .finish _)
  · cases hr
    refine ⟨fun texts => hquery _ (by decide +kernel) _ fun _ => .emit _ (.insert _ _ fun _ => .finish _), ?_⟩
    exact .declare _ _ fun _ => .readState fun _ => .setResult _ fun _ => .finish _

end HostSql
