import HostSql.Proofs.AssocLaws
import HostSql.Proofs.Connection.Batch
import HostSql.Proofs.Engine.Runs
import HostSql.Proofs.Grouping.Aggregation

/-!
# A host that serves an aggregate

While the engine runs an aggregate, all that changes is the state of the host. `Hosted` says so of a
computation: it gives an answer and leaves the world as it was but for the host. `Serves` is what
the engine needs to know of a host: where a group stands, each of the engine's questions runs one
closure as on its own and takes the group one step further.

> `session_serves`: a session serves its aggregates, at every depth of nesting.
> `Serves.traced`: with a trace of what the host is asked, it does so in the order of the questions.
-/

namespace HostSql

open Engine (World Hooks Reply Datum Hosted)

/-! ## Serving an aggregate -/

/-- Where a host stands with an aggregate: what it has been asked and has reported, the number of the
group that is next or under way, and the rows of that group so far with its state. -/
structure Standing where
  asked : List HostQuestion
  reports : Reports
  group : Nat
  count : Nat
  state : GroupState

namespace Standing

/-- What the engine has been given for the group. -/
def slot (s : Standing) : Option Nat := if s.count = 0 then none else some s.group

/-- After a row has been asked for. -/
def fed (s : Standing) (record : Nat) (args : List Datum) (ran : Aggregation.Ran) : Standing where
  asked := s.asked ++ [.request (.call record s.slot args)]
  reports := ran.reports ++ s.reports
  group := s.group
  count := s.count + 1
  state := ran.state

/-- After the group has ended. A group that has had no rows has no number, so its number is still
free. -/
def ended (s : Standing) (question : HostQuestion) (ran : Aggregation.Ran) : Standing where
  asked := s.asked ++ [question]
  reports := ran.reports ++ s.reports
  group := if s.count = 0 then s.group else s.group + 1
  count := 0
  state := []

end Standing

/-- A host serves an aggregate: each question runs one closure. -/
structure Serves {H : Type} (hooks : Hooks H) (record : Nat) (a : Aggregation)
    (At : Standing → H → Prop) : Prop where
  call : ∀ s w args, At s w.host →
    let ran := a.onRow args (s.count + 1) s.state
    Hosted (hooks.call record s.slot args) w ⟨some s.group, ran.answer⟩ (At (s.fed record args ran))
  finish : ∀ s w, At s w.host →
    let ran := a.atEnd s.count s.state
    Hosted (hooks.finish record s.slot) w ⟨s.slot, ran.answer⟩
      (At (s.ended (.request (.finish record s.slot)) ran))
  discard : ∀ s w, At s w.host → s.count ≠ 0 →
    Hosted (hooks.discard record s.group) w ()
      (At (s.ended (.discard record s.group) (a.atEnd s.count s.state)))

/-- With a trace of what the host is asked, the trace is as it stands. -/
theorem Serves.traced {H : Type} {hooks : Hooks H} {record : Nat} {a : Aggregation}
    {At : Standing → H → Prop} (h : Serves hooks record a At) (before : List HostQuestion) :
    Serves hooks.traced record a fun s t => At s t.env ∧ t.own = before ++ s.asked := by
  -- What a host does without a trace, it does with one, and the question is the last entry.
  have hquestion {α : Type} (question : HostQuestion) (x : StateM (World H) α)
      (t : World (Traced H)) (answer : α) (s s' : Standing) (hs : t.host.own = before ++ s.asked)
      (hasked : s'.asked = s.asked ++ [question]) (hx : Hosted x t.plain answer (At s')) :
      Hosted (answerTraced question x) t answer
        fun t => At s' t.env ∧ t.own = before ++ s'.asked := by
    obtain ⟨h', hrun, hAt⟩ := hx
    refine ⟨⟨h', t.host.own ++ [question]⟩, ?_, hAt, ?_⟩
    · show ((x.run t.plain).1, (x.run t.plain).2.noted (t.host.own ++ [question])) = _
      rw [hrun]
      rfl
    · rw [hs, hasked, List.append_assoc]
  constructor
  · exact fun s t args hs => hquestion _ _ t _ s _ hs.2 rfl (h.call s t.plain args hs.1)
  · exact fun s t hs => hquestion _ _ t _ s _ hs.2 rfl (h.finish s t.plain hs.1)
  · exact fun s t hs hcount => hquestion _ _ t _ s _ hs.2 rfl (h.discard s t.plain hs.1 hcount)

/-! ## Sessions -/

section Session

variable {record : Nat} {a : Aggregation} {nested : Hooks Host}

/-- A host keeps the groups of an aggregate, and has collected some events. -/
structure HoldsGroups (record : Nat) (a : Aggregation) (groups : GroupTable) (events : List Event)
    (h : Host) : Prop where
  record? : h.records.get? record = some (a.record groups)
  events : h.events = events

section Steps

variable {groups : GroupTable} {events : List Event} {w : SessionWorld}
  (h : HoldsGroups record a groups events w.host)

include h

theorem record?_hosted : Hosted ((ambient (native nested)).record? record) w
    (some (a.record groups)) (HoldsGroups record a groups events) :=
  ⟨w.host, Prod.ext h.record? rfl, h⟩

theorem groupsOf_hosted : Hosted (groupsOf (ambient (native nested)) record) w groups
    (HoldsGroups record a groups events) :=
  (record?_hosted h).bind fun _ hkept => .pure hkept

theorem setGroups_hosted (groups' : GroupTable) :
    Hosted ((ambient (native nested)).setGroups record groups') w ()
      (HoldsGroups record a groups' events) := by
  refine ⟨_, rfl, ?_, h.events⟩
  rw [Assoc.get?_update_self, h.record?]
  rfl

theorem groupId_hosted : Hosted (groupId (ambient (native nested)) record none) w
    (groups.lastId + 1) (HoldsGroups record a groups.allocate.2 events) :=
  (groupsOf_hosted h).bind fun _ hkept => (setGroups_hosted hkept _).bind fun _ hset => .pure hset

theorem takeGroup_hosted (id : Nat) : Hosted (takeGroup (ambient (native nested)) record id) w
    (groups.take id).1 (HoldsGroups record a (groups.take id).2 events) :=
  (groupsOf_hosted h).bind fun _ hkept => (setGroups_hosted hkept _).bind fun _ hset => .pure hset

theorem putBackGroup_hosted (id : Nat) (group : Group) :
    Hosted (putBackGroup (ambient (native nested)) record id group) w ()
      (HoldsGroups record a (groups.putBack id group) events) :=
  (groupsOf_hosted h).bind fun _ hkept => setGroups_hosted hkept _

/-- A closure of the aggregate runs as on its own. -/
theorem protect_hosted (nested : Hooks Host) (groups' : GroupTable) (classes : List StorageClass)
    (diagnostic : String) {closure : Program} (hclosure : closure.Local) (count : Nat) (state : GroupState) :
    let ran := a.run classes diagnostic closure count state
    ∃ frame, Hosted (protect (ambient (native nested)) (a.record groups') ⟨a.resultType, classes⟩
        diagnostic closure (some ⟨count, state⟩)) w frame
        (HoldsGroups record a groups (ran.reports ++ events)) ∧
      frame.pending.result = ran.answer ∧ frame.group = some ⟨count, ran.state⟩ := by
  intro ran
  have hlocal := protect_local nested (a.record groups') ⟨a.resultType, classes⟩ diagnostic
    hclosure (some ⟨count, state⟩) w [] (.refl w)
  obtain ⟨hanswer, log, hworld⟩ := hlocal
  obtain ⟨state', hgroup⟩ := protect_rows standalone (a.record groups') ⟨a.resultType, classes⟩
    diagnostic closure count state []
  have hran := a.run_eq groups' classes diagnostic closure count state
  refine ⟨_, ⟨_, Prod.ext hanswer hworld, h.record?, ?_⟩, congrArg Aggregation.Ran.answer hran.symm, ?_⟩
  · rw [← h.events]
    exact congrArg (· ++ w.host.events) (congrArg Aggregation.Ran.reports hran).symm
  · have hstate : ran.state = state' := by
      refine (congrArg Aggregation.Ran.state hran).trans ?_
      dsimp only
      rw [hgroup]
      rfl
    rw [hgroup, hstate]

/-- What is done for a row once its group has an id. -/
theorem row_hosted (groups' : GroupTable) {id count : Nat} {state : GroupState} (args : List Datum)
    (hgroup : (groups.take id).1 = ⟨count, state⟩) :
    let ran := a.onRow args (count + 1) state
    Hosted (do
        let group ← takeGroup (ambient (native nested)) record id
        let f ← protect (ambient (native nested)) (a.record groups')
          ⟨a.resultType, args.map Datum.storageClass⟩ functionFailed
          (a.step (args.map Datum.readText?)) (some group.nextRow)
        putBackGroup (ambient (native nested)) record id (f.group.getD group.nextRow)
        return (⟨some id, f.pending.result⟩ : Reply)) w ⟨some id, ran.answer⟩
      (HoldsGroups record a ((groups.take id).2.putBack id ⟨count + 1, ran.state⟩)
        (ran.reports ++ events)) := by
  intro ran
  refine (takeGroup_hosted h id).bind fun _ htaken => ?_
  rw [hgroup]
  obtain ⟨frame, hran, hresult, hframe⟩ := protect_hosted (w := { w with host := _ }) htaken nested
    groups' (args.map Datum.storageClass) functionFailed (a.stepLocal (args.map Datum.readText?))
    (count + 1) state
  refine hran.bind fun _ hdone => ?_
  rw [hframe, hresult]
  exact (putBackGroup_hosted hdone id _).bind fun _ hback => .pure hback

/-- What is done at the end of a group. -/
theorem ending_hosted {id count : Nat} {state : GroupState} (slot : Option Nat)
    (hid : slot.getD unusedSlot = id) (hgroup : (groups.take id).1 = ⟨count, state⟩) :
    let ran := a.atEnd count state
    Hosted (finishGroup (ambient (native nested)) record slot) w ⟨slot, ran.answer⟩
      (HoldsGroups record a (groups.take id).2 (ran.reports ++ events)) := by
  intro ran
  unfold finishGroup
  refine (record?_hosted h).bind fun _ hkept => ?_
  dsimp only [Aggregation.record]
  rw [hid]
  refine (takeGroup_hosted hkept id).bind fun _ htaken => ?_
  rw [hgroup]
  obtain ⟨frame, hran, hresult, _⟩ := protect_hosted (w := { w with host := _ }) htaken nested groups []
    finalizeFailed a.finalLocal count state
  refine hran.bind fun _ hdone => ?_
  rw [hresult]
  exact .pure hdone

end Steps

end Session

/-- Where a table of groups stands with the group that is next or under way. The number that stands
for a group without rows is no group's. -/
def GroupTable.At (groups : GroupTable) (s : Standing) : Prop :=
  groups.groups.get? unusedSlot = none ∧
    if s.count = 0 then groups.lastId + 1 = s.group ∧ s.state = []
    else groups.lastId = s.group ∧ groups.groups.get? s.group = some ⟨s.count, s.state⟩

/-- A session's host stands with an aggregate. -/
def Attending (record : Nat) (a : Aggregation) (events : List Event) (s : Standing) (h : Host) : Prop :=
  ∃ groups, groups.At s ∧ HoldsGroups record a groups (s.reports ++ events) h

section Tables

variable {groups : GroupTable} {s : Standing}

/-- A group that has had no rows is found empty. -/
theorem GroupTable.At.fresh (h : groups.At s) (hcount : s.count = 0) :
    s.slot = none ∧ s.group = groups.lastId + 1 ∧ s.state = [] := by
  obtain ⟨_, hat⟩ := h
  rw [if_pos hcount] at hat
  exact ⟨if_pos hcount, hat.1.symm, hat.2⟩

theorem GroupTable.At.begun (h : groups.At s) (hcount : s.count ≠ 0) :
    s.slot = some s.group ∧ groups.lastId = s.group ∧
      groups.groups.get? s.group = some ⟨s.count, s.state⟩ ∧ s.group ≠ unusedSlot := by
  obtain ⟨hunused, hat⟩ := h
  rw [if_neg hcount] at hat
  refine ⟨if_neg hcount, hat.1, hat.2, ?_⟩
  intro heq
  rw [heq, hunused] at hat
  exact nomatch hat.2

/-- After a row the group is in the table with its new count and state. -/
theorem GroupTable.putBack_at {groups' : GroupTable} {record : Nat} {args : List Datum}
    {ran : Aggregation.Ran} (hunused : groups'.groups.get? unusedSlot = none)
    (hgroup : s.group ≠ unusedSlot) (hlast : groups'.lastId = s.group) :
    (groups'.putBack s.group ⟨s.count + 1, ran.state⟩).At (s.fed record args ran) := by
  refine ⟨(Assoc.get?_set_ne _ hgroup _).trans hunused, ?_⟩
  have hcount : (s.fed record args ran).count ≠ 0 := Nat.succ_ne_zero s.count
  rw [if_neg hcount]
  exact ⟨hlast, Assoc.get?_set_self _ _ _⟩

theorem GroupTable.take_unused (h : groups.groups.get? unusedSlot = none) (id : Nat) :
    (groups.take id).2.groups.get? unusedSlot = none := by
  by_cases hid : id = unusedSlot
  · rw [hid]
    exact Assoc.get?_erase_self _ _
  · exact (Assoc.get?_erase_ne _ hid).trans h

/-- The end of a group takes it out of the table. -/
theorem GroupTable.At.ending (h : groups.At s) (question : HostQuestion) (ran : Aggregation.Ran) :
    (groups.take (s.slot.getD unusedSlot)).1 = ⟨s.count, s.state⟩ ∧
      (groups.take (s.slot.getD unusedSlot)).2.At (s.ended question ran) := by
  refine ⟨?_, take_unused h.1 _, ?_⟩
  · by_cases hcount : s.count = 0
    · obtain ⟨hslot, _, hstate⟩ := h.fresh hcount
      rw [hslot, hcount, hstate]
      exact congrArg (Option.getD · Group.empty) h.1
    · obtain ⟨hslot, _, hgroup, _⟩ := h.begun hcount
      rw [hslot]
      exact congrArg (Option.getD · Group.empty) hgroup
  · have hzero : (s.ended question ran).count = 0 := rfl
    rw [if_pos hzero]
    refine ⟨?_, rfl⟩
    show groups.lastId + 1 = if s.count = 0 then s.group else s.group + 1
    by_cases hcount : s.count = 0
    · rw [if_pos hcount, (h.fresh hcount).2.1]
    · rw [if_neg hcount, (h.begun hcount).2.1]

end Tables

/-- A session serves its aggregates. -/
theorem session_serves (depth record : Nat) (a : Aggregation) (events : List Event) :
    Serves (hooks (depth + 1)) record a (Attending record a events) where
  call := by
    intro s w args hs ran
    obtain ⟨groups, hat, hkeeping⟩ := hs
    have hfed (groups' : GroupTable) (h : Host) (hunused : groups'.groups.get? unusedSlot = none)
        (hgroup : s.group ≠ unusedSlot) (hlast : groups'.lastId = s.group)
        (hkept : HoldsGroups record a (groups'.putBack s.group ⟨s.count + 1, ran.state⟩)
          (ran.reports ++ (s.reports ++ events)) h) :
        Attending record a events (s.fed record args ran) h := by
      rw [← List.append_assoc] at hkept
      exact ⟨_, GroupTable.putBack_at hunused hgroup hlast, hkept⟩
    show Hosted (callFunction (ambient (native (hooks depth))) record s.slot args) w _ _
    unfold callFunction
    refine (record?_hosted hkeeping).bind fun _ hkept => ?_
    dsimp only [Aggregation.record]
    by_cases hcount : s.count = 0
    · obtain ⟨hslot, hgroup, hstate⟩ := hat.fresh hcount
      have hid : s.group ≠ unusedSlot := by
        rw [hgroup]
        exact Nat.succ_ne_zero _
      have htake : (groups.allocate.2.take s.group).1 = ⟨s.count, s.state⟩ := by
        rw [hcount, hstate, hgroup]
        exact congrArg (Option.getD · Group.empty) (Assoc.get?_set_self _ _ _)
      have hunused : groups.allocate.2.groups.get? unusedSlot = none :=
        (Assoc.get?_set_ne _ (hgroup ▸ hid) _).trans hat.1
      rw [hslot]
      refine (groupId_hosted hkept).bind fun _ hbegun => ?_
      rw [← hgroup]
      exact (row_hosted (w := { w with host := _ }) hbegun groups args htake).mono fun h hdone =>
        hfed _ h (GroupTable.take_unused hunused _) hid hgroup.symm hdone
    · obtain ⟨hslot, hlast, hgroup, hid⟩ := hat.begun hcount
      have htake : (groups.take s.group).1 = ⟨s.count, s.state⟩ :=
        congrArg (Option.getD · Group.empty) hgroup
      rw [hslot]
      refine (Hosted.pure hkept).bind fun _ hkept => ?_
      exact (row_hosted (w := { w with host := _ }) hkept groups args htake).mono fun h hdone =>
        hfed _ h (GroupTable.take_unused hat.1 _) hid hlast hdone
  finish := by
    intro s w hs ran
    obtain ⟨groups, hat, hkeeping⟩ := hs
    obtain ⟨htake, hended⟩ := hat.ending (.request (.finish record s.slot)) ran
    refine (ending_hosted hkeeping s.slot rfl htake).mono fun h hdone => ?_
    rw [← List.append_assoc] at hdone
    exact ⟨_, hended, hdone⟩
  discard := by
    intro s w hs hcount
    obtain ⟨groups, hat, hkeeping⟩ := hs
    obtain ⟨hslot, _, _, _⟩ := hat.begun hcount
    obtain ⟨htake, hended⟩ := hat.ending (.discard record s.group) (a.atEnd s.count s.state)
    rw [hslot] at htake hended
    show Hosted (discardGroup (ambient (native (hooks depth))) record s.group) w _ _
    unfold discardGroup
    refine (ending_hosted hkeeping (some s.group) rfl htake).bind fun _ hdone => .pure ?_
    rw [← List.append_assoc] at hdone
    exact ⟨_, hended, hdone⟩

end HostSql
