import HostSql.Proofs.Grouping.Classes
import HostSql.Proofs.Grouping.Service

/-!
# Feeding a served aggregate

The engine feeds the rows of a group one by one, each to the step, and in the end asks for the
result. When a step fails it gives the group up, and the failure is what comes out. With a host that
serves the aggregate, what comes out is `Aggregation.value` and what runs is `Aggregation.course`.

> `runGroup_served`: the rows of one group.
> `Cursor.next_groups`: the next group of a grouping.
> `Cursor.start_total`: all rows of a source, also if there are none.
-/

namespace HostSql

open Engine

/-! ## Where a group has been taken -/

namespace Standing

variable (a : Aggregation) (record : Nat)

theorem slot_fed (s : Standing) (args : List Datum) (ran : Aggregation.Ran) :
    (s.fed record args ran).slot = some s.group := if_neg (Nat.succ_ne_zero s.count)

theorem group_ended (s : Standing) (h : s.count ≠ 0) (question : HostQuestion)
    (ran : Aggregation.Ran) : (s.ended question ran).group = s.group + 1 := if_neg h

/-- After all rows of a group, or those up to the first that fails, and its end. -/
def served (s : Standing) : List (List Datum) → Standing
  | [] => s.ended (.request (.finish record s.slot)) (a.atEnd s.count s.state)
  | args :: rest =>
    let ran := a.onRow args (s.count + 1) s.state
    let s' := s.fed record args ran
    match ran.answer with
    | .ok _ => s'.served rest
    | .error _ => s'.ended (.discard record s.group) (a.atEnd (s.count + 1) ran.state)

/-- What the engine asks for a run of a closure. -/
def question (group : Nat) : Aggregation.ClosureRun → HostQuestion
  | .row args count _ => .request (.call record (if count = 1 then none else some group) args)
  | .ending false count _ => .request (.finish record (if count = 0 then none else some group))
  | .ending true _ _ => .discard record group

/-- The closures that run for a group are those of its course. -/
structure Followed (s s' : Standing) (course : List Aggregation.ClosureRun) : Prop where
  asked : s'.asked = s.asked ++ course.map (question record s.group)
  reports : s'.reports = course.reverse.flatMap a.reports ++ s.reports
  ended : s'.count = 0 ∧ s'.state = []

theorem served_follows (s : Standing) (rows : List (List Datum)) :
    Followed a record s (s.served a record rows) (a.courseFrom s.count s.state rows) := by
  induction rows generalizing s with
  | nil =>
    refine ⟨rfl, ?_, rfl, rfl⟩
    show _ = [Aggregation.ClosureRun.ending false s.count s.state].flatMap a.reports ++ s.reports
    rw [List.flatMap_singleton]
    rfl
  | cons args rest ih =>
    have hcall : HostQuestion.request (.call record s.slot args) =
        question record s.group (.row args (s.count + 1) s.state) := by
      unfold question slot
      simp only [Nat.add_eq_right]
    rw [served]
    cases h : (a.onRow args (s.count + 1) s.state).answer with
    | ok d =>
      have hrest := ih (s.fed record args (a.onRow args (s.count + 1) s.state))
      rw [Aggregation.courseFrom_ok h]
      refine ⟨?_, ?_, hrest.ended⟩
      · refine hrest.asked.trans ?_
        show (s.asked ++ [_]) ++ _ = _
        rw [hcall, List.append_assoc, List.map_cons]
        rfl
      · refine hrest.reports.trans ?_
        rw [List.reverse_cons, List.flatMap_append, List.flatMap_singleton, List.append_assoc]
        rfl
    | error message =>
      rw [Aggregation.courseFrom_error h]
      refine ⟨?_, ?_, rfl, rfl⟩
      · show (s.asked ++ [_]) ++ [_] = _
        rw [hcall, List.append_assoc]
        rfl
      · show _ = [Aggregation.ClosureRun.ending true (s.count + 1)
          (a.onRow args (s.count + 1) s.state).state, .row args (s.count + 1) s.state].flatMap _ ++ _
        rw [List.flatMap_cons, List.flatMap_singleton, List.append_assoc]
        rfl

/-- A group that has had rows leaves its number behind. -/
theorem served_group (s : Standing) (rows : List (List Datum)) (h : s.count ≠ 0 ∨ rows ≠ []) :
    (s.served a record rows).group = s.group + 1 := by
  induction rows generalizing s with
  | nil => exact group_ended s (h.resolve_right (· rfl)) _ _
  | cons args rest ih =>
    have hcount : (s.fed record args (a.onRow args (s.count + 1) s.state)).count ≠ 0 :=
      Nat.succ_ne_zero s.count
    rw [served]
    cases (a.onRow args (s.count + 1) s.state).answer with
    | ok d => exact ih _ (.inl hcount)
    | error message => exact group_ended (s.fed record args _) hcount _ _

/-- The questions for some groups, which are numbered one after the other. -/
def questions (first : Nat) (groups : List (List (List Datum))) : List HostQuestion :=
  (groups.zipIdx first).flatMap fun (rows, group) => (a.course rows).map (question record group)

/-- The runs for some groups, one group after the other. Only the last of them may have had no rows. -/
theorem servedAll_follows (s : Standing) (groups : List (List (List Datum)))
    (hgroups : ∀ rows ∈ groups.dropLast, rows ≠ []) (hstart : s.count = 0 ∧ s.state = []) :
    let s' := groups.foldl (served a record) s
    s'.asked = s.asked ++ questions a record s.group groups ∧
      s'.reports = (groups.flatMap a.course).reverse.flatMap a.reports ++ s.reports := by
  induction groups generalizing s with
  | nil => exact ⟨(List.append_nil _).symm, rfl⟩
  | cons rows rest ih =>
    have hserved := served_follows a record s rows
    rw [hstart.1, hstart.2] at hserved
    have hquestions : questions a record s.group (rows :: rest) =
        (a.course rows).map (question record s.group) ++ questions a record (s.group + 1) rest := rfl
    cases rest with
    | nil =>
      refine ⟨hserved.asked.trans ?_, hserved.reports.trans ?_⟩
      · rw [hquestions]
        exact congrArg _ (List.append_nil _).symm
      · rw [List.flatMap_singleton]
        rfl
    | cons next rest =>
      rw [List.dropLast_cons_cons] at hgroups
      have hgroup := served_group a record s rows (.inr (hgroups rows List.mem_cons_self))
      obtain ⟨hasked, hreports⟩ := ih (s.served a record rows)
        (fun other h => hgroups other (List.mem_cons_of_mem rows h)) hserved.ended
      refine ⟨hasked.trans ?_, hreports.trans ?_⟩
      · rw [hserved.asked, hgroup, hquestions, List.append_assoc]
        rfl
      · have hruns : (rows :: next :: rest).flatMap a.course =
            a.course rows ++ (next :: rest).flatMap a.course := List.flatMap_cons
        rw [hserved.reports, hruns, List.reverse_append, List.flatMap_append, List.append_assoc]
        rfl

end Standing

namespace Engine

variable {H : Type} {record : Nat} {a : Aggregation} {At : Standing → H → Prop} {scope : Scope H}

/-- The values of some columns of a row. -/
def argsOf (columns : List Nat) (row : Row) : List Datum := columns.map fun i => row.getD i .null

theorem evalAll_columns (scope : Scope H) (row : Row) (columns : List Nat) (w : World H) :
    Unaided (Term.evalAll scope row (columns.map .column)) w (argsOf columns row) := by
  induction columns with
  | nil =>
    simp only [List.map_nil, Term.evalAll]
    exact .return_run
  | cons i columns ih =>
    simp only [List.map_cons, Term.evalAll, Term.eval]
    exact Unaided.return_run.bind (ih.bind .return_run)

/-! ## One group -/

/-- A call of an aggregate on some columns. -/
def callOf (record : Nat) (columns : List Nat) : AggregateCall :=
  ⟨.host record, columns.map .column, false⟩

/-- A call as the engine has it while the host stands somewhere with the group. -/
def feedingAt (record : Nat) (columns : List Nat) (s : Standing) : Feeding :=
  ⟨callOf record columns, .host record s.slot, []⟩

theorem begin_eq {s : Standing} (columns : List Nat) (h : s.count = 0) :
    Feeding.begin (callOf record columns) = feedingAt record columns s := by
  have hslot : s.slot = none := if_pos h
  unfold feedingAt
  rw [hslot]
  rfl

/-- The failure of an answer. -/
def failureOf : Except String Datum → Option Fault
  | .ok _ => none
  | .error message => some (.general message)

/-- The answer of a group as a row of results. -/
def totalsOf : Except String Datum → Except Fault Row
  | .ok d => .ok [d]
  | .error message => .error (.general message)

section Group

variable (h : Serves scope.hooks record a At) (columns : List Nat) {s : Standing} {w : World H}
  (hs : At s w.host)

include h hs

/-- One row runs the step once. -/
theorem feedAll_served (row : Row) :
    let ran := a.onRow (argsOf columns row) (s.count + 1) s.state
    Hosted (Feeding.feedAll scope row [feedingAt record columns s]) w
      ([feedingAt record columns (s.fed record (argsOf columns row) ran)], failureOf ran.answer)
      (At (s.fed record (argsOf columns row) ran)) := by
  intro ran
  have htake (w : World H) (hs : At s w.host) :
      Hosted (Feeding.take scope (feedingAt record columns s) (argsOf columns row)) w
      (feedingAt record columns (s.fed record (argsOf columns row) ran), failureOf ran.answer)
      (At (s.fed record (argsOf columns row) ran)) := by
    unfold Feeding.take
    refine (h.call s w (argsOf columns row) hs).bind fun h' hfed => ?_
    have hfeeding : feedingAt record columns (s.fed record (argsOf columns row) ran) =
        { feedingAt record columns s with total := .host record (some s.group) } := by
      unfold feedingAt
      rw [Standing.slot_fed]
    rw [hfeeding]
    cases hanswer : ran.answer with
    | ok d => exact .pure hfed
    | error message => exact .pure hfed
  have hfeed : Hosted (Feeding.feed scope row (feedingAt record columns s)) w
      (feedingAt record columns (s.fed record (argsOf columns row) ran), failureOf ran.answer)
      (At (s.fed record (argsOf columns row) ran)) := by
    unfold Feeding.feed
    refine ((evalAll_columns scope row columns w).hosted hs).bind fun h' hs' => ?_
    exact htake _ hs'
  unfold Feeding.feedAll
  refine hfeed.bind fun h' hfed => ?_
  cases hanswer : ran.answer with
  | ok d => exact .pure hfed
  | error message => exact .pure hfed

/-- Giving up a group that has begun runs the finalizer once. -/
theorem abandon_served (hcount : s.count ≠ 0) :
    Hosted (Feeding.abandon scope [feedingAt record columns s]) w ()
      (At (s.ended (.discard record s.group) (a.atEnd s.count s.state))) := by
  have hslot : s.slot = some s.group := if_neg hcount
  unfold Feeding.abandon feedingAt
  rw [hslot]
  exact (h.discard s w hs hcount).bind fun h' hended => .pure hended

/-- The end of a group runs the finalizer once. -/
theorem concludeAll_served :
    let ran := a.atEnd s.count s.state
    Hosted (Feeding.concludeAll scope [feedingAt record columns s]).run w (totalsOf ran.answer)
      (At (s.ended (.request (.finish record s.slot)) ran)) := by
  intro ran
  have hconclude : Hosted ((feedingAt record columns s).conclude scope).run w
      (ran.answer.mapError .general)
      (At (s.ended (.request (.finish record s.slot)) ran)) := by
    unfold Feeding.conclude feedingAt
    dsimp only
    refine Hosted.bind_ok (Hosted.lift (h.finish s w hs)) fun _ hended => ?_
    refine Hosted.bind_ok (.return_run hended) fun h' hended => ?_
    dsimp only
    cases ran.answer with
    | ok d => exact .return_run hended
    | error message => exact ⟨h', rfl, hended⟩
  unfold Feeding.concludeAll
  cases hanswer : ran.answer with
  | ok d =>
    rw [hanswer] at hconclude
    refine (Hosted.attempt hconclude).bind_ok fun h' hended => ?_
    unfold Feeding.concludeAll
    exact (Hosted.return_run hended).bind_ok fun h' hended => .return_run hended
  | error message =>
    rw [hanswer] at hconclude
    refine (Hosted.attempt hconclude).bind_ok fun h' hended => ?_
    exact ⟨h', rfl, hended⟩

end Group

/-- A group is served to its end, or to the first row whose step fails. -/
theorem runGroup_served (h : Serves scope.hooks record a At) (columns : List Nat) (rows : List Row)
    {s : Standing} {w : World H} (hs : At s w.host) (hw : Undisturbed scope.connection w) :
    Hosted (runGroup scope [feedingAt record columns s] rows).run w
      (totalsOf (a.valueFrom s.count s.state (rows.map (argsOf columns))))
      (At (s.served a record (rows.map (argsOf columns)))) := by
  induction rows generalizing s w with
  | nil => exact concludeAll_served h columns hs
  | cons row rows ih =>
    have hfed := feedAll_served h columns hs row
    have hcount : (s.fed record (argsOf columns row)
        (a.onRow (argsOf columns row) (s.count + 1) s.state)).count ≠ 0 := Nat.succ_ne_zero s.count
    unfold runGroup
    refine Hosted.bind_ok hfed.lift fun h' hs' => ?_
    refine Hosted.bind_ok ((checkInterrupt_undisturbed (hw.withHost h')).hosted hs').attempt fun h' hs' => ?_
    rw [List.map_cons, Standing.served]
    cases hanswer : (a.onRow (argsOf columns row) (s.count + 1) s.state).answer with
    | ok d =>
      rw [Aggregation.valueFrom_ok hanswer]
      exact ih hs' hw
    | error message =>
      rw [Aggregation.valueFrom_error hanswer]
      refine Hosted.bind_ok (abandon_served h columns hs' hcount).lift fun h' hended => ?_
      exact ⟨h', rfl, hended⟩

end Engine

end HostSql
