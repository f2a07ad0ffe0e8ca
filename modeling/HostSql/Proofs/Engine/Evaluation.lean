import HostSql.Engine.Cursor
import HostSql.Proofs.Engine.Conduct

/-!
# Evaluation is faithful

Terms, groups and plans are where the engine asks its host for functions. What they ask explains how
they end: a failed reply is thrown at once, and on its way out nothing is asked for, since groups
that have begun are only given up. The proofs follow the evaluators, one case for each constructor.

> `UsesReplies`: replies to calls and to the ends of groups are values; those to rows are not.
>
> `Cursor.next_orderly`: what is asked for a row explains why there is none.
-/

namespace HostSql.Engine

variable {H : Type} {hooks : Hooks H} {may : Licence}

/-! ## Reading the world -/

theorem connectionOf_calm (c : Nat) :
    CalmRun may (connectionOf (H := H) c) (connectionOf (H := Ledger hooks) c) := by
  unfold connectionOf
  refine .get_bind fun t => ?_
  rw [World.plain_connections]
  cases t.connections.get? c with
  | some conn => exact .pure conn
  | none => exact .throw _

theorem currentDatabase_calm (c : Nat) :
    CalmRun may (currentDatabase (H := H) c) (currentDatabase (H := Ledger hooks) c) := by
  unfold currentDatabase
  refine (connectionOf_calm c).bind fun conn => ?_
  cases conn.draft with
  | some db => exact .pure db
  | none =>
    refine .get_bind fun t => ?_
    rw [World.plain_volumes]
    cases t.volumes.get? conn.volume with
    | some v => exact .ofExcept _
    | none => exact .pure _

/-! ## Terms -/

/-- A call of a host function asks for just that. -/
theorem callHost_orderly (scope : Scope H) (record : Nat) (args : List Datum) :
    OrderlyRun may (callHost scope record args) (callHost scope.noting record args) := by
  refine OrderlyRun.ask_bind scope.hooks (.call record none args) ?_ ?_
  · intro reply d h
    rw [h]
    exact .pure d
  · intro reply message h
    rw [h]
    exact ⟨rfl, rfl⟩

mutual

theorem Term.eval_orderly (scope : Scope H) (row : Row) :
    ∀ t : Term, OrderlyRun may (t.eval scope row) (t.eval scope.noting row)
  | .value d => by
    simp only [Term.eval]
    exact .pure d
  | .column i => by
    simp only [Term.eval]
    exact .pure _
  | .negate e => by
    simp only [Term.eval]
    exact (e.eval_orderly scope row).bind fun d => .pure _
  | .bitNot e => by
    simp only [Term.eval]
    exact (e.eval_orderly scope row).bind fun d => .pure _
  | .not e => by
    simp only [Term.eval]
    exact (e.eval_orderly scope row).bind fun d => .pure _
  | .isNull e => by
    simp only [Term.eval]
    exact (e.eval_orderly scope row).bind fun d => .pure _
  | .and l r => by
    simp only [Term.eval]
    exact (l.eval_orderly scope row).bind fun a =>
      (r.eval_orderly scope row).bind fun b => .pure _
  | .or l r => by
    simp only [Term.eval]
    exact (l.eval_orderly scope row).bind fun a =>
      (r.eval_orderly scope row).bind fun b => .pure _
  | .arithmetic op l r => by
    simp only [Term.eval]
    exact (l.eval_orderly scope row).bind fun a =>
      (r.eval_orderly scope row).bind fun b => .pure _
  | .compare op rule l r => by
    simp only [Term.eval]
    exact (l.eval_orderly scope row).bind fun a =>
      (r.eval_orderly scope row).bind fun b => .pure _
  | .same negated rule l r => by
    simp only [Term.eval]
    exact (l.eval_orderly scope row).bind fun a =>
      (r.eval_orderly scope row).bind fun b => .pure _
  | .between low high e l h => by
    simp only [Term.eval]
    exact (e.eval_orderly scope row).bind fun d => (l.eval_orderly scope row).bind fun a =>
      (h.eval_orderly scope row).bind fun b => .pure _
  | .among rule e items => by
    simp only [Term.eval]
    exact (e.eval_orderly scope row).bind fun d =>
      (Term.evalAll_orderly scope row items).bind fun ds => .pure _
  | .choice items => by
    simp only [Term.eval]
    exact Term.evalChoice_orderly scope row items
  | .select rule operand items => by
    simp only [Term.eval]
    exact (operand.eval_orderly scope row).bind fun d =>
      Term.evalSelect_orderly scope row rule d items
  | .coalesce items => by
    simp only [Term.eval]
    exact Term.evalFirst_orderly scope row items
  | .cast a e => by
    simp only [Term.eval]
    exact (e.eval_orderly scope row).bind fun d => .pure _
  | .scalar f args => by
    simp only [Term.eval]
    refine (Term.evalAll_orderly scope row args).bind fun ds =>
      (connectionOf_calm scope.connection).orderly.bind fun conn => ?_
    cases f.eval conn.counters ds with
    | ok d => exact .pure d
    | error message => exact .throw _
  | .host record args => by
    simp only [Term.eval]
    exact (Term.evalAll_orderly scope row args).bind fun ds => callHost_orderly scope record ds

theorem Term.evalAll_orderly (scope : Scope H) (row : Row) :
    ∀ ts : List Term, OrderlyRun may (Term.evalAll scope row ts) (Term.evalAll scope.noting row ts)
  | [] => by
    simp only [Term.evalAll]
    exact .pure []
  | t :: ts => by
    simp only [Term.evalAll]
    exact (t.eval_orderly scope row).bind fun d =>
      (Term.evalAll_orderly scope row ts).bind fun ds => .pure _

theorem Term.evalChoice_orderly (scope : Scope H) (row : Row) : ∀ items : List Term,
    OrderlyRun may (Term.evalChoice scope row items) (Term.evalChoice scope.noting row items)
  | [] => by
    simp only [Term.evalChoice]
    exact .pure _
  | [other] => by
    simp only [Term.evalChoice]
    exact other.eval_orderly scope row
  | c :: v :: rest => by
    simp only [Term.evalChoice]
    refine (c.eval_orderly scope row).bind fun d => ?_
    split
    · exact v.eval_orderly scope row
    · exact Term.evalChoice_orderly scope row rest

theorem Term.evalSelect_orderly (scope : Scope H) (row : Row) (rule : CompareRule)
    (operand : Datum) : ∀ items : List Term,
    OrderlyRun may (Term.evalSelect scope row rule operand items)
      (Term.evalSelect scope.noting row rule operand items)
  | [] => by
    simp only [Term.evalSelect]
    exact .pure _
  | [other] => by
    simp only [Term.evalSelect]
    exact other.eval_orderly scope row
  | c :: v :: rest => by
    simp only [Term.evalSelect]
    refine (c.eval_orderly scope row).bind fun d => ?_
    split
    · exact v.eval_orderly scope row
    · exact Term.evalSelect_orderly scope row rule operand rest

theorem Term.evalFirst_orderly (scope : Scope H) (row : Row) : ∀ items : List Term,
    OrderlyRun may (Term.evalFirst scope row items) (Term.evalFirst scope.noting row items)
  | [] => by
    simp only [Term.evalFirst]
    exact .pure _
  | t :: ts => by
    simp only [Term.evalFirst]
    refine (t.eval_orderly scope row).bind fun d => ?_
    split
    · exact Term.evalFirst_orderly scope row ts
    · exact .pure d

end

theorem Term.isTrue_orderly (scope : Scope H) (row : Row) (t : Term) :
    OrderlyRun may (t.isTrue scope row) (t.isTrue scope.noting row) := by
  induction t using Term.isTrue.induct with
  | case1 l r hl hr =>
    simp only [Term.isTrue]
    refine hl.bind fun b => ?_
    split
    · exact hr
    · exact .pure false
  | case2 l r hl hr =>
    simp only [Term.isTrue]
    refine hl.bind fun b => ?_
    split
    · exact .pure true
    · exact hr
  | case3 t hand hor =>
    rw [Term.isTrue, Term.isTrue]
    · exact (t.eval_orderly scope row).bind fun d => .pure _
    all_goals first | exact hand | exact hor

/-! ## Groups -/

theorem Feeding.take_orderly (scope : Scope H) (f : Feeding) (ds : List Datum) :
    Orderly may Prod.snd (f.take scope ds) (f.take scope.noting ds) := by
  obtain ⟨call, total, seen⟩ := f
  unfold Feeding.take
  cases total with
  | builtin a => exact .pure _ _
  | host record slot =>
    refine .ask_bind scope.hooks (.call record slot ds) ?_ ?_
    · intro reply d h
      rw [h]
      exact .pure _ _
    · intro reply message h
      rw [h]
      exact .pure rfl

theorem Feeding.feed_orderly (scope : Scope H) (row : Row) (f : Feeding) :
    Orderly may Prod.snd (f.feed scope row) (f.feed scope.noting row) := by
  unfold Feeding.feed
  refine Orderly.bind (Term.evalAll_orderly scope row f.call.args) ?_ ?_
  · intro result h
    cases result with
    | error fault => exact nomatch h
    | ok ds =>
      dsimp only
      split
      · exact f.take_orderly scope ds
      split
      · exact .pure _ _
      · exact Feeding.take_orderly scope _ ds
  · intro result fault h
    cases result with
    | error fault' => exact .pure h
    | ok ds => exact nomatch h

theorem Feeding.feedAll_orderly (scope : Scope H) (row : Row) (fs : List Feeding) :
    Orderly may Prod.snd (Feeding.feedAll scope row fs) (Feeding.feedAll scope.noting row fs) := by
  induction fs with
  | nil => exact .pure _ _
  | cons f rest ih =>
    unfold Feeding.feedAll
    refine (f.feed_orderly scope row).bind ?_ ?_
    · rintro ⟨f, fault?⟩ h
      cases h
      exact ih.map (fun result => (f :: result.1, result.2)) fun _ => rfl
    · rintro ⟨f, fault?⟩ fault h
      cases h
      exact .pure rfl

/-- Groups that are given up are no business of the ledger. -/
theorem Feeding.abandon_calm (scope : Scope H) (fs : List Feeding) :
    Calm may (Feeding.abandon scope fs) (Feeding.abandon scope.noting fs) := by
  induction fs with
  | nil => exact .pure ()
  | cons f rest ih =>
    obtain ⟨call, total, seen⟩ := f
    unfold Feeding.abandon
    cases total with
    | builtin a => exact (Calm.pure ()).bind fun _ => ih
    | host record slot =>
      cases slot with
      | none => exact (Calm.pure ()).bind fun _ => ih
      | some id => exact (Calm.discard record id).bind fun _ => ih

theorem Feeding.conclude_orderly (scope : Scope H) (f : Feeding) :
    OrderlyRun may (f.conclude scope) (f.conclude scope.noting) := by
  obtain ⟨call, total, seen⟩ := f
  unfold Feeding.conclude
  cases total with
  | builtin a =>
    refine (OrderlyRun.pure a.finish).bind fun result => ?_
    cases result with
    | ok d => exact .pure d
    | error message => exact .throw _
  | host record slot =>
    refine OrderlyRun.ask_result_bind scope.hooks (.finish record slot) (fun d => ?_)
      fun message => ?_
    · exact .pure d
    · exact ⟨rfl, rfl⟩

/-- A failure is passed on when the groups that have begun are given up. -/
theorem Feeding.abandon_resigns {α : Type} (scope : Scope H) (fs : List Feeding) (fault : Fault) :
    Resigns may fault failure?
      (do
        Feeding.abandon scope fs
        throw fault : Run H α).run
      (do
        Feeding.abandon scope.noting fs
        throw fault : Run (Ledger scope.hooks) α).run :=
  .calm_bind (Feeding.abandon_calm scope fs) fun _ =>
    .throw

theorem Feeding.concludeAll_orderly (scope : Scope H) (fs : List Feeding) :
    OrderlyRun may (Feeding.concludeAll scope fs) (Feeding.concludeAll scope.noting fs) := by
  induction fs with
  | nil => exact .pure []
  | cons f rest ih =>
    unfold Feeding.concludeAll
    refine (f.conclude_orderly scope).attempt_bind (fun d => ?_) fun fault => ?_
    · exact ih.bind fun ds => .pure _
    · exact Feeding.abandon_resigns scope rest fault

theorem checkInterrupt_calm (scope : Scope H) :
    CalmRun may (checkInterrupt scope) (checkInterrupt scope.noting) := by
  unfold checkInterrupt
  refine (connectionOf_calm scope.connection).bind fun conn => ?_
  split
  · exact .throw _
  · exact .pure ()

theorem runGroup_orderly (scope : Scope H) (rows : List Row) : ∀ fs : List Feeding,
    OrderlyRun may (runGroup scope fs rows) (runGroup scope.noting fs rows) := by
  induction rows with
  | nil =>
    intro fs
    unfold runGroup
    exact Feeding.concludeAll_orderly scope fs
  | cons row rest ih =>
    intro fs
    unfold runGroup
    refine OrderlyRun.lift_bind (Feeding.feedAll_orderly scope row fs) ?_ ?_
    · rintro ⟨fs, fault?⟩ h
      cases h
      refine (checkInterrupt_calm scope).attempt.orderly.bind fun result => ?_
      cases result with
      | ok _ => exact ih fs
      | error fault => exact (Feeding.abandon_resigns scope fs fault).orderly
    · -- the row has failed, and an interruption does not change with what
      rintro ⟨fs, fault?⟩ fault h
      cases h
      exact Resigns.attempt_bind (checkInterrupt_calm scope) fun result =>
        Feeding.abandon_resigns scope fs fault

/-! ## Replies -/

/-- A request and what is made of its reply. -/
theorem run_lift_bind {α β : Type} (x : StateM (World H) α) (f : α → Run H β) (w : World H) :
    ((liftM x : Run H α) >>= f).run.run w = (f (x.run w).1).run.run (x.run w).2 :=
  rfl

/-- A call ends with its reply. -/
theorem callHost_result (scope : Scope H) (record : Nat) (ds : List Datum) (w : World H) :
    ((callHost scope record ds).run.run w).1 =
      ((scope.hooks.call record none ds).run w).1.result.mapError .general := by
  unfold callHost
  rw [run_lift_bind]
  generalize (scope.hooks.call record none ds).run w = out
  obtain ⟨⟨slot, result⟩, w'⟩ := out
  cases result <;> rfl

/-- What the engine makes of replies. Those to calls and to the ends of groups are values or
failures; a row of a group has no value. -/
structure UsesReplies (hooks : Hooks H) : Prop where
  /-- A call whose arguments are known has the value of its reply, or fails with it. -/
  scalar : ∀ connection statement row record args (w w' : World H) ds,
    let scope : Scope H := ⟨connection, statement, hooks⟩
    (Term.evalAll scope row args).run.run w = (.ok ds, w') →
      (((Term.host record args).eval scope row).run.run w).1 =
        ((hooks.call record none ds).run w').1.result.mapError .general
  /-- A group has the value of its end, or fails with it. -/
  group : ∀ connection statement call record slot seen (w : World H),
    ((Feeding.conclude ⟨connection, statement, hooks⟩
        ⟨call, .host record slot, seen⟩).run.run w).1 =
      ((hooks.finish record slot).run w).1.result.mapError .general
  /-- After a row only the group's slot is kept, and the failure if it was one. -/
  row : ∀ connection statement call record slot seen ds (w : World H),
    let reply := ((hooks.call record slot ds).run w).1
    ((Feeding.take ⟨connection, statement, hooks⟩ ⟨call, .host record slot, seen⟩ ds).run w).1 =
      (⟨call, .host record reply.slot, seen⟩, reply.fault?)

theorem usesReplies (hooks : Hooks H) : UsesReplies hooks := by
  refine ⟨?_, ?_, ?_⟩
  · -- once the arguments are known only the call is left
    intro connection statement row record args w w' ds scope hargs
    have heval : ((Term.host record args).eval scope row).run.run w =
        (callHost scope record ds).run.run w' := by
      simp only [Term.eval, ExceptT.run_bind, run_bind, hargs]
    rw [heval]
    exact callHost_result scope record ds w'
  · intro connection statement call record slot seen w
    unfold Feeding.conclude
    dsimp only
    rw [run_lift_bind]
    generalize (hooks.finish record slot).run w = out
    obtain ⟨⟨slot', result⟩, w'⟩ := out
    cases result <;> rfl
  · intro connection statement call record slot seen ds w
    unfold Feeding.take
    dsimp only
    rw [run_bind]
    generalize (hooks.call record slot ds).run w = out
    obtain ⟨⟨slot', result⟩, w'⟩ := out
    cases result <;> rfl

/-! ## Plans -/

theorem checkTripped_calm (scope : Scope H) :
    CalmRun may (checkTripped scope) (checkTripped scope.noting) := by
  unfold checkTripped
  refine .get_bind fun t => ?_
  rw [World.plain_statements, Scope.noting_statement]
  cases t.statements.get? scope.statement with
  | none => exact .pure ()
  | some s =>
    dsimp only
    split
    · exact .throw _
    · exact .pure ()

theorem rowCount_orderly (scope : Scope H) (t : Term) :
    OrderlyRun may (rowCount scope t) (rowCount scope.noting t) := by
  unfold rowCount
  refine (t.eval_orderly scope []).bind fun d => ?_
  cases Affinity.apply .integer d with
  | integer n => exact .pure _
  | null => exact .throw _
  | real x => exact .throw _
  | text bytes => exact .throw _
  | blob bytes => exact .throw _

theorem nextOfTable_calm (scope : Scope H) (root width : Nat) (after : Option Int64) :
    CalmRun may (nextOfTable scope root width after) (nextOfTable scope.noting root width after) := by
  unfold nextOfTable
  refine (checkTripped_calm scope).bind fun _ =>
    (currentDatabase_calm scope.connection).bind fun db => ?_
  cases db.rowAfter? root after with
  | none => exact .pure none
  | some found => exact .pure _

theorem Cursor.deliver_calm (all : Bool) (step : Plan) (queue seen : List Row) :
    CalmRun may (Cursor.deliver (H := H) all step queue seen)
      (Cursor.deliver (H := Ledger hooks) all step queue seen) := by
  induction queue with
  | nil => exact .pure none
  | cons r rest ih =>
    unfold Cursor.deliver
    split
    · exact ih
    · exact .pure _

theorem exhausted_calm {α : Type} :
    CalmRun may (exhausted : Run H α) (exhausted : Run (Ledger hooks) α) := .throw _

mutual

theorem Cursor.next_orderly (scope : Scope H) : ∀ (fuel : Nat) (c : Cursor),
    OrderlyRun may (c.next scope fuel) (c.next scope.noting fuel)
  | 0, c => by
    simp only [Cursor.next]
    exact exhausted_calm.orderly
  | _ + 1, .done => by
    simp only [Cursor.next]
    exact .pure none
  | _ + 1, .rows [] => by
    simp only [Cursor.next]
    exact .pure none
  | _ + 1, .rows (r :: rest) => by
    simp only [Cursor.next]
    exact .pure _
  | _ + 1, .values [] => by
    simp only [Cursor.next]
    exact .pure none
  | _ + 1, .values (ts :: rest) => by
    simp only [Cursor.next]
    exact (Term.evalAll_orderly scope [] ts).bind fun r => .pure _
  | _ + 1, .scan root width after => by
    simp only [Cursor.next]
    exact (nextOfTable_calm scope root width (some after)).orderly
  | fuel + 1, .loop source => by
    simp only [Cursor.next]
    exact (checkInterrupt_calm scope).orderly.bind fun _ =>
      Cursor.nextOfLoop_orderly scope fuel source
  | fuel + 1, .join row left right again => by
    simp only [Cursor.next]
    refine (Cursor.next_orderly scope fuel right).bind fun found => ?_
    cases found with
    | none => exact Cursor.nextOfJoin_orderly scope fuel left again
    | some found => exact .pure _
  | fuel + 1, .filter condition source => by
    simp only [Cursor.next]
    refine (Cursor.next_orderly scope fuel source).bind fun found => ?_
    cases found with
    | none => exact .pure none
    | some found =>
      refine (condition.isTrue_orderly scope found.1).bind fun holds => ?_
      split
      · exact .pure _
      · exact Cursor.next_orderly scope fuel _
  | fuel + 1, .project terms source => by
    simp only [Cursor.next]
    refine (Cursor.next_orderly scope fuel source).bind fun found => ?_
    cases found with
    | none => exact .pure none
    | some found => exact (Term.evalAll_orderly scope found.1 terms).bind fun r => .pure _
  | _ + 1, .groups collations calls rest => by
    simp only [Cursor.next]
    cases rest with
    | nil => exact .pure none
    | cons first rest => exact (runGroup_orderly scope _ _).bind fun totals => .pure _
  | fuel + 1, .distinct seen source => by
    simp only [Cursor.next]
    refine (Cursor.next_orderly scope fuel source).bind fun found => ?_
    cases found with
    | none => exact .pure none
    | some found =>
      dsimp only
      split
      · exact Cursor.next_orderly scope fuel _
      · exact .pure _
  | fuel + 1, .limit left source => by
    simp only [Cursor.next]
    split
    · exact .pure none
    refine (Cursor.next_orderly scope fuel source).bind fun found => ?_
    cases found with
    | none => exact .pure none
    | some found => exact .pure _
  | fuel + 1, .append first second => by
    simp only [Cursor.next]
    refine (Cursor.next_orderly scope fuel first).bind fun found => ?_
    cases found with
    | none => exact Cursor.next_orderly scope fuel _
    | some found => exact .pure _
  | fuel + 1, .recursive all step queue seen current => by
    simp only [Cursor.next]
    exact (checkInterrupt_calm scope).orderly.bind fun _ =>
      (Cursor.drain_orderly scope fuel _).bind fun found =>
        (Cursor.deliver_calm all step _ seen).orderly
  | fuel + 1, .idle plan => by
    simp only [Cursor.next]
    exact Cursor.start_orderly scope fuel plan

theorem Cursor.start_orderly (scope : Scope H) : ∀ (fuel : Nat) (plan : Plan),
    OrderlyRun may (Cursor.start scope fuel plan) (Cursor.start scope.noting fuel plan)
  | 0, _ => by
    simp only [Cursor.start]
    exact exhausted_calm.orderly
  | fuel + 1, .rows rs => by
    simp only [Cursor.start]
    exact Cursor.next_orderly scope fuel _
  | _ + 1, .working => by
    simp only [Cursor.start]
    exact .pure none
  | fuel + 1, .values rs => by
    simp only [Cursor.start]
    exact Cursor.next_orderly scope fuel _
  | _ + 1, .scan root width => by
    simp only [Cursor.start]
    exact (nextOfTable_calm scope root width none).orderly
  | fuel + 1, .loop source => by
    simp only [Cursor.start]
    exact Cursor.nextOfLoop_orderly scope fuel _
  | fuel + 1, .join left right => by
    simp only [Cursor.start]
    exact Cursor.nextOfJoin_orderly scope fuel _ right
  | fuel + 1, .filter condition source => by
    simp only [Cursor.start]
    exact Cursor.next_orderly scope fuel _
  | fuel + 1, .project terms source => by
    simp only [Cursor.start]
    exact Cursor.next_orderly scope fuel _
  | fuel + 1, .total calls width source => by
    simp only [Cursor.start]
    exact (Cursor.feedTotal_orderly scope fuel _ none _).bind fun found => .pure _
  | fuel + 1, .group keys calls source => by
    simp only [Cursor.start]
    exact (Cursor.drainKeyed_orderly scope fuel _ _).bind fun rows =>
      Cursor.next_orderly scope fuel _
  | fuel + 1, .sort keys source => by
    simp only [Cursor.start]
    exact (Cursor.drain_orderly scope fuel _).bind fun rows =>
      Cursor.nextOfLoop_orderly scope fuel _
  | fuel + 1, .distinct source => by
    simp only [Cursor.start]
    exact Cursor.next_orderly scope fuel _
  | fuel + 1, .limit count offset source => by
    simp only [Cursor.start]
    refine (rowCount_orderly scope count).bind fun n => ?_
    -- what follows whether or not there is an offset
    have hrest : ∀ m : Int, OrderlyRun may
        (do
          if n = 0 then return none
          let source ← Cursor.skip scope fuel m.toNat (.idle source)
          if n < 0 then Cursor.next scope fuel source
          else Cursor.next scope fuel (.limit n.toNat source))
        (do
          if n = 0 then return none
          let source ← Cursor.skip scope.noting fuel m.toNat (.idle source)
          if n < 0 then Cursor.next scope.noting fuel source
          else Cursor.next scope.noting fuel (.limit n.toNat source)) := by
      intro m
      split
      · exact .pure none
      refine (Cursor.skip_orderly scope fuel _ _).bind fun source => ?_
      split
      · exact Cursor.next_orderly scope fuel _
      · exact Cursor.next_orderly scope fuel _
    cases offset with
    | some t => exact (rowCount_orderly scope t).bind hrest
    | none => exact (OrderlyRun.pure (0 : Int)).bind hrest
  | fuel + 1, .append first second => by
    simp only [Cursor.start]
    exact Cursor.next_orderly scope fuel _
  | fuel + 1, .combine op left right => by
    simp only [Cursor.start]
    exact (Cursor.drain_orderly scope fuel _).bind fun l =>
      (Cursor.drain_orderly scope fuel _).bind fun r => Cursor.nextOfLoop_orderly scope fuel _
  | fuel + 1, .recursive all base step => by
    simp only [Cursor.start]
    exact (Cursor.drain_orderly scope fuel _).bind fun found =>
      (Cursor.deliver_calm all step found []).orderly

theorem Cursor.nextOfLoop_orderly (scope : Scope H) : ∀ (fuel : Nat) (source : Cursor),
    OrderlyRun may (Cursor.nextOfLoop scope fuel source) (Cursor.nextOfLoop scope.noting fuel source)
  | 0, _ => by
    simp only [Cursor.nextOfLoop]
    exact exhausted_calm.orderly
  | fuel + 1, source => by
    simp only [Cursor.nextOfLoop]
    refine (Cursor.next_orderly scope fuel source).bind fun found => ?_
    cases found with
    | none => exact .pure none
    | some found => exact .pure _

theorem Cursor.nextOfJoin_orderly (scope : Scope H) : ∀ (fuel : Nat) (left : Cursor)
    (again : Plan), OrderlyRun may (Cursor.nextOfJoin scope fuel left again)
      (Cursor.nextOfJoin scope.noting fuel left again)
  | 0, _, _ => by
    simp only [Cursor.nextOfJoin]
    exact exhausted_calm.orderly
  | fuel + 1, left, again => by
    simp only [Cursor.nextOfJoin]
    refine (Cursor.next_orderly scope fuel left).bind fun found => ?_
    cases found with
    | none => exact .pure none
    | some found => exact Cursor.next_orderly scope fuel _

theorem Cursor.drain_orderly (scope : Scope H) : ∀ (fuel : Nat) (c : Cursor),
    OrderlyRun may (Cursor.drain scope fuel c) (Cursor.drain scope.noting fuel c)
  | 0, _ => by
    simp only [Cursor.drain]
    exact exhausted_calm.orderly
  | fuel + 1, c => by
    simp only [Cursor.drain]
    refine (Cursor.next_orderly scope fuel c).bind fun found => ?_
    cases found with
    | none => exact .pure []
    | some found => exact (Cursor.drain_orderly scope fuel found.2).bind fun rest => .pure _

theorem Cursor.drainKeyed_orderly (scope : Scope H) : ∀ (fuel : Nat) (keys : List Term)
    (c : Cursor), OrderlyRun may (Cursor.drainKeyed scope fuel keys c)
      (Cursor.drainKeyed scope.noting fuel keys c)
  | 0, _, _ => by
    simp only [Cursor.drainKeyed]
    exact exhausted_calm.orderly
  | fuel + 1, keys, c => by
    simp only [Cursor.drainKeyed]
    refine (Cursor.next_orderly scope fuel c).bind fun found => ?_
    cases found with
    | none => exact .pure []
    | some found =>
      exact (Term.evalAll_orderly scope found.1 keys).bind fun key =>
        (Cursor.drainKeyed_orderly scope fuel keys found.2).bind fun rest => .pure _

theorem Cursor.skip_orderly (scope : Scope H) : ∀ (fuel n : Nat) (c : Cursor),
    OrderlyRun may (Cursor.skip scope fuel n c) (Cursor.skip scope.noting fuel n c)
  | 0, _, _ => by
    simp only [Cursor.skip]
    exact exhausted_calm.orderly
  | fuel + 1, 0, c => by
    simp only [Cursor.skip]
    exact .pure c
  | fuel + 1, n + 1, c => by
    simp only [Cursor.skip]
    refine (Cursor.next_orderly scope fuel c).bind fun found => ?_
    cases found with
    | none => exact .pure _
    | some found => exact Cursor.skip_orderly scope fuel n found.2

theorem Cursor.feedTotal_orderly (scope : Scope H) : ∀ (fuel : Nat) (fs : List Feeding)
    (first : Option Row) (c : Cursor), OrderlyRun may (Cursor.feedTotal scope fuel fs first c)
      (Cursor.feedTotal scope.noting fuel fs first c)
  | 0, _, _, _ => by
    simp only [Cursor.feedTotal]
    exact exhausted_calm.orderly
  | fuel + 1, fs, first, c => by
    simp only [Cursor.feedTotal]
    refine (Cursor.next_orderly scope fuel c).attempt_bind (fun found => ?_) fun fault => ?_
    · cases found with
      | none => exact (Feeding.concludeAll_orderly scope fs).bind fun totals => .pure _
      | some found =>
        refine OrderlyRun.lift_bind (Feeding.feedAll_orderly scope found.1 fs) ?_ ?_
        · rintro ⟨fs, fault?⟩ h
          cases h
          exact Cursor.feedTotal_orderly scope fuel fs _ found.2
        · rintro ⟨fs, fault?⟩ fault h
          cases h
          exact Feeding.abandon_resigns scope fs fault
    · exact Feeding.abandon_resigns scope fs fault

end

end HostSql.Engine
