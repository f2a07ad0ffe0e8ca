import HostSql.Proofs.Nesting.Queries

/-!
# Closures of a nest in alike worlds

A closure of a nest asks for nothing but queries of the nest and types of functions, so it runs alike
in two worlds that the nest cannot tell apart, and the engine's calls do too: the closures get the
same groups, under numbers of their own in each world, and what they leave is put back on both sides.

> `hooks_alike`: at every depth the host answers alike in alike worlds.

The proof is an induction on the depth. At depth zero no closure runs; one level up closures run
queries in which the host answers as it does one level below.
-/

namespace HostSql

open Engine (Datum Hooks Reply)

variable {n : Nest} {start w v : SessionWorld} {ties : Ties}

/-! ## Closures -/

/-- The requests of closures of a nest are answered alike in two worlds. -/
structure Ambient.CoupledIn {σ τ : Type} (n : Nest) (R : σ → τ → Prop) (a : Ambient σ)
    (b : Ambient τ) : Prop where
  log : ∀ r, HostSql.Coupled R (a.log r) (b.log r)
  emit : ∀ e, HostSql.Coupled R (a.emit e) (b.emit e)
  query : ∀ sql, Engine.isTableless n.functions n.records sql.toList = true →
    HostSql.Coupled R (a.query n.name sql) (b.query n.name sql)
  declare : ∀ function type,
    HostSql.Coupled R (a.declare n.name function type) (b.declare n.name function type)

section Closures

variable {σ τ : Type} {R : σ → τ → Prop} {a : Ambient σ} {b : Ambient τ} (h : a.CoupledIn n R b)

include h

/-- A closure of the nest cannot tell the worlds apart. -/
theorem Program.IsNested.run_coupled {p : Program} (hp : p.IsNested n) (call : Call) :
    ∀ f : Frame, Coupled R (p.run a call f) (p.run b call f) := by
  induction hp with
  | finish outcome => exact fun f => .pure (outcome, f)
  | setResult v _ ih | insert key v _ ih =>
    intro f
    simp only [Program.run]
    exact ih _ _
  | setError message _ ih =>
    intro f
    simp only [Program.run]
    exact ih _
  | readState _ ih | readCount _ ih | readType _ ih =>
    intro f
    simp only [Program.run]
    exact ih _ f
  | emit event _ ih =>
    intro f
    simp only [Program.run]
    exact (h.emit event).bind fun _ => ih f
  | query sql hsql _ ih =>
    intro f
    simp only [Program.run]
    exact (h.query sql hsql).bind fun answer => ih answer f
  | declare function type _ ih =>
    intro f
    simp only [Program.run]
    exact (h.declare function type).bind fun answer => ih answer f

/-- A contained closure of the nest cannot tell the worlds apart. -/
theorem Program.IsNested.protect_coupled {p : Program} (hp : p.IsNested n) (r : FunctionRecord)
    (call : Call) (diagnostic : String) (group : Option Group) :
    Coupled R (protect a r call diagnostic p group) (protect b r call diagnostic p group) := by
  unfold protect
  refine (hp.run_coupled h call _).bind ?_
  rintro ⟨outcome, frame⟩
  cases outcome with
  | ok => exact .pure frame
  | failed e => exact (h.log _).bind fun _ => .pure _
  | panicked => exact (h.log _).bind fun _ => .pure _

end Closures

/-- What the host reports is not seen by closures. -/
theorem emit_same (hooks : Hooks Host) (e : Event) : Keeps (n.Same w) ((ambient (native hooks)).emit e) := by
  rintro w' ⟨hready, hunseen⟩
  have hstep : n.Unseen w' (((ambient (native hooks)).emit e).run w').2 :=
    ⟨rfl, rfl, rfl, rfl, rfl, fun h => h⟩
  exact ⟨hready.unseen hstep, hunseen.trans hstep⟩

theorem emit_coupled (hooks : Hooks Host) (e : Event) : Coupled (Alike n start ties)
    ((ambient (native hooks)).emit e) ((ambient (native hooks)).emit e) := fun w v halike =>
  ⟨rfl, halike.unseen (emit_same hooks e w ⟨halike.agree.left, .refl n w⟩).2
    (emit_same hooks e v ⟨halike.agree.right, .refl n v⟩).2⟩

/-- Types are declared on both sides, of functions of the nest or of others. The host is not asked. -/
theorem declareType_coupled (hooks hooks' : Hooks Host) (function : String) (type : ResultType) :
    Coupled (Alike n start ties) ((ambient (native hooks)).declare n.name function type)
      ((ambient (native hooks')).declare n.name function type) := by
  have hone (record : Nat) : Coupled (Alike n start ties) ((native hooks).declareType record type)
      ((native hooks').declareType record type) := fun w v halike =>
    ⟨rfl, halike.withRecord record (fun _ => rfl) (fun _ => rfl) fun r s heq =>
      congrArg (fun r : FunctionRecord => { r with resultType := type }) heq⟩
  have hall (records : List Nat) : Coupled (Alike n start ties)
      (records.forM fun record => (native hooks).declareType record type)
      (records.forM fun record => (native hooks').declareType record type) := by
    induction records with
    | nil => exact .pure ()
    | cons record records ih => exact (hone record).bind fun _ => ih
  intro w v halike
  obtain ⟨c, hc, hnative⟩ := halike.agree.left.opened
  have hc' : v.host.connections.get? n.name = some c := halike.agree.connection.symm.trans hc
  have hdeclare : Coupled (Alike n start ties) (c.declare (native hooks) function type)
      (c.declare (native hooks') function type) := by
    unfold Connection.declare Connection.withNative
    rw [hnative]
    dsimp only
    split
    · exact .pure _
    · exact (hall _).bind fun _ => .pure _
  simp only [ambient, withConnection, run_bind, run_get]
  rw [hc, hc']
  exact hdeclare w v halike

/-- Closures of a nest run alike where the host answers alike. -/
theorem ambient_coupledIn {hooks : Hooks Host} (h : HooksAlike n start hooks) :
    (ambient (native hooks)).CoupledIn n (Alike n start ties) (ambient (native hooks)) :=
  ⟨log_coupled hooks, emit_coupled hooks, fun _ hsql => query_coupled h hsql,
    declareType_coupled hooks hooks⟩

/-! ## Groups -/

section Groups

variable {hooks : Hooks Host} {record i j : Nat}

theorem groupsOf_run (w : SessionWorld) (record : Nat) :
    (groupsOf (ambient (native hooks)) record).run w = (tableIn w record, w) := rfl

theorem setGroups_run (w : SessionWorld) (record : Nat) (t : GroupTable) :
    ((ambient (native hooks)).setGroups record t).run w =
      ((), withRecord w record (.withGroups t)) := rfl

/-- Only a function that is there has begun groups. -/
theorem present_of_lastId (h : 0 < (tableIn w record).lastId) :
    ∃ r, w.host.records.get? record = some r := by
  unfold tableIn at h
  cases hr : w.host.records.get? record with
  | none =>
    rw [hr] at h
    exact absurd h (Nat.lt_irrefl 0)
  | some r => exact ⟨r, rfl⟩

theorem Alike.present (h : Alike n start ties w v) (htie : ties.groups record i j) :
    ∃ r s, w.host.records.get? record = some r ∧ v.host.records.get? record = some s := by
  obtain ⟨_, hstart, hi, hpos, hj, _⟩ := h.groups.counterpart record i j htie
  obtain ⟨r, hr⟩ := present_of_lastId (Nat.lt_of_lt_of_le (Nat.zero_lt_of_lt hstart) hi)
  obtain ⟨s, hs⟩ := present_of_lastId (Nat.lt_of_lt_of_le hpos hj)
  exact ⟨r, s, hr, hs⟩

/-- A group begins in both worlds if it has not begun yet. -/
theorem groupId_alike (halike : Alike n start ties w v) (hrecord : record ∈ n.records)
    {r s : FunctionRecord} (hr : w.host.records.get? record = some r)
    (hs : v.host.records.get? record = some s) {slot slot' : Option Nat}
    (hslots : ties.Slots record slot slot') :
    let x := (groupId (ambient (native hooks)) record slot).run w
    let y := (groupId (ambient (native hooks)) record slot').run v
    ∃ ties', ties.Grow ties' ∧ ties'.groups record x.1 y.1 ∧ Alike n start ties' x.2 y.2 := by
  cases slot with
  | some i =>
    cases slot' with
    | none => exact hslots.elim
    | some j => exact ⟨ties, .refl ties, hslots, halike⟩
  | none =>
    cases slot' with
    | some j => exact hslots.elim
    | none =>
      exact ⟨ties.withGroup record _ _, ties.grow_withGroup record _ _, .inr ⟨rfl, rfl, rfl⟩,
        halike.withGroups hr hs (halike.groups.allocate hrecord)⟩

/-- Groups that correspond are taken out in both worlds, and are the same. -/
theorem takeGroup_parallel (htie : ties.groups record i j) :
    Parallel n start ties (fun _ g g' => g = g') (takeGroup (ambient (native hooks)) record i)
      (takeGroup (ambient (native hooks)) record j) := by
  intro w v halike
  obtain ⟨r, s, hr, hs⟩ := halike.present htie
  obtain ⟨hgroup, htables⟩ := halike.groups.take htie
  exact ⟨ties, .refl ties, hgroup, halike.withGroups hr hs htables⟩

/-- Groups that correspond are put back in both worlds. -/
theorem putBackGroup_parallel (htie : ties.groups record i j) (group : Group) :
    Parallel n start ties (fun _ _ _ => True)
      (putBackGroup (ambient (native hooks)) record i group)
      (putBackGroup (ambient (native hooks)) record j group) := by
  intro w v halike
  obtain ⟨r, s, hr, hs⟩ := halike.present htie
  exact ⟨ties, .refl ties, trivial, halike.withGroups hr hs (halike.groups.putBack htie group)⟩

/-- The group that ends is the same in both worlds, also if it has had no rows. -/
theorem takeEnding_alike (halike : Alike n start ties w v) (hrecord : record ∈ n.records)
    {r s : FunctionRecord} (hr : w.host.records.get? record = some r)
    (hs : v.host.records.get? record = some s) {slot slot' : Option Nat}
    (hslots : ties.Slots record slot slot') :
    let x := (takeGroup (ambient (native hooks)) record (slot.getD unusedSlot)).run w
    let y := (takeGroup (ambient (native hooks)) record (slot'.getD unusedSlot)).run v
    ∃ ties', ties.Grow ties' ∧ x.1 = y.1 ∧ Alike n start ties' x.2 y.2 := by
  have htaken : ((tableIn w record).take (slot.getD unusedSlot)).1 =
      ((tableIn v record).take (slot'.getD unusedSlot)).1 ∧
      GroupsAlike n.records (tableIn start) ties.groups
        (Function.update (tableIn w) record ((tableIn w record).take (slot.getD unusedSlot)).2)
        (Function.update (tableIn v) record ((tableIn v record).take (slot'.getD unusedSlot)).2) := by
    cases slot with
    | some i =>
      cases slot' with
      | none => exact hslots.elim
      | some j => exact halike.groups.take hslots
    | none =>
      cases slot' with
      | some j => exact hslots.elim
      | none => exact halike.groups.takeUnused hrecord
  exact ⟨ties, .refl ties, htaken.1, halike.withGroups hr hs htaken.2⟩

end Groups

/-! ## The engine's calls -/

/-- A function of the nest is there in both worlds or in neither; its records are the same but for
their groups. -/
theorem Nest.Agree.sameRecord {record : Nat} (h : n.Agree w v) (hrecord : record ∈ n.records) :
    (w.host.records.get? record = none ∧ v.host.records.get? record = none) ∨
      ∃ r t u, w.host.records.get? record = some (.withGroups t r) ∧
        v.host.records.get? record = some (.withGroups u r) ∧ r.callbacks.IsNested n := by
  have hsame := h.records record hrecord
  cases hr : w.host.records.get? record with
  | none =>
    rw [hr] at hsame
    cases hs : v.host.records.get? record with
    | none => exact .inl ⟨rfl, rfl⟩
    | some s =>
      rw [hs] at hsame
      cases hsame
  | some r =>
    rw [hr] at hsame
    cases hs : v.host.records.get? record with
    | none =>
      rw [hs] at hsame
      cases hsame
    | some s =>
      rw [hs] at hsame
      have hrest : r.atRest = s.atRest := Option.some.inj hsame
      have hs' : s.atRest.withGroups s.groups = r.atRest.withGroups s.groups :=
        congrArg (FunctionRecord.withGroups s.groups) hrest.symm
      exact .inr ⟨r, r.groups, s.groups, rfl, congrArg some hs', h.left.nested record hrecord r hr⟩

/-- The reply to a call: its group and its result correspond. -/
abbrev RepliesAlike (record : Nat) (ties : Ties) (a b : Reply) : Prop :=
  ties.Slots record a.slot b.slot ∧ a.result = b.result

section Calls

variable {hooks : Hooks Host} {record : Nat} {slot slot' : Option Nat}

theorem record?_run (w : SessionWorld) (record : Nat) :
    ((ambient (native hooks)).record? record).run w = (w.host.records.get? record, w) := rfl

/-- The groups of a function do not matter for running one of its closures. -/
theorem protect_withGroups (a : Ambient SessionWorld) (t : GroupTable) (r : FunctionRecord) (call : Call)
    (diagnostic : String) (p : Program) (group : Option Group) :
    protect a (r.withGroups t) call diagnostic p group = protect a r call diagnostic p group := rfl

variable (h : HooksAlike n start hooks)

include h

/-- A call of a function of the nest. -/
theorem callFunction_parallel (hrecord : record ∈ n.records) (hslots : ties.Slots record slot slot')
    (args : List Datum) :
    Parallel n start ties (RepliesAlike record) (callFunction (ambient (native hooks)) record slot args)
      (callFunction (ambient (native hooks)) record slot' args) := by
  intro w v halike
  unfold callFunction
  rw [run_bind, run_bind, record?_run, record?_run]
  rcases halike.agree.sameRecord hrecord with ⟨hr, hs⟩ | ⟨r, t, u, hr, hs, hnested⟩
  · rw [hr, hs]
    exact ⟨ties, .refl ties, ⟨hslots, rfl⟩, halike⟩
  rw [hr, hs]
  cases hcallbacks : r.callbacks with
  | scalar body =>
    rw [hcallbacks] at hnested
    simp only [FunctionRecord.withGroups, hcallbacks]
    refine Parallel.bind (Parallel.of_coupled (Program.IsNested.protect_coupled
      (ambient_coupledIn h) (hnested _) r _ _ _)) ?_ w v halike
    rintro ties' _ f _ rfl
    exact .pure ⟨trivial, rfl⟩
  | aggregate step final =>
    rw [hcallbacks] at hnested
    simp only [FunctionRecord.withGroups, hcallbacks]
    refine Parallel.bind_at (groupId_alike halike hrecord hr hs hslots) fun ties₁ hgrow₁ i j htie₁ => ?_
    refine (takeGroup_parallel htie₁).bind ?_
    rintro ties₂ hgrow₂ group _ rfl
    refine Parallel.bind (Parallel.of_coupled (Program.IsNested.protect_coupled (ambient_coupledIn h)
      (hnested.1 _) r _ _ _)) ?_
    rintro ties₃ hgrow₃ f _ rfl
    have htie₃ := hgrow₃.groups record i j (hgrow₂.groups record i j htie₁)
    refine (putBackGroup_parallel htie₃ _).bind fun ties₄ hgrow₄ _ _ _ => ?_
    exact .pure ⟨hgrow₄.groups record i j htie₃, rfl⟩

/-- The end of a group of an aggregate of the nest. -/
theorem finishGroup_parallel (hrecord : record ∈ n.records) (hslots : ties.Slots record slot slot') :
    Parallel n start ties (fun _ a b => a.result = b.result)
      (finishGroup (ambient (native hooks)) record slot)
      (finishGroup (ambient (native hooks)) record slot') := by
  intro w v halike
  unfold finishGroup
  rw [run_bind, run_bind, record?_run, record?_run]
  rcases halike.agree.sameRecord hrecord with ⟨hr, hs⟩ | ⟨r, t, u, hr, hs, hnested⟩
  · rw [hr, hs]
    exact ⟨ties, .refl ties, rfl, halike⟩
  rw [hr, hs]
  cases hcallbacks : r.callbacks with
  | scalar body =>
    simp only [FunctionRecord.withGroups, hcallbacks]
    exact ⟨ties, .refl ties, rfl, halike⟩
  | aggregate step final =>
    rw [hcallbacks] at hnested
    simp only [FunctionRecord.withGroups, hcallbacks]
    refine Parallel.bind_at (R := fun _ (a b : Reply) => a.result = b.result)
      (takeEnding_alike halike hrecord hr hs hslots) ?_
    rintro ties₁ _ group _ rfl
    refine Parallel.bind (Parallel.of_coupled (Program.IsNested.protect_coupled (ambient_coupledIn h)
      hnested.2 r _ _ _)) ?_
    rintro _ _ f _ rfl
    exact .pure rfl

end Calls

/-! ## Locks -/

/-- A quiet policy changes nothing that a nest sees. -/
theorem request_same (hooks : Hooks Host) {policy : BusyPolicy} (hpolicy : policy.IsQuiet)
    (attempt : UInt32) :
    KeepsGiving (n.Same w) (fun p : Bool × BusyPolicy => p.2.IsQuiet)
      (policy.request (ambient (native hooks)) attempt) := by
  unfold BusyPolicy.request
  cases policy with
  | timeout backoff => exact .pure trivial
  | handler resource callback =>
    have hrun {p : BusyProgram} (hp : p.IsQuiet) :
        Keeps (n.Same w) (p.run (ambient (native hooks))) := by
      induction hp with
      | answer retry => exact .pure _
      | panic => exact .pure _
      | emit event _ ih => exact (emit_same hooks event).bind fun _ => ih
    refine (hrun (hpolicy resource attempt)).giving.bind fun retry? _ => ?_
    cases retry? with
    | some retry => exact .pure hpolicy
    | none => exact (log_same hooks _).giving.bind fun _ _ => .pure hpolicy

theorem askPolicy_unseen (hooks : Hooks Host) (hw : n.Ready w) (attempt : Nat) :
    n.Unseen w ((askPolicy (ambient (native hooks)) n.connection attempt).run w).2 := by
  unfold askPolicy
  rw [run_bind, run_get]
  cases hpolicy : w.host.policies.get? n.connection with
  | none =>
    dsimp only
    exact .refl n w
  | some policy =>
    obtain ⟨hquiet, hready, hunseen⟩ := request_same hooks (hw.quiet policy hpolicy)
      (UInt32.ofNat attempt) w ⟨hw, .refl n w⟩
    dsimp only
    rw [run_bind]
    refine hunseen.trans ⟨rfl, rfl, rfl, rfl, rfl, fun _ policy' hpolicy' => ?_⟩
    have hset := (Assoc.get?_set_self _ _ _).symm.trans hpolicy'
    exact Option.some.inj hset ▸ hquiet

/-! ## Every depth -/

/-- At every depth the host answers alike in alike worlds. -/
theorem hooks_alike (n : Nest) (start : SessionWorld) : ∀ depth, HooksAlike n start (hooks depth)
  | 0 => {
      call := fun _ _ _ _ _ hslots _ => .pure ⟨hslots, rfl⟩
      finish := fun _ _ _ _ _ _ => .pure rfl
      discard := fun _ _ _ _ _ _ => .pure trivial
      busy := fun w _ _ => .refl n w }
  | depth + 1 => {
      call := fun _ _ hrecord _ _ hslots args =>
        callFunction_parallel (hooks_alike n start depth) hrecord hslots args
      finish := fun _ _ hrecord _ _ hslots =>
        finishGroup_parallel (hooks_alike n start depth) hrecord hslots
      discard := fun _ _ hrecord i j htie =>
        (finishGroup_parallel (hooks_alike n start depth) hrecord
          (show Ties.Slots _ _ (some i) (some j) from htie)).bind fun _ _ _ _ _ => .pure trivial
      busy := fun _ hw attempt => askPolicy_unseen (hooks depth) hw attempt }

end HostSql
