import HostSql.Proofs.Callback.Settings
import HostSql.Proofs.Engine.Stepping
import HostSql.Proofs.Statement.Release
import HostSql.Session.Host

/-!
# Contained closures and the statements that call them

`Ambient.callee?` is what a request of the engine makes run: a closure with what it is told, the
group that it is given, and the diagnostic of its failure. `HostNote.Lawful` says that the engine's
reply is what the closure's settings and its end come to (`Call.Lawful`).

A failure among these replies is the last thing that a statement asks for. The step, and the query
whose step it is, fails with the general code and with exactly the message of that reply; without
such a failure good replies are the values of calls and groups, and rows of a group have no value.

> `closures_contained`: so it is with every ambient, every statement and every query.
-/

namespace HostSql

open Engine

variable {σ : Type}

/-! ## What a request makes run -/

/-- A closure that is about to run for the engine. -/
structure Callee where
  call : Call
  body : Program
  group : Option Group
  /-- What its failure is reported as. -/
  diagnostic : String
  /-- What the engine is to keep for the group. -/
  slot : Option Nat

/-- What a request of the engine makes run, found as far as the closure's beginning. -/
def Ambient.callee? (a : Ambient σ) : HostRequest → StateM σ (Option Callee)
  | .call record slot args => do
    match ← a.record? record with
    | none => return none
    | some r =>
      let texts := args.map Datum.readText?
      let call : Call := ⟨r.resultType, args.map Datum.storageClass⟩
      match r.callbacks with
      | .scalar body => return some ⟨call, body texts, none, functionFailed, none⟩
      | .aggregate step _ =>
        let id ← groupId a record slot
        let group ← takeGroup a record id
        return some ⟨call, step texts, some group.nextRow, functionFailed, some id⟩
  | .finish record slot => do
    match ← a.record? record with
    | none => return none
    | some r =>
      match r.callbacks with
      | .scalar _ => return none
      | .aggregate _ final =>
        let group ← takeGroup a record (slot.getD unusedSlot)
        return some ⟨⟨r.resultType, []⟩, final, some group, finalizeFailed, slot⟩

/-- A reply that is what the closure comes to when it runs from a world on. -/
structure Callee.Lawful (a : Ambient σ) (c : Callee) (w : σ) (reply : Reply) : Prop where
  slot : reply.slot = c.slot
  result : c.call.Lawful (c.body.settings a c.call (.start c.group) w)
    ((c.body.run a c.call (.start c.group)).run w).1.1 c.diagnostic reply.result

theorem functionFailed_whole : Utf8.cutAtNul functionFailed = functionFailed := by decide

theorem finalizeFailed_whole : Utf8.cutAtNul finalizeFailed = finalizeFailed := by decide

/-- A call of a function is what its closure comes to. -/
theorem callFunction_lawful (a : Ambient σ) (record : Nat) (slot : Option Nat)
    (args : List Datum) (w : σ) {c : Callee} {w' : σ}
    (h : (a.callee? (.call record slot args)).run w = (some c, w')) :
    c.Lawful a w' ((callFunction a record slot args).run w).1 := by
  unfold Ambient.callee? at h
  unfold callFunction
  rw [run_bind] at h ⊢
  generalize (a.record? record).run w = found at h ⊢
  obtain ⟨r?, w₁⟩ := found
  cases r? with
  | none => cases h
  | some r =>
    dsimp only at h ⊢
    cases hcallbacks : r.callbacks with
    | scalar body =>
      rw [hcallbacks] at h
      cases h
      exact ⟨rfl, protect_lawful a r _ functionFailed_whole _ none _⟩
    | aggregate step final =>
      rw [hcallbacks] at h
      simp only [run_bind] at h ⊢
      cases h
      exact ⟨rfl, protect_lawful a r _ functionFailed_whole _ _ _⟩

/-- The end of a group is what its closure comes to. -/
theorem finishGroup_lawful (a : Ambient σ) (record : Nat) (slot : Option Nat) (w : σ)
    {c : Callee} {w' : σ} (h : (a.callee? (.finish record slot)).run w = (some c, w')) :
    c.Lawful a w' ((finishGroup a record slot).run w).1 := by
  unfold Ambient.callee? at h
  unfold finishGroup
  rw [run_bind] at h ⊢
  generalize (a.record? record).run w = found at h ⊢
  obtain ⟨r?, w₁⟩ := found
  cases r? with
  | none => cases h
  | some r =>
    dsimp only at h ⊢
    cases hcallbacks : r.callbacks with
    | scalar body =>
      rw [hcallbacks] at h
      cases h
    | aggregate step final =>
      rw [hcallbacks] at h
      simp only [run_bind] at h ⊢
      cases h
      exact ⟨rfl, protect_lawful a r _ finalizeFailed_whole _ _ _⟩

/-! ## The hooks of an ambient -/

/-- The engine's questions, answered by closures that run in an ambient. -/
def Ambient.hooks (a : Ambient SessionWorld)
    (busy : (connection attempt : Nat) → StateM SessionWorld Bool) : Hooks Host :=
  ⟨callFunction a, finishGroup a, discardGroup a, busy⟩

/-- The hooks of a session are of this form, at every depth at which closures can run. -/
theorem hooks_succ (depth : Nat) :
    HostSql.hooks (depth + 1) =
      (ambient (native (HostSql.hooks depth))).hooks
        (askPolicy (ambient (native (HostSql.hooks depth)))) :=
  rfl

/-- A reply of the hooks that is what the closure behind the request comes to. -/
def Engine.HostNote.Lawful {a : Ambient SessionWorld}
    {busy : (connection attempt : Nat) → StateM SessionWorld Bool}
    (note : HostNote (a.hooks busy)) : Prop :=
  ∀ c w, (a.callee? note.request).run note.before = (some c, w) → c.Lawful a w note.reply

theorem note_lawful {a : Ambient SessionWorld}
    {busy : (connection attempt : Nat) → StateM SessionWorld Bool}
    (note : HostNote (a.hooks busy)) : note.Lawful := by
  obtain ⟨request, before⟩ := note
  intro c w h
  cases request with
  | call record slot args => exact callFunction_lawful a record slot args before h
  | finish record slot => exact finishGroup_lawful a record slot before h

/-! ## Steps and queries -/

/-- The failure of the general kind, as an operation reports it. -/
def Error.general (message : String) : Error := .engine .sql 1 message

/-- The failure of an answer. -/
def error? {α : Type} : Except Error α → Option Error
  | .ok _ => none
  | .error e => some e

/-- The failure of a query. -/
def QueryAnswer.error? : QueryAnswer → Option Error
  | rejected e | failed e _ => some e
  | finished _ => none

section Queries

variable (hooks : Hooks Host)

/-- What a step of a statement asks of the host. -/
def Statement.requests (s : Statement) (w : SessionWorld) : List (HostNote hooks) :=
  match s.vm with
  | .live statement => stepRequests hooks statement w
  | .empty | .finalized => []

/-- What is asked of the host while rows are collected. -/
def Statement.collectRequests (s : Statement) : Nat → SessionWorld → List (HostNote hooks)
  | 0, _ => []
  | left + 1, w =>
    let ((answer, after), w') := (s.step (native hooks)).run w
    s.requests hooks w ++
      match answer with
      | .ok r => if r.isRow then after.collectRequests left w' else []
      | .error _ => []

/-- What a query asks of the host. -/
def Connection.queryRequests (c : Connection) (sql : String) (w : SessionWorld) :
    List (HostNote hooks) :=
  match (c.compile (native hooks) sql).run w with
  | (.ok (s, _), w') => s.collectRequests hooks Statement.maxRows w'
  | (.error _, _) => []

/-- A failure of the general kind is what a step answers. -/
theorem step_general {s : Statement} {statement : Nat} (hs : s.vm = .live statement)
    {w : SessionWorld} {message : String}
    (hfault : ((Engine.step hooks statement).run w).1.fault? = some (.general message)) :
    error? ((s.step (native hooks)).run w).1.1 = some (.general message) := by
  have hnative : ((native hooks).step statement).run w =
      (((Engine.step hooks statement).run w).1.toNative, ((Engine.step hooks statement).run w).2) :=
    rfl
  generalize (Engine.step hooks statement).run w = out at hfault hnative
  obtain ⟨progress, w'⟩ := out
  cases progress with
  | row => exact nomatch hfault
  | done => exact nomatch hfault
  | failed fault =>
    cases hfault
    rw [step_of_failed _ hs hnative rfl]
    rfl

/-- What a step asks explains its answer. -/
theorem step_answers (s : Statement) (w : SessionWorld) :
    Explains .general (s.requests hooks w) (error? ((s.step (native hooks)).run w).1.1) := by
  unfold Statement.requests
  cases hs : s.vm with
  | empty => exact .nil
  | finalized => exact .nil
  | live statement =>
    have hexplained := step_explained hooks statement w
    cases hfault : ((Engine.step hooks statement).run w).1.fault? with
    | none =>
      rw [hfault] at hexplained
      exact .good hexplained
    | some fault =>
      rw [hfault] at hexplained
      rcases hexplained with hgood | ⟨earlier, last, message, hnotes, hgood, hlast, rfl⟩
      · -- the failure is none of the host's
        exact .good hgood
      · rw [step_general hooks hs hfault]
        exact .inr ⟨earlier, last, message, hnotes, hgood, hlast, rfl⟩

/-- What is asked while rows are collected explains how that ends. -/
theorem collect_answers (left : Nat) : ∀ (s : Statement) (rows : List (List (Option String)))
    (w : SessionWorld), Explains .general (s.collectRequests hooks left w)
      (error? ((s.collect (native hooks) rows left).run w).1.1) := by
  induction left with
  | zero => exact fun s rows w => .nil
  | succ left ih =>
    intro s rows w
    have hstep := step_answers hooks s w
    unfold Statement.collectRequests Statement.collect
    rw [run_bind]
    generalize (s.step (native hooks)).run w = out at hstep ⊢
    obtain ⟨⟨answer, after⟩, w'⟩ := out
    cases answer with
    | error e =>
      dsimp only
      rw [List.append_nil]
      exact hstep
    -- a step that succeeds has had good replies only, so more steps may follow
    | ok r =>
      obtain ⟨row?, columns, types⟩ := r
      cases row? with
      | none => exact .append_left hstep .nil
      | some row => exact .append_left hstep (ih after (rows ++ [row]) w')

/-- What a query asks explains its answer. -/
theorem query_answers (c : Connection) (sql : String) (w : SessionWorld) :
    Explains .general (c.queryRequests hooks sql w)
      ((c.query (native hooks) sql).run w).1.error? := by
  unfold Connection.queryRequests Connection.query
  rw [run_bind]
  generalize (c.compile (native hooks) sql).run w = out
  obtain ⟨answer, w'⟩ := out
  cases answer with
  | error e => exact .nil
  | ok compiled =>
    obtain ⟨s, remainder⟩ := compiled
    have hcollect := collect_answers hooks Statement.maxRows s [] w'
    simp only [run_bind]
    generalize (s.collect (native hooks) [] Statement.maxRows).run w' = out at hcollect ⊢
    obtain ⟨⟨last, rows, after⟩, w''⟩ := out
    cases last with
    | error e => exact hcollect
    | ok r => exact hcollect

end Queries

/-! ## Containment -/

/-- What is promised of the closures that run in an ambient and of the statements that call them.
-/
structure Ambient.Contains (a : Ambient SessionWorld)
    (busy : (connection attempt : Nat) → StateM SessionWorld Bool) : Prop where
  /-- A reply is what the closure behind the request comes to. -/
  lawful : ∀ note : HostNote (a.hooks busy), note.Lawful
  /-- Only steps ask for calls and for the results of groups. -/
  prepare : ∀ c text, Quiet (Engine.prepare (a.hooks busy) c text)
    (Engine.prepare (a.hooks busy).noting c text)
  finalize : ∀ statement, Quiet (Engine.finalize (a.hooks busy) statement)
    (Engine.finalize (a.hooks busy).noting statement)
  /-- The ledger of a step is that of the step as it is without a ledger. -/
  same : ∀ statement w,
    let noted := (Engine.step (a.hooks busy).noting statement).run (w.noted [])
    (Engine.step (a.hooks busy) statement).run w = (noted.1, noted.2.plain)
  /-- Good replies are values, except those to rows of a group. -/
  uses : UsesReplies (a.hooks busy)
  /-- A failure among the replies ends the step, with its message. -/
  step : ∀ (s : Statement) w, Explains .general (s.requests (a.hooks busy) w)
    (error? ((s.step (native (a.hooks busy))).run w).1.1)
  /-- A failure among the replies ends the query, with its message. -/
  query : ∀ (c : Connection) sql w, Explains .general (c.queryRequests (a.hooks busy) sql w)
    ((c.query (native (a.hooks busy)) sql).run w).1.error?

end HostSql
