import HostSql.Proofs.Matching.Party
import HostSql.Proofs.Matching.Seat

/-!
# Closures run alike

A session is compared with one that runs in a seat, where the larger state is told how closures end. In
matched worlds, confined closures make the same requests and end in the same way, so the engine's
questions are answered alike, however deep closures nest: `Seat.hooks_linked`. What else is known of the
larger state may depend on the log and on what it is told; `Seat.Keeps` says how.
-/

namespace HostSql

open Engine (World Matched Hooks Reply Datum)

/-! ## What is told and what is logged -/

/-- Whether a closure's ending is a failure that is contained. -/
def ClosureEnd.isFailure : ClosureEnd → Bool
  | .function _ _ .ok => false
  | .function _ _ _ => true
  | .busy _ _ answer => answer.isNone

/-- A record that reports the contained failure of a closure, and nothing else: of a function its
signature and its error, if it has returned one, of a busy closure the resource and the attempt. -/
def LogRecord.Reports (r : LogRecord) : ClosureEnd → Prop
  | .function name arity (.failed e) =>
    r.level = .warn ∧ r.field? "function" = some (name ++ "(" ++ toString arity.toInt ++ ")") ∧
      r.field? "error" = some e.display
  | .function name arity .panicked =>
    r.level = .warn ∧ r.field? "function" = some (name ++ "(" ++ toString arity.toInt ++ ")") ∧
      r.field? "error" = none
  | .busy resource attempt none =>
    r.level = .warn ∧ r.field? "resource" = some resource ∧
      r.field? "attempt" = some (toString attempt.toNat)
  | _ => False

/-- What stays true of a larger state whatever a session does: it may depend on nothing of the host but
the log, it does not mind debug records and closures that end well, and it takes reports together with
the failures that they report. -/
structure Seat.Keeps {H : Type} (s : Seat H) (E : H → Prop) : Prop where
  change : ∀ f x, (∀ h : Host, (f h).log = h.log) → E x → E (s.change f x)
  debug : ∀ (r : LogRecord) x, r.level = .debug → E x →
    E (s.change (fun h => { h with log := r :: h.log }) x)
  quiet : ∀ e x, e.isFailure = false → E x → E (s.note e x)
  failure : ∀ e (r : LogRecord) x, r.Reports e → E x →
    E (s.change (fun h => { h with log := r :: h.log }) (s.note e x))

/-- Ambients that answer alike, of which one is told how closures end. -/
structure Ambient.Linked {σ τ : Type} (R : σ → τ → Prop) (S : Holding) (tell : ClosureEnd → StateM τ Unit)
    (a : Ambient σ) (b : Ambient τ) : Prop where
  record? : ∀ {k l}, S.Same k l →
    HostSql.Linked R (Option.Rel S.SameRecord) (a.record? k) (b.record? l)
  setGroups : ∀ {k l}, S.Same k l → ∀ groups,
    HostSql.Linked R Eq (a.setGroups k groups) (b.setGroups l groups)
  quiet : ∀ e, e.isFailure = false → HostSql.Linked R Eq (pure ()) (tell e)
  failure : ∀ e r, LogRecord.Reports r e →
    HostSql.Linked R Eq (a.log r) (tell e >>= fun _ => b.log r)
  emit : ∀ e, HostSql.Linked R Eq (a.emit e) (b.emit e)
  interrupt : ∀ handle, S.party.handle handle →
    HostSql.Linked R Eq (a.interrupt handle) (b.interrupt handle)
  execute : ∀ c, S.party.connection c → ∀ sql,
    HostSql.Linked R Eq (a.execute c sql) (b.execute c sql)
  query : ∀ c, S.party.connection c → ∀ sql, HostSql.Linked R Eq (a.query c sql) (b.query c sql)
  declare : ∀ c, S.party.connection c → ∀ name type,
    HostSql.Linked R Eq (a.declare c name type) (b.declare c name type)
  register : ∀ c, S.party.connection c → ∀ name arity callbacks, callbacks.Confined S.party →
    HostSql.Linked R Eq (a.register c name arity callbacks) (b.register c name arity callbacks)

/-! ## Closures -/

section Closures

variable {σ τ : Type} {R : σ → τ → Prop} {S : Holding} {tell : ClosureEnd → StateM τ Unit} {a : Ambient σ}
  {b : Ambient τ}

/-- Confined closures end in the same way, with the same frame. -/
theorem Program.run_linked (h : a.Linked R S tell b) (call : Call) :
    ∀ (p : Program) (f : Frame), p.Confined S.party → Linked R Eq (p.run a call f) (p.run b call f)
  | .finish outcome, f, _ => .same (outcome, f)
  | .setResult v next, f, hp => by
    simp only [Program.run]
    exact run_linked h call (next _) _ (hp _)
  | .setError message next, f, hp => by
    simp only [Program.run]
    exact run_linked h call next _ hp
  | .readState next, f, hp => by
    simp only [Program.run]
    exact run_linked h call (next _) f (hp _)
  | .insert key v next, f, hp => by
    simp only [Program.run]
    exact run_linked h call (next _) _ (hp _)
  | .readCount next, f, hp => by
    simp only [Program.run]
    exact run_linked h call (next _) f (hp _)
  | .readType next, f, hp => by
    simp only [Program.run]
    exact run_linked h call (next _) f (hp _)
  | .emit event next, f, hp => by
    simp only [Program.run]
    exact (h.emit event).bind_same fun _ => run_linked h call next f hp
  | .interrupt handle next, f, hp => by
    simp only [Program.run]
    exact (h.interrupt handle hp.1).bind_same fun _ => run_linked h call next f hp.2
  | .execute c sql next, f, hp => by
    simp only [Program.run]
    exact (h.execute c hp.1 sql).bind_same fun answer => run_linked h call (next answer) f (hp.2 answer)
  | .query c sql next, f, hp => by
    simp only [Program.run]
    exact (h.query c hp.1 sql).bind_same fun answer => run_linked h call (next answer) f (hp.2 answer)
  | .declare c name type next, f, hp => by
    simp only [Program.run]
    exact (h.declare c hp.1 name type).bind_same fun answer =>
      run_linked h call (next answer) f (hp.2 answer)
  | .register c name arity callbacks next, f, hp => by
    simp only [Program.run]
    exact (h.register c hp.1 name arity callbacks hp.2.1).bind_same fun answer =>
      run_linked h call (next answer) f (hp.2.2 answer)

/-- Confined busy closures give the same answer. -/
theorem BusyProgram.run_linked (h : a.Linked R S tell b) :
    ∀ (p : BusyProgram), p.Confined S.party → Linked R Eq (p.run a) (p.run b)
  | .answer retry, _ => .same (some retry)
  | .panic, _ => .same none
  | .emit event next, hp => by
    simp only [BusyProgram.run]
    exact (h.emit event).bind_same fun _ => run_linked h next hp
  | .execute c sql next, hp => by
    simp only [BusyProgram.run]
    exact (h.execute c hp.1 sql).bind_same fun answer => run_linked h (next answer) (hp.2 answer)

theorem groupsOf_linked (h : a.Linked R S tell b) {k l : Nat} (hkl : S.Same k l) :
    Linked R Eq (groupsOf a k) (groupsOf b l) := by
  refine (h.record? hkl).bind fun r? r?' hr => ?_
  cases hr with
  | none => exact .same _
  | some hr =>
    obtain ⟨heq, _⟩ := hr
    cases heq
    exact .same _

theorem groupId_linked (h : a.Linked R S tell b) {k l : Nat} (hkl : S.Same k l) (slot : Option Nat) :
    Linked R Eq (groupId a k slot) (groupId b l slot) := by
  cases slot with
  | some id => exact .same id
  | none =>
    exact (groupsOf_linked h hkl).bind_same fun groups => (h.setGroups hkl _).bind_same fun _ => .same _

theorem takeGroup_linked (h : a.Linked R S tell b) {k l : Nat} (hkl : S.Same k l) (id : Nat) :
    Linked R Eq (takeGroup a k id) (takeGroup b l id) :=
  (groupsOf_linked h hkl).bind_same fun _ => (h.setGroups hkl _).bind_same fun _ => .same _

theorem putBackGroup_linked (h : a.Linked R S tell b) {k l : Nat} (hkl : S.Same k l) (id : Nat)
    (group : Group) : Linked R Eq (putBackGroup a k id group) (putBackGroup b l id group) :=
  (groupsOf_linked h hkl).bind_same fun _ => h.setGroups hkl _

end Closures

/-! ## Calls -/

namespace Seat

section Calls

variable {H : Type} {s : Seat H} {S : Holding} {R : SessionWorld → World H → Prop}
  {a : Ambient SessionWorld} {b : Ambient (World H)} (h : a.Linked R S s.tell b)

include h

/-- Contained closures leave the same frame; what the one world logs, the other is told as well. -/
theorem protect_linked (r : FunctionRecord) (call : Call) (diagnostic : String) {closure : Program}
    (hclosure : closure.Confined S.party) (group : Option Group) :
    Linked R Eq (HostSql.protect a r call diagnostic closure group)
      (s.protect b r call diagnostic closure group) := by
  unfold HostSql.protect protect
  refine (closure.run_linked h call _ hclosure).bind_same fun ended => ?_
  obtain ⟨outcome, f⟩ := ended
  cases outcome with
  | ok => exact (h.quiet _ rfl).bind_same fun _ => .same f
  | failed e =>
    have hreports : (containedFailure r diagnostic (some e)).Reports
        (.function r.name r.arity (.failed e)) := ⟨rfl, rfl, rfl⟩
    exact (h.failure _ _ hreports).bind_same fun _ => .same _
  | panicked =>
    have hreports : (containedFailure r diagnostic none).Reports
        (.function r.name r.arity .panicked) := ⟨rfl, rfl, rfl⟩
    exact (h.failure _ _ hreports).bind_same fun _ => .same _

theorem callFunction_linked {k l : Nat} (hkl : S.Same k l) (slot : Option Nat) (args : List Datum) :
    Linked R Eq (HostSql.callFunction a k slot args) (s.callFunction b l slot args) := by
  unfold HostSql.callFunction callFunction
  refine (h.record? hkl).bind fun r? r?' hr => ?_
  cases hr with
  | none => exact .same _
  | @some r _ hr =>
    obtain ⟨heq, hconfined⟩ := hr
    cases heq
    revert hconfined
    dsimp only
    cases r.callbacks with
    | scalar body =>
      exact fun hconfined => (protect_linked h r _ _ (hconfined _) none).bind_same fun f => .same _
    | aggregate step final =>
      intro hconfined
      refine (groupId_linked h hkl slot).bind_same fun id => (takeGroup_linked h hkl id).bind_same
        fun group => ?_
      refine (protect_linked h r _ _ (hconfined.1 _) _).bind_same fun f => ?_
      exact (putBackGroup_linked h hkl id _).bind_same fun _ => .same _

theorem finishGroup_linked {k l : Nat} (hkl : S.Same k l) (slot : Option Nat) :
    Linked R Eq (HostSql.finishGroup a k slot) (s.finishGroup b l slot) := by
  unfold HostSql.finishGroup finishGroup
  refine (h.record? hkl).bind fun r? r?' hr => ?_
  cases hr with
  | none => exact .same _
  | @some r _ hr =>
    obtain ⟨heq, hconfined⟩ := hr
    cases heq
    revert hconfined
    dsimp only
    cases r.callbacks with
    | scalar body => exact fun _ => .same _
    | aggregate step final =>
      intro hconfined
      refine (takeGroup_linked h hkl _).bind_same fun group => ?_
      exact (protect_linked h r _ _ hconfined.2 _).bind_same fun f => .same _

theorem discardGroup_linked {k l : Nat} (hkl : S.Same k l) (slot : Nat) :
    Linked R Eq (HostSql.discardGroup a k slot) (s.discardGroup b l slot) :=
  (finishGroup_linked h hkl (some slot)).bind_same fun _ => .same ()

/-- Confined policies give the same answer and stay confined. -/
theorem request_linked {policy : BusyPolicy} (hpolicy : policy.Confined S.party) (attempt : UInt32) :
    Linked R (fun p p' => p.1 = p'.1 ∧ S.SamePolicy p.2 p'.2) (policy.request a attempt)
      (s.request b policy attempt) := by
  cases policy with
  | timeout backoff => exact .pure ⟨rfl, rfl, trivial⟩
  | handler resource callback =>
    refine ((callback resource attempt).run_linked h (hpolicy resource attempt)).bind_same
      fun answer => ?_
    cases answer with
    | some retry => exact (h.quiet _ rfl).bind_same fun _ => .pure ⟨rfl, rfl, hpolicy⟩
    | none =>
      have hreports : (LogRecord.of .warn "busy handler panicked"
          [("resource", resource), ("attempt", toString attempt.toNat)]).Reports
          (.busy resource attempt none) := ⟨rfl, rfl, rfl⟩
      exact (h.failure _ _ hreports).bind_same fun _ => .pure ⟨rfl, rfl, hpolicy⟩

end Calls

/-! ## The host's part of the world -/

section Hosts

variable {H : Type} (s : Seat H) (S : Holding) (E : H → Prop)

/-- A host, and the state in which another one sits that is matched with it. -/
def Seated (h : Host) (x : H) : Prop := HostMatched S h (s.host x) ∧ E x

variable {s S E}

theorem modifyHost_linked (hE : s.Keeps E) {f g : Host → Host} (hg : ∀ h, (g h).log = h.log)
    (hfg : ∀ h h', HostMatched S h h' → HostMatched S (f h) (g h')) :
    Linked (Matched S.toMatching (s.Seated S E)) Eq (SessionWorld.modifyHost f) (s.modifyHost g) := by
  refine .change fun w w' hw => { hw with host := ⟨?_, hE.change g _ hg hw.host.2⟩ }
  rw [s.host_change]
  exact hfg _ _ hw.host.1

/-- Something is read off the hosts. -/
theorem readHost_linked {α α' : Type} {A : α → α' → Prop} {f : Host → α} {g : Host → α'}
    (hfg : ∀ h h', HostMatched S h h' → A (f h) (g h')) :
    Linked (Matched S.toMatching (s.Seated S E)) A (do return f (← get).host)
      (do return g (s.host (← get).host)) :=
  .get_bind fun _ _ hw => .pure (hfg _ _ hw.host.1)

theorem modifyRecord_linked (hE : s.Keeps E) {k l : Nat} (hkl : S.Same k l)
    {f : FunctionRecord → FunctionRecord} (hf : ∀ r, (f r).callbacks = r.callbacks) :
    Linked (Matched S.toMatching (s.Seated S E)) Eq (SessionWorld.modifyRecord k f)
      (s.modifyRecord l f) := by
  refine modifyHost_linked hE (fun _ => rfl) fun h h' hh => { hh with records := ?_ }
  refine hh.records.update S.oneToOne hkl ?_
  rintro r _ ⟨rfl, hconfined⟩
  exact ⟨rfl, (hf r).symm ▸ hconfined⟩

theorem logDebug_linked (hE : s.Keeps E) (r : LogRecord) (hr : r.level = .debug) :
    Linked (Matched S.toMatching (s.Seated S E)) Eq (Host.services.log r) (s.services.log r) := by
  refine .change fun w w' hw => { hw with host := ⟨?_, hE.debug r _ hr hw.host.2⟩ }
  rw [s.host_change]
  exact { hw.host.1 with log := congrArg (r :: ·) hw.host.1.log }

theorem tell_linked (hE : s.Keeps E) {e : ClosureEnd} (he : e.isFailure = false) :
    Linked (Matched S.toMatching (s.Seated S E)) Eq (pure ()) (s.tell e) := by
  intro w w' hw
  refine ⟨rfl, { hw with host := ⟨?_, hE.quiet e _ he hw.host.2⟩ }⟩
  show HostMatched S w.host (s.host (s.note e w'.host))
  rw [s.host_note]
  exact hw.host.1

theorem logFailure_linked (hE : s.Keeps E) {e : ClosureEnd} {r : LogRecord} (hr : r.Reports e) :
    Linked (Matched S.toMatching (s.Seated S E)) Eq (Host.services.log r)
      (s.tell e >>= fun _ => s.services.log r) := by
  intro w w' hw
  refine ⟨rfl, { hw with host := ⟨?_, hE.failure e r _ hr hw.host.2⟩ }⟩
  show HostMatched S { w.host with log := r :: w.host.log } (s.host (s.change _ (s.note e w'.host)))
  rw [s.host_change, s.host_note]
  exact { hw.host.1 with log := congrArg (r :: ·) hw.host.1.log }

/-! ## The engine -/

/-- Policies are installed alike. -/
theorem setNativePolicy_linked (hE : s.Keeps E) {k l : Nat} (hkl : S.Same k l)
    {policy : Option BusyPolicy} (hpolicy : ∀ p ∈ policy, p.Confined S.party) :
    Linked (Matched S.toMatching (s.Seated S E)) Eq (HostSql.setNativePolicy k policy)
      (s.setNativePolicy l policy) := by
  refine (Engine.changeConnection_linked hkl fun _ _ _ => rfl).bind_same fun _ => ?_
  refine modifyHost_linked hE (fun _ => rfl) fun h h' hh => { hh with policies := ?_ }
  cases policy with
  | none => exact hh.policies.erase S.oneToOne hkl
  | some p => exact hh.policies.set S.oneToOne hkl ⟨rfl, hpolicy p rfl⟩

/-- Functions are registered under records that stand for each other. -/
theorem registerNative_linked (hE : s.Keeps E) (hapart : S.Apart) {k l : Nat} (hkl : S.Same k l)
    {r : FunctionRecord} (hr : r.callbacks.Confined S.party) :
    Linked (Matched S.toMatching (s.Seated S E)) (EndAlike S.Same) (HostSql.registerNative k r)
      (s.registerNative l r) := by
  unfold HostSql.registerNative registerNative
  refine Engine.fresh_linked.bind fun n n' hn => ?_
  refine (Engine.register_linked hapart.world hkl (.mk ⟨_, _, _, 0⟩ hn)).bind_same fun code => ?_
  have hkeep : Linked (Matched S.toMatching (s.Seated S E)) Eq
      (SessionWorld.modifyHost fun h => { h with records := h.records.set n r })
      (s.modifyHost fun h => { h with records := h.records.set n' r }) :=
    modifyHost_linked hE (fun _ => rfl) fun h h' hh =>
      { hh with records := hh.records.set S.oneToOne hn ⟨rfl, hr⟩ }
  exact .ite (hkeep.bind_same fun _ => .pure (.ok hn)) (.pure (.error code))

/-- The engine's steps end in known ways. -/
theorem known_toNative (p : Engine.Progress) : p.toNative.Known := by
  cases p with
  | row => exact .inl rfl
  | done => exact .inr (.inl rfl)
  | failed fault => exact .inr (.inr fault.known)

theorem ofStatement_linked {α : Type} {k l : Nat} (hkl : S.Same k l) (missing : α)
    {read : Engine.Statement → α} (hread : ∀ t t', Engine.Statement.Same S.Same t t' → read t = read t') :
    Linked (Matched S.toMatching (s.Seated S E)) Eq (ofStatement k missing read)
      (ofStatement l missing read) :=
  .get_bind fun w w' hw => .pure <| by
    have hfound := Engine.statement?_linked hkl hw
    exact rel_getD (R := Eq) (rel_map hfound hread) rfl

/-- Engines with matched hosts answer alike. -/
theorem native_linked (hE : s.Keeps E) (hapart : S.Apart) {hooks : Hooks Host} {hooks' : Hooks H}
    (hhooks : hooks.Linked S.toMatching (s.Seated S E) hooks') :
    (HostSql.native hooks).Linked (Matched S.toMatching (s.Seated S E)) S.Same
      (Engine.MayOpen S.files) (Callbacks.Confined S.party) (BusyPolicy.Confined S.party)
      (s.native hooks') where
  connect path flags hopens := by
    refine Linked.bind (Engine.connect_linked hapart.world hopens) fun r r' hr => ?_
    cases hr with
    | ok hkl => exact .pure (.ok hkl)
    | error fault => exact Engine.connectNowhere_linked.bind fun n n' hn => .pure (.error _ (.some hn))
  disconnect hkl :=
    (Engine.disconnect_linked hapart.world hkl).bind_same fun _ =>
      (setNativePolicy_linked hE hkl fun p hp => absurd hp (Option.not_mem_none p)).bind_same fun _ => .same none
  isOpen hkl := (Engine.connection?_linked hkl).bind fun c c' hc => .pure (rel_isSome hc)
  prepare hkl sql := by
    refine (Engine.prepare_linked hapart.world hhooks hkl sql.toList).bind fun r r' hr => ?_
    cases hr with
    | error fault => exact .pure (.error _)
    | @ok r r' hr =>
      obtain ⟨n?, stop⟩ := r
      obtain ⟨n?', stop'⟩ := r'
      obtain ⟨hn, hstop⟩ := hr
      cases hstop
      exact .pure (.ok ⟨hn, rfl⟩)
  execute hkl sql :=
    (Engine.execute_linked hapart.world hhooks hkl sql.toList).bind_same fun _ => .same _
  changes hkl := (Engine.connection?_linked hkl).bind fun c c' hc =>
    .pure (congrArg (Option.getD · 0) (Engine.map_same hc fun _ _ _ => rfl))
  lastInsertRowId hkl := (Engine.connection?_linked hkl).bind fun c c' hc =>
    .pure (congrArg (Option.getD · 0) (Engine.map_same hc fun _ _ _ => rfl))
  interrupt hkl := Engine.changeConnection_linked hkl fun _ _ _ => rfl
  setPolicy hkl policy hpolicy := setNativePolicy_linked hE hkl hpolicy
  register hkl r hr := registerNative_linked hE hapart hkl hr
  declareType hkl type := modifyRecord_linked hE hkl fun _ => rfl
  step hkl := (Engine.step_linked hapart.world hhooks hkl).bind_same fun p =>
    .pure ⟨rfl, known_toNative p⟩
  columnCount hkl := ofStatement_linked hkl 0 fun t t' ht => by
    cases ht with
    | mk _ _ hp _ =>
      cases hp
      rfl
  columnName hkl i := ofStatement_linked hkl "" fun t t' ht => by
    cases ht with
    | mk _ _ hp _ =>
      cases hp
      rfl
  columnType hkl i := ofStatement_linked hkl none fun t t' ht => by
    cases ht with
    | mk _ _ hp _ =>
      cases hp
      rfl
  columnText hkl i := ofStatement_linked hkl none fun t t' ht => by
    cases ht
    rfl
  finalize hkl := (Engine.finalize_linked hapart.world hhooks hkl).bind_same fun _ => .same _
  log r hr := logDebug_linked hE r hr

/-! ## Requests -/

section Requests

variable {n : Native SessionWorld} {n' : Native (World H)} (hE : s.Keeps E)
  (hn : n.Linked (Matched S.toMatching (s.Seated S E)) S.Same (Engine.MayOpen S.files)
    (Callbacks.Confined S.party) (BusyPolicy.Confined S.party) n')

/-- The party's connections are used alike. -/
theorem withConnection_linked {α α' : Type} {A : α → α' → Prop} {name : String}
    (hname : S.party.connection name) {missing : Error → α} {missing' : Error → α'}
    (hmissing : A (missing (.closedHandle .database)) (missing' (.closedHandle .database)))
    {f : Connection → StateM SessionWorld α} {g : Connection → StateM (World H) α'}
    (hfg : ∀ c c', c.Same S.Same c' → Linked (Matched S.toMatching (s.Seated S E)) A (f c) (g c')) :
    Linked (Matched S.toMatching (s.Seated S E)) A (HostSql.withConnection name missing f)
      (s.withConnection name missing' g) := by
  unfold HostSql.withConnection withConnection
  refine .get_bind fun w w' hw => ?_
  have hfound := hw.host.1.connections.get? Named.oneToOne (.self hname)
  revert hfound
  generalize w.host.connections.get? name = x
  generalize (s.host w'.host).connections.get? name = y
  intro hfound
  cases hfound with
  | some hc => exact hfg _ _ hc
  | none => exact .pure hmissing

include hE

/-- A connection of the party is kept under its name. -/
theorem setConnection_linked {name : String} (hname : S.party.connection name) {c c' : Connection}
    (hc : c.Same S.Same c') :
    Linked (Matched S.toMatching (s.Seated S E)) Eq
      (SessionWorld.modifyHost fun h => { h with connections := h.connections.set name c })
      (s.modifyHost fun h => { h with connections := h.connections.set name c' }) :=
  modifyHost_linked hE (fun _ => rfl) fun _ _ hh =>
    { hh with connections := hh.connections.set Named.oneToOne (.self hname) hc }

include hn

theorem registerOn_linked {name : String} (hname : S.party.connection name) (function : String)
    (arity : Int32) {callbacks : Callbacks} (hcallbacks : callbacks.Confined S.party) :
    Linked (Matched S.toMatching (s.Seated S E)) Eq (HostSql.registerOn n name function arity callbacks)
      (s.registerOn n' name function arity callbacks) := by
  refine withConnection_linked hname rfl fun c c' hc => ?_
  refine (Connection.register_linked hn hc function arity hcallbacks).bind fun r r' hr => ?_
  obtain ⟨answer, c⟩ := r
  obtain ⟨answer', c'⟩ := r'
  obtain ⟨heq, hc⟩ := hr
  cases heq
  exact (setConnection_linked hE hname hc).bind_same fun _ => .same answer

omit hE in
theorem interruptThrough_linked {handle : String} (hhandle : S.party.handle handle) :
    Linked (Matched S.toMatching (s.Seated S E)) Eq (HostSql.interruptThrough n handle)
      (s.interruptThrough n' handle) := by
  unfold HostSql.interruptThrough interruptThrough
  refine .get_bind fun w w' hw => ?_
  have hfound := hw.host.1.handles.get? Named.oneToOne (.self hhandle)
  revert hfound
  generalize w.host.handles.get? handle = x
  generalize (s.host w'.host).handles.get? handle = y
  intro hfound
  cases hfound with
  | some hi => exact InterruptHandle.interrupt_linked hn hi
  | none => exact .same ()

end Requests

/-- Closures find the same world around them. -/
theorem ambient_linked (hE : s.Keeps E) (hapart : S.Apart) {hooks : Hooks Host} {hooks' : Hooks H}
    (hhooks : hooks.Linked S.toMatching (s.Seated S E) hooks') :
    (HostSql.ambient (HostSql.native hooks)).Linked (Matched S.toMatching (s.Seated S E)) S s.tell
      (s.ambient (s.native hooks')) := by
  have hn := native_linked hE hapart hhooks
  exact {
    record? := fun hkl => readHost_linked fun h h' hh => hh.records.get? S.oneToOne hkl
    setGroups := fun hkl groups => modifyRecord_linked hE hkl fun _ => rfl
    quiet := fun e he => tell_linked hE he
    failure := fun e r hr => logFailure_linked hE hr
    emit := fun e => modifyHost_linked hE (fun _ => rfl) fun h h' hh =>
      { hh with events := congrArg (e :: ·) hh.events }
    interrupt := fun handle hhandle => interruptThrough_linked hn hhandle
    execute := fun name hname sql =>
      withConnection_linked hname rfl fun c c' hc => Connection.execute_linked hn hc sql
    query := fun name hname sql =>
      withConnection_linked hname rfl fun c c' hc => Connection.query_linked hn hc sql
    declare := fun name hname function type =>
      withConnection_linked hname rfl fun c c' hc => Connection.declare_linked hn hc function type
    register := fun name hname function arity callbacks hcallbacks =>
      registerOn_linked hE hn hname function arity hcallbacks }

/-! ## The engine's questions -/

theorem askPolicy_linked (hE : s.Keeps E) {a : Ambient SessionWorld} {b : Ambient (World H)}
    (h : a.Linked (Matched S.toMatching (s.Seated S E)) S s.tell b) {k l : Nat} (hkl : S.Same k l)
    (attempt : Nat) :
    Linked (Matched S.toMatching (s.Seated S E)) Eq (HostSql.askPolicy a k attempt)
      (s.askPolicy b l attempt) := by
  unfold HostSql.askPolicy askPolicy
  refine .get_bind fun w w' hw => ?_
  have hfound := hw.host.1.policies.get? S.oneToOne hkl
  revert hfound
  generalize w.host.policies.get? k = x
  generalize (s.host w'.host).policies.get? l = y
  intro hfound
  cases hfound with
  | none => exact .same false
  | some hpolicy =>
    obtain ⟨heq, hconfined⟩ := hpolicy
    cases heq
    refine (request_linked h hconfined _).bind fun r r' hr => ?_
    obtain ⟨retry, policy⟩ := r
    obtain ⟨retry', policy'⟩ := r'
    obtain ⟨heq, hpolicy⟩ := hr
    cases heq
    have hkeep : Linked (Matched S.toMatching (s.Seated S E)) Eq
        (SessionWorld.modifyHost fun h => { h with policies := h.policies.set k policy })
        (s.modifyHost fun h => { h with policies := h.policies.set l policy' }) :=
      modifyHost_linked hE (fun _ => rfl) fun h h' hh =>
        { hh with policies := hh.policies.set S.oneToOne hkl hpolicy }
    exact hkeep.bind_same fun _ => .same retry

/-- The engine's questions are answered alike, however deep closures nest. -/
theorem hooks_linked (hE : s.Keeps E) (hapart : S.Apart) (depth : Nat) :
    (HostSql.hooks depth).Linked S.toMatching (s.Seated S E) (s.hooks depth) := by
  induction depth with
  | zero =>
    exact {
      call := fun _ slot args => .same _
      finish := fun _ slot => .same _
      discard := fun _ slot => .same ()
      busy := fun _ attempt => .same false }
  | succ depth ih =>
    have ha := ambient_linked hE hapart ih
    exact {
      call := fun hkl slot args => callFunction_linked ha hkl slot args
      finish := fun hkl slot => finishGroup_linked ha hkl slot
      discard := fun hkl slot => discardGroup_linked ha hkl slot
      busy := fun hkl attempt => askPolicy_linked hE ha hkl attempt }

/-- The engines of both sessions answer alike. -/
theorem engine_linked (hE : s.Keeps E) (hapart : S.Apart) :
    Session.engine.Linked (Matched S.toMatching (s.Seated S E)) S.Same (Engine.MayOpen S.files)
      (Callbacks.Confined S.party) (BusyPolicy.Confined S.party) s.engine :=
  native_linked hE hapart (hooks_linked hE hapart maxNesting)

end Hosts

end Seat

end HostSql
