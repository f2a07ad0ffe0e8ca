import HostSql.Proofs.Matching.Hosting

/-!
# Steps run alike

In matched worlds a confined step has the same answer, whether the session runs alone or in a seat, and
leaves the worlds matched, with the same rests: `Seat.run_linked`.
-/

namespace HostSql.Seat

open Engine (World Matched)

variable {H : Type} {s : Seat H} {S : Holding} {E : H → Prop} (hE : s.Keeps E) (hapart : S.Apart)

/-! ## Names -/

section Names

/-- The party's names lead to connections that stand for each other. -/
theorem onConnection_linked {name : String} (hname : S.party.connection name)
    {f : Connection → StateM SessionWorld StepAnswer} {g : Connection → StateM (World H) StepAnswer}
    (hfg : ∀ c c', c.Same S.Same c' → Linked (Matched S.toMatching (s.Seated S E)) Eq (f c) (g c')) :
    Linked (Matched S.toMatching (s.Seated S E)) Eq (Session.onConnection name f)
      (s.onConnection name g) := by
  unfold Session.onConnection onConnection
  refine .get_bind fun w w' hw => ?_
  have hfound := hw.host.1.connections.get? Named.oneToOne (.self hname)
  revert hfound
  generalize w.host.connections.get? name = x
  generalize (s.host w'.host).connections.get? name = y
  intro hfound
  cases hfound with
  | some hc => exact hfg _ _ hc
  | none => exact .same _

include hE

/-- A statement of the party is kept under its name. -/
theorem keepStatement_linked {name connection : String} (hname : S.party.statement name)
    (hconnection : S.party.connection connection) {t t' : Statement} (ht : t.Same S.Same t') :
    Linked (Matched S.toMatching (s.Seated S E)) Eq (Session.keepStatement name connection t)
      (s.keepStatement name connection t') :=
  modifyHost_linked hE (fun _ => rfl) fun _ _ hh =>
    { hh with
      statements := hh.statements.set Named.oneToOne (.self hname) ⟨.self hconnection, ht⟩ }

/-- The party's names lead to statements that stand for each other. -/
theorem onStatement_linked {name : String} (hname : S.party.statement name)
    {f : Statement → StateM SessionWorld (StepAnswer × Statement)}
    {g : Statement → StateM (World H) (StepAnswer × Statement)}
    (hfg : ∀ t t', t.Same S.Same t' →
      Linked (Matched S.toMatching (s.Seated S E)) (Stepped S.Same) (f t) (g t')) :
    Linked (Matched S.toMatching (s.Seated S E)) Eq (Session.onStatement name f)
      (s.onStatement name g) := by
  unfold Session.onStatement onStatement
  refine .get_bind fun w w' hw => ?_
  have hfound := hw.host.1.statements.get? Named.oneToOne (.self hname)
  revert hfound
  generalize w.host.statements.get? name = x
  generalize (s.host w'.host).statements.get? name = y
  intro hfound
  cases hfound with
  | none => exact .same _
  | @some e e' hstatement =>
    obtain ⟨connection, t⟩ := e
    obtain ⟨connection', t'⟩ := e'
    obtain ⟨⟨hconnection, heq⟩, ht⟩ := hstatement
    cases heq
    refine (hfg t t' ht).bind fun r r' hr => ?_
    obtain ⟨answer, u⟩ := r
    obtain ⟨answer', u'⟩ := r'
    obtain ⟨heq, hu⟩ := hr
    cases heq
    exact (keepStatement_linked hE hname hconnection hu).bind_same fun _ => .same answer

include hapart

theorem dropStatement_linked {name : String} (hname : S.party.statement name) :
    Linked (Matched S.toMatching (s.Seated S E)) Eq (Session.dropStatement name)
      (s.dropStatement name) := by
  unfold Session.dropStatement dropStatement
  refine .get_bind fun w w' hw => ?_
  have hfound := hw.host.1.statements.get? Named.oneToOne (.self hname)
  revert hfound
  generalize w.host.statements.get? name = x
  generalize (s.host w'.host).statements.get? name = y
  intro hfound
  cases hfound with
  | none => exact .same ()
  | some hstatement =>
    have herase : Linked (Matched S.toMatching (s.Seated S E)) Eq
        (SessionWorld.modifyHost fun h => { h with statements := Assoc.erase h.statements name })
        (s.modifyHost fun h => { h with statements := Assoc.erase h.statements name }) :=
      modifyHost_linked hE (fun _ => rfl) fun h h' hh =>
        { hh with statements := hh.statements.erase Named.oneToOne (.self hname) }
    exact herase.bind_same fun _ => Statement.drop_linked (engine_linked hE hapart) hstatement.2

/-- The statements of a connection of the party are the party's. -/
theorem dropStatementsOf_linked {connection : String} (hconnection : S.party.connection connection) :
    Linked (Matched S.toMatching (s.Seated S E)) Eq (Session.dropStatementsOf connection)
      (s.dropStatementsOf connection) := by
  unfold Session.dropStatementsOf dropStatementsOf
  refine .get_bind fun w w' hw => ?_
  have hchosen := hw.host.1.statements.select (p := fun e => e.2.1 == connection)
    (q := fun e => e.2.1 == connection) (fun _ _ t t' _ ht => congrArg (· == connection) ht.1.2)
    (fun e he => beq_eq_false_iff_ne.mpr fun heq => hapart.statement e he (heq ▸ hconnection))
    fun e he => beq_eq_false_iff_ne.mpr fun heq => hapart.statement' e he (heq ▸ hconnection)
  refine Linked.forM (A := Named S.party.statement) (fun name name' hname => ?_)
    (List.rel_map (fun e e' he => he.1) hchosen)
  obtain ⟨hname, heq⟩ := hname
  cases heq
  exact dropStatement_linked hE hapart hname

theorem dropConnection_linked {name : String} (hname : S.party.connection name) :
    Linked (Matched S.toMatching (s.Seated S E)) Eq (Session.dropConnection name)
      (s.dropConnection name) := by
  unfold Session.dropConnection dropConnection
  refine (dropStatementsOf_linked hE hapart hname).bind_same fun _ => .get_bind fun w w' hw => ?_
  have hfound := hw.host.1.connections.get? Named.oneToOne (.self hname)
  revert hfound
  generalize w.host.connections.get? name = x
  generalize (s.host w'.host).connections.get? name = y
  intro hfound
  cases hfound with
  | none => exact .same ()
  | some hc =>
    have herase : Linked (Matched S.toMatching (s.Seated S E)) Eq
        (SessionWorld.modifyHost fun h => { h with connections := Assoc.erase h.connections name })
        (s.modifyHost fun h => { h with connections := Assoc.erase h.connections name }) :=
      modifyHost_linked hE (fun _ => rfl) fun h h' hh =>
        { hh with connections := hh.connections.erase Named.oneToOne (.self hname) }
    exact herase.bind_same fun _ => Connection.drop_linked (engine_linked hE hapart) hc

omit hapart in
theorem keepOpened_linked {name : String} (hname : S.party.connection name)
    {opened opened' : Except Error Connection} (h : EndAlike (Connection.Same S.Same) opened opened') :
    Linked (Matched S.toMatching (s.Seated S E)) Eq (Session.keepOpened name opened)
      (s.keepOpened name opened') := by
  cases h with
  | error e => exact .same _
  | ok hc =>
    refine (setConnection_linked hE hname hc).bind_same fun _ => ?_
    cases hc
    exact .same _

end Names

/-! ## Steps -/

/-- Released statements are told apart from others alike. -/
theorem isFinalized_same {same : Nat → Nat → Prop} {t t' : Statement} (ht : t.Same same t') :
    t.isFinalized = t'.isFinalized := by
  cases ht with
  | mk t hvm => cases hvm <;> rfl

/-- Private memory may always be opened. -/
theorem mayOpen_memory (files : Prop) (mode : Int32) :
    MayOpenMode files Connection.memoryPath mode := by
  intro flags _
  right
  intro place hplace
  have hmemory : Engine.Location.ofPath Connection.memoryPath flags = .ok ⟨none, flags⟩ := rfl
  rw [hmemory] at hplace
  cases hplace
  rfl

include hE hapart

/-- Confined steps have the same answer. -/
theorem run_linked {step : SessionStep} (h : step.Confined S.party S.files) :
    Linked (Matched S.toMatching (s.Seated S E)) Eq (Session.run step) (s.run step) := by
  have hn := engine_linked (s := s) hE hapart
  have hread {name : String} (hname : S.party.connection name) {α : Type} {wrap : α → StepAnswer}
      {f : Connection → StateM SessionWorld α} {g : Connection → StateM (World H) α}
      (hfg : ∀ c c', c.Same S.Same c' → Linked (Matched S.toMatching (s.Seated S E)) Eq (f c) (g c')) :
      Linked (Matched S.toMatching (s.Seated S E)) Eq
        (Session.onConnection name fun c => wrap <$> f c) (s.onConnection name fun c => wrap <$> g c) :=
    onConnection_linked hname fun c c' hc => (hfg c c' hc).map fun _ _ heq => congrArg wrap heq
  cases step with
  | openDatabase name path mode =>
    exact (dropConnection_linked hE hapart h.1).bind_same fun _ =>
      (Connection.openMode_linked hn h.2).bind fun opened opened' hopened =>
        keepOpened_linked hE h.1 hopened
  | openMemory name =>
    exact (dropConnection_linked hE hapart h).bind_same fun _ =>
      (Connection.openMode_linked hn (mayOpen_memory S.files 0)).bind fun opened opened' hopened =>
        keepOpened_linked hE h hopened
  | close name =>
    refine (dropStatementsOf_linked hE hapart h).bind_same fun _ =>
      onConnection_linked h fun c c' hc => (Connection.close_linked hn hc).bind fun r r' hr => ?_
    obtain ⟨answer, c⟩ := r
    obtain ⟨answer', c'⟩ := r'
    obtain ⟨heq, hc⟩ := hr
    cases heq
    exact (setConnection_linked hE h hc).bind_same fun _ => .same _
  | dropConnection name => exact (dropConnection_linked hE hapart h).bind_same fun _ => .same _
  | isClosed name =>
    exact onConnection_linked h fun c c' hc => .pure (congrArg _ (Connection.isClosed_same hc))
  | path name =>
    refine onConnection_linked h fun c c' hc => ?_
    cases hc
    exact .same _
  | showConnection name =>
    refine onConnection_linked h fun c c' hc => ?_
    have hclosed := Connection.isClosed_same hc
    cases hc with
    | mk path _ _ =>
      refine .pure ?_
      unfold Session.showConnection
      rw [hclosed]
  | showStatement name =>
    refine onStatement_linked hE h fun t t' ht => .pure ⟨?_, ht⟩
    have hfinalized := isFinalized_same ht
    cases ht with
    | mk t hvm =>
      unfold Session.showStatement
      rw [hfinalized]
  | compile connection sql name =>
    refine onConnection_linked h.1 fun c c' hc => (Connection.compile_linked hn hc sql).bind fun r r' hr => ?_
    cases hr with
    | error e => exact .same _
    | @ok r r' hr =>
      obtain ⟨t, remainder⟩ := r
      obtain ⟨t', remainder'⟩ := r'
      obtain ⟨ht, heq⟩ := hr
      cases heq
      refine (dropStatement_linked hE hapart h.2).bind_same fun _ =>
        (keepStatement_linked hE h.2 h.1 ht).bind_same fun _ => .pure ?_
      rw [isFinalized_same ht]
  | step name =>
    refine onStatement_linked hE h fun t t' ht => (Statement.step_linked hn ht).bind fun r r' hr => ?_
    exact .pure ⟨by rw [hr.1, isFinalized_same hr.2], hr.2⟩
  | finalize name =>
    refine onStatement_linked hE h fun t t' ht => (Statement.finalize_linked hn ht).bind fun r r' hr => ?_
    exact .pure ⟨by rw [hr.1, isFinalized_same hr.2], hr.2⟩
  | dropStatement name => exact (dropStatement_linked hE hapart h).bind_same fun _ => .same _
  | query name sql => exact hread h fun c c' hc => Connection.query_linked hn hc sql
  | call name function args => exact hread h fun c c' hc => Connection.query_linked hn hc _
  | aggregate name function grouped arity rows =>
    exact hread h fun c c' hc => Connection.query_linked hn hc _
  | execute name sql => exact hread h fun c c' hc => Connection.execute_linked hn hc sql
  | changes name => exact hread h fun c c' hc => Connection.changes_linked hn hc
  | lastInsertRowId name => exact hread h fun c c' hc => Connection.lastInsertRowId_linked hn hc
  | interrupt name => exact hread h fun c c' hc => Connection.interrupt_linked hn hc
  | interruptThrough handle => exact (interruptThrough_linked hn h).bind_same fun _ => .same _
  | takeHandle name handle =>
    refine onConnection_linked h.1 fun c c' hc => ?_
    have hhandle := Connection.interruptHandle_same hc
    revert hhandle
    generalize c.interruptHandle = x
    generalize c'.interruptHandle = y
    intro hhandle
    cases hhandle with
    | error e => exact .same _
    | @ok i i' hi =>
      have hkeep : Linked (Matched S.toMatching (s.Seated S E)) Eq
          (SessionWorld.modifyHost fun host => { host with handles := host.handles.set handle i })
          (s.modifyHost fun host => { host with handles := host.handles.set handle i' }) :=
        modifyHost_linked hE (fun _ => rfl) fun _ _ hh =>
          { hh with handles := hh.handles.set Named.oneToOne (.self h.2) hi }
      exact hkeep.bind_same fun _ => .same _
  | register name function arity callbacks =>
    exact onConnection_linked h.1 fun _ _ _ =>
      (registerOn_linked hE hn h.1 function arity h.2).map fun _ _ heq => congrArg _ heq
  | declare name function type => exact hread h fun c c' hc => Connection.declare_linked hn hc function type
  | busyHandler name handler =>
    refine (dropStatementsOf_linked hE hapart h.1).bind_same fun _ =>
      hread h.1 fun c c' hc => ?_
    have hpath : c.path = c'.path := by
      cases hc
      rfl
    unfold Connection.busyHandler
    rw [hpath]
    refine Connection.setPolicy_linked hn hc fun p hp => ?_
    cases handler with
    | none => exact absurd hp (Option.not_mem_none p)
    | some b =>
      cases hp
      exact fun resource attempt => BusyScript.callback_confined (h.2 b rfl) resource attempt
  | busyTimeout name ms =>
    refine (dropStatementsOf_linked hE hapart h).bind_same fun _ =>
      hread h fun c c' hc => Connection.setPolicy_linked hn hc fun p hp => ?_
    split at hp
    · exact absurd hp (Option.not_mem_none p)
    · cases hp
      trivial
  | writeFile path bytes =>
    exact (Engine.writeFile_linked hapart.world h path bytes).bind_same fun _ => .same _

end HostSql.Seat
