import HostSql.Proofs.Matching.Library
import HostSql.Proofs.Numbering.Worlds
import HostSql.Session.Step

/-!
# The numbers in a session

A host refers to the engine by numbers: under the names of connections, statements and interrupt handles,
and where it keeps records and policies. All of them have been given out, as have those that the engine
holds. Callbacks ask the library for what they do, so this goes through all of them, however deeply they
nest, and through every step.

> `Session.run_numbered`: a session holds only numbers that have been given out.
-/

namespace HostSql

open Engine (World Hooks HostKeeps Numbered Gives GivesRun)
open SessionWorld

/-! ## What the library holds -/

section Confining

variable {R S T : Nat → Nat → Prop}

theorem Statement.Same.parts {s t : Statement} (h : s.Same R t) : s.vm.Same R t.vm := by
  cases h with
  | mk s h => exact h

theorem Connection.Same.parts {c d : Connection} (h : c.Same R d) :
    Option.Rel R c.native? d.native? ∧ FunctionRegistry.Same R c.functions d.functions := by
  cases h with
  | mk path hnative hfunctions => exact ⟨hnative, hfunctions⟩

variable (hT : ∀ k l, R k l → S l l → T k l)

include hT

theorem Vm.Same.confine {v v' : Vm} (h : v.Same R v') (h' : v'.Same S v') : v.Same T v' := by
  cases h with
  | live h =>
    cases h' with
    | live h' => exact .live (hT _ _ h h')
  | empty => exact .empty
  | finalized => exact .finalized

theorem Statement.Same.confine {s s' : Statement} (h : s.Same R s') (h' : s'.Same S s') :
    s.Same T s' := by
  have hvm := h.parts.confine hT h'.parts
  cases h with
  | mk s _ => exact .mk s hvm

theorem Connection.Same.confine {c c' : Connection} (h : c.Same R c') (h' : c'.Same S c') :
    c.Same T c' := by
  have hnative := rel_confine h.parts.1 h'.parts.1 hT
  have hfunctions : FunctionRegistry.Same T c.functions c'.functions :=
    forall₂_confine h.parts.2 h'.parts.2 fun e e' he he' => ⟨he.1, hT _ _ he.2 he'.2⟩
  cases h with
  | mk path _ _ => exact .mk path hnative hfunctions

end Confining

section Numbers

variable {m n : Nat}

theorem Statement.below_mono {s : Statement} (hmn : m ≤ n) (h : s.Same (Below m) s) :
    s.Same (Below n) s := h.confine (fun _ _ hk _ => hk.mono hmn) h

theorem Connection.below_mono {c : Connection} (hmn : m ≤ n) (h : c.Same (Below m) c) :
    c.Same (Below n) c := h.confine (fun _ _ hk _ => hk.mono hmn) h

theorem Statement.below_of_vm {s : Statement} (h : s.vm.Same (Below n) s.vm) : s.Same (Below n) s :=
  .mk s h

/-- The engine's number of an open connection. -/
theorem Connection.native_below {c : Connection} (h : c.Same (Below n) c) {k : Nat}
    (hk : c.native? = some k) : k < n := by
  have hnative := h.parts.1
  rw [hk] at hnative
  cases hnative with
  | some h => exact h.2

theorem Connection.below_self {path : String} {k? : Option Nat} {functions : FunctionRegistry}
    (hnative : Option.Rel (Below n) k? k?)
    (hfunctions : FunctionRegistry.Same (Below n) functions functions) :
    (⟨k?, path, functions⟩ : Connection).Same (Below n) ⟨k?, path, functions⟩ :=
  .mk path hnative hfunctions

end Numbers

/-- All numbers that a host holds are below `n`. -/
structure Host.Below (n : Nat) (h : Host) : Prop where
  records : ∀ e ∈ h.records, e.1 < n
  policies : ∀ e ∈ h.policies, e.1 < n
  connections : ∀ e ∈ h.connections, e.2.Same (HostSql.Below n) e.2
  handles : ∀ e ∈ h.handles, e.2.connection < n
  statements : ∀ e ∈ h.statements, e.2.2.Same (HostSql.Below n) e.2.2

theorem Host.below_succ (n : Nat) (h : Host) (hn : h.Below n) : h.Below (n + 1) where
  records e he := Nat.lt_succ_of_lt (hn.records e he)
  policies e he := Nat.lt_succ_of_lt (hn.policies e he)
  connections e he := Connection.below_mono (Nat.le_succ n) (hn.connections e he)
  handles e he := Nat.lt_succ_of_lt (hn.handles e he)
  statements e he := Statement.below_mono (Nat.le_succ n) (hn.statements e he)

/-! ## The host -/

section Hosts

variable {n : Nat}

theorem modifyHost_numbered {f : Host → Host} (hf : ∀ m h, n ≤ m → h.Below m → (f h).Below m) :
    Keeps (Numbered Host.Below n) (modifyHost f) :=
  fun _ hw => { hw with host := hf _ _ hw.given hw.host }

theorem modifyRecord_numbered (record : Nat) (f : FunctionRecord → FunctionRecord) :
    Keeps (Numbered Host.Below n) (modifyRecord record f) :=
  modifyHost_numbered fun _ _ _ hh =>
    { hh with records := Assoc.forall_update hh.records record fun _ _ h => h }

/-- A policy is kept under a number that has been given out. -/
theorem setNativePolicy_numbered (k : Nat) {policy : Option BusyPolicy}
    (hk : policy.isSome → k < n) : Keeps (Numbered Host.Below n) (setNativePolicy k policy) := by
  refine (Engine.setAsksHost_numbered k _).bind fun _ => modifyHost_numbered fun m h hm hh => ?_
  cases policy with
  | none => exact { hh with policies := Assoc.forall_erase hh.policies k }
  | some p =>
    exact { hh with policies := Assoc.forall_set hh.policies (Nat.lt_of_lt_of_le (hk rfl) hm) }

/-- A function's record has a number that has been given out. -/
theorem registerNative_gives (k : Nat) (r : FunctionRecord) :
    Gives Host.Below n (fun m result => ∀ record, result = .ok record → record < m)
      (registerNative k r) := by
  unfold registerNative
  refine (Numbered.fresh Host.below_succ).bind fun m hm record hrecord =>
    .keeps_bind (Engine.register_numbered k hrecord) fun code => .ite ?_ (.pure fun _ _ _ h => nomatch h)
  refine .keeps_bind (modifyHost_numbered fun m' h hm' hh =>
    { hh with records := Assoc.forall_set hh.records (Nat.lt_of_lt_of_le hrecord hm') })
    fun _ => .pure fun m' hm' => ?_
  rintro _ ⟨⟩
  exact Nat.lt_of_lt_of_le hrecord hm'

/-- A connection that is kept under a name. -/
theorem keepConnection_numbered (name : String) {c : Connection} (hc : c.Same (Below n) c) :
    Keeps (Numbered Host.Below n) (Session.keepConnection name c) :=
  modifyHost_numbered fun _ _ hm hh =>
    { hh with connections := Assoc.forall_set hh.connections (Connection.below_mono hm hc) }

end Hosts

/-! ## The library -/

section Library

variable {hooks : Hooks Host} (hhost : ∀ n, HostKeeps hooks (Numbered Host.Below n)) {n : Nat}

/-- Registered functions are noted with their numbers. -/
theorem Connection.register_gives (hooks : Hooks Host) {c : Connection} (hc : c.Same (Below n) c)
    (name : String) (arity : Int32) (callbacks : Callbacks) :
    Gives Host.Below n (fun m answer => answer.2.Same (Below m) answer.2)
      (c.register (native hooks) name arity callbacks) := by
  have hsame (answer : Except Error Unit) :
      Gives Host.Below n (fun m answer => answer.2.Same (Below m) answer.2)
        (pure (answer, c) : StateM SessionWorld _) := .pure fun m hm => Connection.below_mono hm hc
  unfold Connection.register
  dsimp only
  cases hk : c.native? with
  | none => exact hsame _
  | some k =>
    cases nulError? name with
    | some reason => exact hsame _
    | none =>
      refine (registerNative_gives k _).bind fun m hm result hresult => ?_
      cases result with
      | error code => exact .pure fun m' hm' => Connection.below_mono (Nat.le_trans hm hm') hc
      | ok record =>
        refine .pure fun m' hm' => ?_
        have hparts := (Connection.below_mono (Nat.le_trans hm hm') hc).parts
        exact Connection.below_self (hk ▸ hparts.1) (Connection.insert_same hparts.2 name arity
          (Below.self (Nat.lt_of_lt_of_le (hresult record rfl) hm')))

/-- What a named connection is used for. -/
theorem withConnection_numbered {α : Type} (name : String) (missing : Error → α)
    {f : Connection → StateM SessionWorld α}
    (hf : ∀ m c, n ≤ m → c.Same (Below m) c → Keeps (Numbered Host.Below m) (f c)) :
    Keeps (Numbered Host.Below n) (withConnection name missing f) := by
  unfold withConnection
  refine .get_bind fun w hw => ?_
  cases hc : w.host.connections.get? name with
  | none => exact hw
  | some c =>
    exact (hf _ c hw.given (hw.host.connections _ (Assoc.mem_of_get? hc)) w hw.top).mono hw.given

theorem registerOn_numbered (hooks : Hooks Host) (name function : String) (arity : Int32)
    (callbacks : Callbacks) :
    Keeps (Numbered Host.Below n) (registerOn (native hooks) name function arity callbacks) :=
  withConnection_numbered name _ fun _ _ _ hc =>
    Engine.Keeps.bind_gives (Connection.register_gives hooks hc function arity callbacks)
      fun _ _ _ hanswer => (keepConnection_numbered name hanswer).bind fun _ => .pure _

include hhost

/-- The engine of a session. -/
theorem native_numbered : (native hooks).Keeps (Numbered Host.Below n) fun _ => True :=
  nativeOn_keeps
    (fun c text w hw => ⟨fun _ _ _ => trivial,
      (Engine.prepare_gives Host.below_succ hhost c text).keeps w hw⟩)
    (fun k => Engine.step_numbered Host.below_succ hhost k)
    (fun k _ => Engine.finalize_numbered Host.below_succ hhost k)
    Engine.interrupt_numbered (fun record _ => modifyRecord_numbered record _)
    fun _ => modifyHost_numbered fun _ _ _ hh => { hh with }

/-- What closures use. -/
theorem ambient_numbered : (ambient (native hooks)).Keeps (Numbered Host.Below n) :=
  ambient_keeps (native_numbered hhost) modifyRecord_numbered
    (fun _ => modifyHost_numbered fun _ _ _ hh => { hh with }) (registerOn_numbered hooks)

omit hhost in
/-- A policy that is asked stays where it is. -/
theorem askPolicy_numbered {a : Ambient SessionWorld} (ha : ∀ n, a.Keeps (Numbered Host.Below n))
    (n connection attempt : Nat) :
    Keeps (Numbered Host.Below n) (askPolicy a connection attempt) := by
  unfold askPolicy
  refine .get_bind fun w hw => ?_
  cases hpolicy : w.host.policies.get? connection with
  | none => exact hw
  | some policy =>
    have hconnection : connection < w.nextId := hw.host.policies _ (Assoc.mem_of_get? hpolicy)
    refine Numbered.mono (Keeps.bind (BusyPolicy.request_keeps (ha w.nextId) policy _)
      (fun answer => ?_) w hw.top) hw.given
    refine Keeps.bind (modifyHost_numbered fun m h hm hh => ?_) fun _ => .pure _
    exact { hh with policies := Assoc.forall_set hh.policies (Nat.lt_of_lt_of_le hconnection hm) }

/-! ## Statements and connections -/

omit hhost in
/-- A step leaves the number of a statement or takes it away. -/
theorem Statement.step_vm {σ : Type} (native : Native σ) (s : Statement) (w : σ) :
    ((s.step native).run w).1.2.vm = s.vm ∨ ((s.step native).run w).1.2.vm = .finalized := by
  unfold Statement.step
  split
  next h => exact .inr h
  next h => exact .inl rfl
  next k h =>
    simp only [run_bind]
    split
    · exact .inl (s.succeed_answer native k _ _).2
    · unfold Statement.fail
      simp only [run_bind]
      split
      · exact .inl rfl
      · split
        · exact .inr rfl
        · exact .inl rfl

/-- A step of a statement, which has the same number afterwards, or none. -/
theorem Statement.step_gives {s : Statement} (hs : s.Same (Below n) s) :
    Gives Host.Below n (fun m answer => answer.2.Same (Below m) answer.2)
      (s.step (native hooks)) := by
  intro w hw
  have hnext := (Statement.step_keeps (native_numbered hhost) (s := s) fun _ _ => trivial).keeps w hw
  refine ⟨hnext, Statement.below_of_vm ?_⟩
  rcases Statement.step_vm (native hooks) s w with heq | heq
  · rw [heq]
    exact (Statement.below_mono hnext.given hs).parts
  · rw [heq]
    exact .finalized

theorem Statement.finalize_gives (s : Statement) :
    Gives Host.Below n (fun m answer => answer.2.Same (Below m) answer.2)
      (s.finalize (native hooks)) := by
  intro w hw
  refine ⟨Statement.finalize_keeps (native_numbered hhost) (s := s) (fun _ _ => trivial) w hw, ?_⟩
  refine Statement.below_of_vm ?_
  have hvm : ((s.finalize (native hooks)).run w).1.2.vm = .finalized := by
    unfold Statement.finalize
    cases s.vm with
    | finalized => rfl
    | empty => rfl
    | live k =>
      simp only [run_bind]
      split <;> rfl
  rw [hvm]
  exact .finalized

/-- A compiled statement has a number that has been given out. -/
theorem Connection.compile_gives (c : Connection) (sql : String) :
    Gives Host.Below n (fun m answer => ∀ s remainder, answer = .ok (s, remainder) → s.Same (Below m) s)
      (c.compile (native hooks) sql) := by
  have hprepare (k : Nat) : Gives Host.Below n
      (fun m result => ∀ j used, result = .ok (some j, used) → j < m)
      ((native hooks).prepare k sql) := by
    refine (Engine.prepare_gives Host.below_succ hhost k sql.toList).bind fun m hm result hresult => ?_
    match result, hresult with
    | .error fault, _ => exact .pure fun _ _ _ _ h => nomatch h
    | .ok (j?, stop), hresult =>
      refine .pure fun m' hm' => ?_
      rintro j _ ⟨⟩
      exact Nat.lt_of_lt_of_le (hresult j stop rfl) hm'
  unfold Connection.compile Connection.withNative
  cases c.native? with
  | none => exact .pure fun _ _ _ _ h => nomatch h
  | some k =>
    refine Gives.bind (P := fun m (result : Except Error (Option Nat × Nat)) =>
      ∀ j used, result = .ok (some j, used) → j < m) ?_ fun m hm result hresult => ?_
    · unfold Connection.prepare
      cases nulError? sql with
      | some reason => exact .pure fun _ _ _ _ h => nomatch h
      | none =>
        refine (hprepare k).bind fun m hm result hresult => ?_
        cases result with
        | error failure => exact .pure fun _ _ _ _ h => nomatch h
        | ok found =>
          refine .pure fun m' hm' => ?_
          rintro j used ⟨⟩
          exact Nat.lt_of_lt_of_le (hresult j used rfl) hm'
    · match result, hresult with
      | .error e, _ =>
        refine .keeps_bind ((native_numbered hhost).log _) fun _ => ?_
        exact .pure fun _ _ _ _ h => nomatch h
      | .ok (j?, used), hresult =>
        refine .pure fun m' hm' => ?_
        rintro s _ ⟨⟩
        refine Statement.below_of_vm ?_
        cases j? with
        | none => exact .empty
        | some j => exact .live (Below.self (Nat.lt_of_lt_of_le (hresult j used rfl) hm'))

omit hhost

theorem disconnectNative_numbered (hooks : Hooks Host) (k : Nat) :
    Keeps (Numbered Host.Below n) ((native hooks).disconnect k) := by
  have hpolicy : Keeps (Numbered Host.Below n) (setNativePolicy k none) :=
    setNativePolicy_numbered k nofun
  exact (Engine.disconnect_numbered k).bind fun _ => hpolicy.bind fun _ => .pure none

theorem Connection.drop_numbered (hooks : Hooks Host) (c : Connection) :
    Keeps (Numbered Host.Below n) (c.drop (native hooks)) := by
  unfold Connection.drop
  cases c.native? with
  | none => exact .pure ()
  | some k => exact (disconnectNative_numbered hooks k).bind fun _ => .pure ()

theorem logNative_numbered (hooks : Hooks Host) (r : LogRecord) :
    Keeps (Numbered Host.Below n) ((native hooks).log r) :=
  modifyHost_numbered fun _ _ _ hh => { hh with }

theorem Connection.close_gives (hooks : Hooks Host) {c : Connection} (hc : c.Same (Below n) c) :
    Gives Host.Below n (fun m answer => answer.2.Same (Below m) answer.2)
      (c.close (native hooks)) := by
  have hclosed (answer : Except Error Unit) :
      Gives Host.Below n (fun m answer => answer.2.Same (Below m) answer.2)
        (pure (answer, { c with native? := none }) : StateM SessionWorld _) :=
    .pure fun m hm => Connection.below_self .none (Connection.below_mono hm hc).parts.2
  unfold Connection.close
  cases c.native? with
  | none => exact .pure fun m hm => Connection.below_mono hm hc
  | some k =>
    refine .keeps_bind (disconnectNative_numbered hooks k) fun failure? =>
      .keeps_bind (logNative_numbered hooks _) fun _ => ?_
    cases failure? with
    | none => exact hclosed _
    | some failure => exact hclosed _

/-- A connection that is opened has a number that has been given out. -/
theorem Connection.openMode_gives (hooks : Hooks Host) (path : String) (mode : Int32) :
    Gives Host.Below n (fun m answer => ∀ c, answer = .ok c → c.Same (Below m) c)
      (Connection.openMode (native hooks) path mode) := by
  have hrefused (e : Error) : Gives Host.Below n
      (fun m (answer : Except Error Connection) => ∀ c, answer = .ok c → c.Same (Below m) c)
      (pure (.error e) : StateM SessionWorld _) := .pure fun _ _ _ h => nomatch h
  have hconnect (flags : OpenFlags) : Gives Host.Below n
      (fun m (answer : Except Error Nat) => ∀ k, answer = .ok k → k < m)
      (Connection.connect (native hooks) path flags) := by
    unfold Connection.connect
    cases nulError? path with
    | some reason => exact .pure fun _ _ _ h => nomatch h
    | none =>
      refine Gives.bind (P := fun m (result : Except ConnectFailure Nat) =>
        ∀ k, result = .ok k → k < m) ?_ fun m hm result hresult => ?_
      · refine Gives.bind (Engine.connect_gives Host.below_succ path flags) fun m hm result hresult => ?_
        cases result with
        | ok k =>
          refine .pure fun m' hm' => ?_
          rintro _ ⟨⟩
          exact Nat.lt_of_lt_of_le (hresult k rfl) hm'
        | error fault =>
          exact (Engine.connectNowhere_gives Host.below_succ).bind fun _ _ k _ =>
            .pure fun _ _ _ h => nomatch h
      · match result, hresult with
        | .ok k, hresult =>
          refine .pure fun m' hm' => ?_
          rintro _ ⟨⟩
          exact Nat.lt_of_lt_of_le (hresult k rfl) hm'
        | .error ⟨failure, none⟩, _ => exact .pure fun _ _ _ h => nomatch h
        | .error ⟨failure, some k⟩, _ =>
          exact .keeps_bind (disconnectNative_numbered hooks k) fun _ => .pure fun _ _ _ h => nomatch h
  unfold Connection.openMode
  cases OpenFlags.ofMode mode with
  | error e => exact hrefused e
  | ok flags =>
    unfold Connection.openWithFlags
    dsimp only
    split
    · exact hrefused _
    · refine (hconnect flags).bind fun m hm result hresult => ?_
      cases result with
      | error e => exact .keeps_bind (logNative_numbered hooks _) fun _ => .pure fun _ _ _ h => nomatch h
      | ok k =>
        refine .keeps_bind (logNative_numbered hooks _) fun _ => .pure fun m' hm' => ?_
        rintro _ ⟨⟩
        exact Connection.below_self (.some (Below.self (Nat.lt_of_lt_of_le (hresult k rfl) hm'))) .nil

/-- A policy is installed on a connection that is there. -/
theorem Connection.setPolicy_numbered (hooks : Hooks Host) {c : Connection} (hc : c.Same (Below n) c)
    (policy : Option BusyPolicy) :
    Keeps (Numbered Host.Below n) (c.setPolicy (native hooks) policy) := by
  unfold Connection.setPolicy Connection.withNative
  cases hk : c.native? with
  | none => exact .pure _
  | some k => exact .map _ (setNativePolicy_numbered k fun _ => Connection.native_below hc hk)

end Library

/-- The engine's questions, however deep closures nest. -/
theorem hooks_numbered (depth n : Nat) : HostKeeps (hooks depth) (Numbered Host.Below n) :=
  hooks_keep_all (fun _ hhost _ => ambient_numbered hhost) (fun _ ha => askPolicy_numbered ha) depth n

/-! ## Steps -/

namespace Session

variable {n : Nat}

theorem engine_numbered : engine.Keeps (Numbered Host.Below n) fun _ => True :=
  native_numbered (hooks_numbered maxNesting)

theorem onConnection_numbered (name : String) {f : Connection → StateM SessionWorld StepAnswer}
    (hf : ∀ m c, n ≤ m → c.Same (Below m) c → Keeps (Numbered Host.Below m) (f c)) :
    Keeps (Numbered Host.Below n) (onConnection name f) := by
  unfold onConnection
  refine .get_bind fun w hw => ?_
  cases hc : w.host.connections.get? name with
  | none => exact hw
  | some c =>
    exact (hf _ c hw.given (hw.host.connections _ (Assoc.mem_of_get? hc)) w hw.top).mono hw.given

theorem keepStatement_numbered (name connection : String) {s : Statement} (hs : s.Same (Below n) s) :
    Keeps (Numbered Host.Below n) (keepStatement name connection s) :=
  modifyHost_numbered fun _ _ hm hh =>
    { hh with statements := Assoc.forall_set hh.statements (Statement.below_mono hm hs) }

theorem onStatement_numbered (name : String)
    {f : Statement → StateM SessionWorld (StepAnswer × Statement)}
    (hf : ∀ m s, n ≤ m → s.Same (Below m) s →
      Gives Host.Below m (fun m' answer => answer.2.Same (Below m') answer.2) (f s)) :
    Keeps (Numbered Host.Below n) (onStatement name f) := by
  unfold onStatement
  refine .get_bind fun w hw => ?_
  cases hs : w.host.statements.get? name with
  | none => exact hw
  | some e =>
    have hsame := hw.host.statements _ (Assoc.mem_of_get? hs)
    refine (Engine.Keeps.bind_gives (hf _ e.2 hw.given hsame) (fun m hm answer hanswer => ?_)
      w hw.top).mono hw.given
    exact (keepStatement_numbered name e.1 hanswer).bind fun _ => .pure _

theorem dropStatement_numbered (name : String) : Keeps (Numbered Host.Below n) (dropStatement name) := by
  unfold dropStatement
  refine .get_bind fun w hw => ?_
  cases w.host.statements.get? name with
  | none => exact hw
  | some e =>
    exact Keeps.bind (modifyHost_numbered
        (f := fun h => { h with statements := Assoc.erase h.statements name }) fun _ _ _ hh =>
          { hh with statements := Assoc.forall_erase hh.statements name })
      (fun _ => Statement.drop_keeps engine_numbered fun _ _ => trivial) w hw

theorem dropStatementsOf_numbered (connection : String) :
    Keeps (Numbered Host.Below n) (dropStatementsOf connection) :=
  .get_bind fun w hw => Keeps.forM (fun name => dropStatement_numbered name) _ w hw

theorem dropConnection_numbered (name : String) :
    Keeps (Numbered Host.Below n) (dropConnection name) := by
  refine (dropStatementsOf_numbered name).bind fun _ => .get_bind fun w hw => ?_
  cases w.host.connections.get? name with
  | none => exact hw
  | some c =>
    exact Keeps.bind (modifyHost_numbered
        (f := fun h => { h with connections := Assoc.erase h.connections name }) fun _ _ _ hh =>
          { hh with connections := Assoc.forall_erase hh.connections name })
      (fun _ => Connection.drop_numbered _ c) w hw

/-- A connection is opened in the place of the one that had its name. -/
theorem open_numbered (name path : String) (mode : Int32) : Keeps (Numbered Host.Below n) (do
    dropConnection name
    keepOpened name (← Connection.openMode engine path mode)) := by
  refine (dropConnection_numbered name).bind fun _ =>
    Engine.Keeps.bind_gives (Connection.openMode_gives _ path mode) fun m hm opened hopened => ?_
  cases opened with
  | error e => exact .pure _
  | ok c => exact (keepConnection_numbered name (hopened c rfl)).bind fun _ => .pure _

/-- An arbitrary policy is installed. -/
theorem install_numbered (name : String) (policy : Connection → Option BusyPolicy) :
    Keeps (Numbered Host.Below n) (do
      dropStatementsOf name
      onConnection name fun c => .unit <$> c.setPolicy engine (policy c)) :=
  (dropStatementsOf_numbered name).bind fun _ => onConnection_numbered name fun _ c _ hc =>
    .map _ (Connection.setPolicy_numbered _ hc (policy c))

/-- Every step keeps the world of a session numbered. -/
theorem run_numbered (step : SessionStep) : Keeps (Numbered Host.Below n) (run step) := by
  have hread {α : Type} {wrap : α → StepAnswer} (name : String) {f : Connection → StateM SessionWorld α}
      (hf : ∀ m c, Keeps (Numbered Host.Below m) (f c)) :
      Keeps (Numbered Host.Below n) (onConnection name fun c => wrap <$> f c) :=
    onConnection_numbered name fun m c _ _ => .map wrap (hf m c)
  have hquery (m : Nat) (c : Connection) (sql : String) :
      Keeps (Numbered Host.Below m) (c.query engine sql) := Connection.query_keeps engine_numbered c sql
  cases step with
  | openDatabase name path mode => exact open_numbered name path mode
  | openMemory name => exact open_numbered name Connection.memoryPath 0
  | close name =>
    refine (dropStatementsOf_numbered name).bind fun _ => onConnection_numbered name fun m c _ hc => ?_
    exact Engine.Keeps.bind_gives (Connection.close_gives _ hc) fun m' _ answer hanswer =>
      (keepConnection_numbered name hanswer).bind fun _ => .pure _
  | dropConnection name => exact (dropConnection_numbered name).bind fun _ => .pure _
  | isClosed name => exact onConnection_numbered name fun _ _ _ _ => .pure _
  | path name => exact onConnection_numbered name fun _ _ _ _ => .pure _
  | showConnection name => exact onConnection_numbered name fun _ _ _ _ => .pure _
  | showStatement name =>
    exact onStatement_numbered name fun m s _ hs => .pure fun m' hm' => Statement.below_mono hm' hs
  | compile connection sql name =>
    refine onConnection_numbered connection fun m c _ _ => Engine.Keeps.bind_gives
      (Connection.compile_gives (hooks_numbered maxNesting) c sql) fun m' _ answer hanswer => ?_
    match answer, hanswer with
    | .error e, _ => exact .pure _
    | .ok (s, remainder), hanswer =>
      exact (dropStatement_numbered name).bind fun _ =>
        (keepStatement_numbered name connection (hanswer s remainder rfl)).bind fun _ => .pure _
  | step name =>
    exact onStatement_numbered name fun m s _ hs =>
      (Statement.step_gives (hooks_numbered maxNesting) hs).bind fun m' _ answer hanswer =>
        .pure fun m'' hm'' => Statement.below_mono hm'' hanswer
  | finalize name =>
    exact onStatement_numbered name fun m s _ _ =>
      (Statement.finalize_gives (hooks_numbered maxNesting) s).bind fun m' _ answer hanswer =>
        .pure fun m'' hm'' => Statement.below_mono hm'' hanswer
  | dropStatement name => exact (dropStatement_numbered name).bind fun _ => .pure _
  | query name sql => exact hread name fun m c => hquery m c sql
  | call name function args => exact hread name fun m c => hquery m c _
  | aggregate name function grouped arity rows => exact hread name fun m c => hquery m c _
  | execute name sql => exact hread name fun m c => Connection.execute_keeps engine_numbered c sql
  | changes name =>
    refine hread name fun m c => ?_
    unfold Connection.changes Connection.withNative
    cases c.native? <;> exact fun _ hw => hw
  | lastInsertRowId name =>
    refine hread name fun m c => ?_
    unfold Connection.lastInsertRowId Connection.withNative
    cases c.native? <;> exact fun _ hw => hw
  | interrupt name =>
    refine hread name fun m c => ?_
    unfold Connection.interrupt Connection.withNative
    cases c.native? with
    | none => exact .pure _
    | some k => exact .map _ (Engine.interrupt_numbered k)
  | interruptThrough handle =>
    exact ((ambient_numbered (hooks_numbered maxNesting)).interrupt handle).bind fun _ => .pure _
  | takeHandle name handle =>
    refine onConnection_numbered name fun m c _ hc => ?_
    unfold Connection.interruptHandle
    cases hk : c.native? with
    | none => exact .pure _
    | some k =>
      refine Keeps.bind (modifyHost_numbered fun m' h hm' hh => ?_) fun _ => .pure _
      have hbelow : k < m' := Nat.lt_of_lt_of_le (Connection.native_below hc hk) hm'
      exact { hh with handles := Assoc.forall_set hh.handles hbelow }
  | register name function arity callbacks =>
    exact hread name fun _ _ => registerOn_numbered _ name function arity callbacks
  | declare name function type =>
    exact hread name fun m c => Connection.declare_keeps engine_numbered c function type
  | busyHandler name handler => exact install_numbered name _
  | busyTimeout name ms => exact install_numbered name _
  | writeFile path bytes =>
    exact (Engine.writeFile_numbered Host.below_succ path bytes).bind fun _ => .pure _

end Session

end HostSql
