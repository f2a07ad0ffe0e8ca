import HostSql.Connection
import HostSql.Proofs.Matching.Linked

/-!
# Statements and connections are used alike

Over engines that answer alike, the library's statements and connections are used alike: they give the
same results and errors, and what they become is the same but for numbers. What it takes is said once for
all engines, in `Native.Linked`; then every operation follows its definition.
-/

namespace HostSql

/-! ## Things under other numbers -/

section

variable (same : Nat → Nat → Prop)

/-- Virtual machines that are the same but for numbers. -/
inductive Vm.Same : Vm → Vm → Prop
  | live {k l} (h : same k l) : Same (.live k) (.live l)
  | empty : Same .empty .empty
  | finalized : Same .finalized .finalized

/-- Statements that are the same but for numbers. -/
inductive Statement.Same : Statement → Statement → Prop
  | mk (s : Statement) {v v'} (h : v.Same same v') : Same { s with vm := v } { s with vm := v' }

/-- Registered functions whose records have numbers that stand for each other. -/
def FunctionRegistry.Same : FunctionRegistry → FunctionRegistry → Prop :=
  List.Forall₂ fun e e' => e.1 = e'.1 ∧ same e.2 e'.2

/-- Connections that are the same but for numbers. -/
inductive Connection.Same : Connection → Connection → Prop
  | mk (path : String) {n n' fs fs'} (hnative : Option.Rel same n n')
      (hfunctions : FunctionRegistry.Same same fs fs') : Same ⟨n, path, fs⟩ ⟨n', path, fs'⟩

/-- Connections that have been made alike, opened or not. -/
inductive ConnectAlike : Except ConnectFailure Nat → Except ConnectFailure Nat → Prop
  | ok {k l} (h : same k l) : ConnectAlike (.ok k) (.ok l)
  | error (f : NativeFailure) {c c'} (h : Option.Rel same c c') :
      ConnectAlike (.error ⟨f, c⟩) (.error ⟨f, c'⟩)

end

variable {σ τ : Type} {same : Nat → Nat → Prop}

/-! ## Engines -/

/-- The codes with which a step may end. -/
def NativeStatus.Known (s : NativeStatus) : Prop :=
  s.code = ResultCode.row ∨ s.code = ResultCode.done ∨ ErrorKind.isKnownFailure s.code = true

/-- Engines that answer alike: what they are asked under numbers that stand for each other has the same
answer but for numbers, and no step ends in an unknown way. Some paths cannot be opened, and some
callbacks not be given to them. -/
structure Native.Linked (R : σ → τ → Prop) (same : Nat → Nat → Prop)
    (opens : String → OpenFlags → Prop) (callable : Callbacks → Prop) (asks : BusyPolicy → Prop)
    (n : Native σ) (n' : Native τ) : Prop where
  connect : ∀ path flags, opens path flags →
    HostSql.Linked R (ConnectAlike same) (n.connect path flags) (n'.connect path flags)
  disconnect : ∀ {k l}, same k l → HostSql.Linked R Eq (n.disconnect k) (n'.disconnect l)
  isOpen : ∀ {k l}, same k l → HostSql.Linked R Eq (n.isOpen k) (n'.isOpen l)
  prepare : ∀ {k l}, same k l → ∀ sql,
    HostSql.Linked R (EndAlike fun r r' => Option.Rel same r.1 r'.1 ∧ r.2 = r'.2) (n.prepare k sql)
      (n'.prepare l sql)
  execute : ∀ {k l}, same k l → ∀ sql, HostSql.Linked R Eq (n.execute k sql) (n'.execute l sql)
  changes : ∀ {k l}, same k l → HostSql.Linked R Eq (n.changes k) (n'.changes l)
  lastInsertRowId : ∀ {k l}, same k l →
    HostSql.Linked R Eq (n.lastInsertRowId k) (n'.lastInsertRowId l)
  interrupt : ∀ {k l}, same k l → HostSql.Linked R Eq (n.interrupt k) (n'.interrupt l)
  setPolicy : ∀ {k l}, same k l → ∀ policy, (∀ p ∈ policy, asks p) →
    HostSql.Linked R Eq (n.setPolicy k policy) (n'.setPolicy l policy)
  register : ∀ {k l}, same k l → ∀ r, callable r.callbacks →
    HostSql.Linked R (EndAlike same) (n.register k r) (n'.register l r)
  declareType : ∀ {k l}, same k l → ∀ type,
    HostSql.Linked R Eq (n.declareType k type) (n'.declareType l type)
  step : ∀ {k l}, same k l →
    HostSql.Linked R (fun s s' => s = s' ∧ s.Known) (n.step k) (n'.step l)
  columnCount : ∀ {k l}, same k l → HostSql.Linked R Eq (n.columnCount k) (n'.columnCount l)
  columnName : ∀ {k l}, same k l → ∀ i,
    HostSql.Linked R Eq (n.columnName k i) (n'.columnName l i)
  columnType : ∀ {k l}, same k l → ∀ i,
    HostSql.Linked R Eq (n.columnType k i) (n'.columnType l i)
  columnText : ∀ {k l}, same k l → ∀ i,
    HostSql.Linked R Eq (n.columnText k i) (n'.columnText l i)
  finalize : ∀ {k l}, same k l → HostSql.Linked R Eq (n.finalize k) (n'.finalize l)
  log : ∀ r : LogRecord, r.level = .debug → HostSql.Linked R Eq (n.log r) (n'.log r)

/-- Going through as many columns. -/
theorem columns_linked {R : σ → τ → Prop} {α : Type} {f : Nat → StateM σ α} {g : Nat → StateM τ α}
    (hfg : ∀ i, Linked R Eq (f i) (g i)) (count : Nat) :
    Linked R Eq ((List.range count).mapM f) ((List.range count).mapM g) :=
  (Linked.mapM (fun i _ hi => hi ▸ hfg i) (forall₂_eq _)).mono fun _ _ hall =>
    List.forall₂_eq_eq_eq ▸ hall

/-- The same answer, with statements that are the same but for numbers. -/
def Stepped {α : Type} (same : Nat → Nat → Prop) (p p' : α × Statement) : Prop :=
  p.1 = p'.1 ∧ p.2.Same same p'.2

section Operations

variable {R : σ → τ → Prop} {opens : String → OpenFlags → Prop} {callable : Callbacks → Prop}
  {asks : BusyPolicy → Prop} {n : Native σ} {n' : Native τ}
  (h : n.Linked R same opens callable asks n')

include h

/-! ## Statements -/

namespace Statement

theorem withColumns_linked {k l : Nat} (hkl : same k l) {s s' : Statement} (hs : s.Same same s') :
    Linked R (fun p p' => p.1 = p'.1 ∧ p.2.1 = p'.2.1 ∧ p.2.2.Same same p'.2.2)
      (s.withColumns n k) (s'.withColumns n' l) := by
  cases hs with
  | @mk s v v' hvm =>
    obtain ⟨_, columns?, types?⟩ := s
    unfold withColumns
    refine (h.columnCount hkl).bind_same fun count => ?_
    have hcolumns := columns_linked (h.columnName hkl) count
    have htypes := columns_linked (h.columnType hkl) count
    have hanswer (columns : List String) (types : List (Option String)) :
        Linked R (fun p p' => p.1 = p'.1 ∧ p.2.1 = p'.2.1 ∧ p.2.2.Same same p'.2.2)
          (pure (columns, types, (⟨v, some columns, some types⟩ : Statement)))
          (pure (columns, types, (⟨v', some columns, some types⟩ : Statement))) :=
      .pure ⟨rfl, rfl, .mk ⟨.empty, some columns, some types⟩ hvm⟩
    -- the names and the types are asked for if they are not known
    cases columns? with
    | some columns =>
      refine (Linked.same columns).bind_same fun columns => ?_
      cases types? with
      | some types => exact (Linked.same types).bind_same fun types => hanswer columns types
      | none => exact htypes.bind_same fun types => hanswer columns types
    | none =>
      refine hcolumns.bind_same fun columns => ?_
      cases types? with
      | some types => exact (Linked.same types).bind_same fun types => hanswer columns types
      | none => exact htypes.bind_same fun types => hanswer columns types

theorem succeed_linked {k l : Nat} (hkl : same k l) (hasRow : Bool) {s s' : Statement}
    (hs : s.Same same s') :
    Linked R (Stepped same) (s.succeed n k hasRow) (s'.succeed n' l hasRow) := by
  unfold succeed
  refine (withColumns_linked h hkl hs).bind fun r r' hr => ?_
  obtain ⟨columns, types, t⟩ := r
  obtain ⟨columns', types', t'⟩ := r'
  obtain ⟨hcolumns, htypes, ht⟩ := hr
  cases hcolumns
  cases htypes
  have hanswer (row : Option (List (Option String))) : Linked R (Stepped same)
      (pure (⟨row, columns, types⟩, t)) (pure ((⟨row, columns, types⟩ : StepResult), t')) :=
    .pure ⟨rfl, ht⟩
  refine .ite (Linked.bind_same ?_ hanswer) ((Linked.same none).bind_same hanswer)
  exact (columns_linked (h.columnText hkl) _).map fun _ _ heq => congrArg some heq

/-- A step that fails in a known way. -/
theorem fail_linked {k l : Nat} (hkl : same k l) {status : NativeStatus}
    (hknown : ErrorKind.isKnownFailure status.code = true) {s s' : Statement}
    (hs : s.Same same s') :
    Linked R (Stepped same) (s.fail n k status) (s'.fail n' l status) := by
  unfold fail
  refine .ite (.pure ⟨rfl, hs⟩) ?_
  rw [if_pos hknown, if_pos hknown]
  refine (h.finalize hkl).bind_same fun _ => (h.log _ rfl).bind_same fun _ => .pure ⟨rfl, ?_⟩
  cases hs with
  | mk s _ => exact .mk s .finalized

/-- Steps have the same results and the same errors. -/
theorem step_linked {s s' : Statement} (hs : s.Same same s') :
    Linked R (Stepped same) (s.step n) (s'.step n') := by
  have hs' := hs
  cases hs with
  | mk s hvm =>
    unfold step
    cases hvm with
    | finalized => exact .pure ⟨rfl, hs'⟩
    | empty =>
      refine .pure ⟨rfl, ?_⟩
      exact .mk { s with columns := some (s.columns.getD []), types := some (s.types.getD []) } .empty
    | @live k l hkl =>
      refine (h.step hkl).bind fun status status' hstatus => ?_
      obtain ⟨heq, hknown⟩ := hstatus
      cases heq
      dsimp only
      split
      · refine (succeed_linked h hkl _ hs').bind fun r r' hr => .pure ⟨?_, hr.2⟩
        rw [hr.1]
      next hended =>
        have hfailed : ErrorKind.isKnownFailure status.code = true := by
          simp only [Bool.or_eq_true, decide_eq_true_eq, not_or] at hended
          exact (hknown.resolve_left hended.1).resolve_left hended.2
        refine (fail_linked h hkl hfailed hs').bind fun r r' hr => .pure ⟨?_, hr.2⟩
        rw [hr.1]

theorem finalize_linked {s s' : Statement} (hs : s.Same same s') :
    Linked R (Stepped same) (s.finalize n) (s'.finalize n') := by
  cases hs with
  | mk s hvm =>
    unfold finalize
    cases hvm with
    | finalized => exact .pure ⟨rfl, .mk s .finalized⟩
    | empty => exact .pure ⟨rfl, .mk s .finalized⟩
    | live hkl =>
      refine (h.finalize hkl).bind_same fun failure? => ?_
      cases failure? with
      | some failure => exact .pure ⟨rfl, .mk s .finalized⟩
      | none => exact .pure ⟨rfl, .mk s .finalized⟩

theorem drop_linked {s s' : Statement} (hs : s.Same same s') :
    Linked R Eq (s.drop n) (s'.drop n') := by
  cases hs with
  | mk s hvm =>
    unfold drop
    cases hvm with
    | live hkl => exact (h.finalize hkl).bind_same fun _ => .same ()
    | _ => exact .same ()

/-- The same rows are collected. -/
theorem collect_linked {s s' : Statement} (hs : s.Same same s') (rows : List (List (Option String)))
    (left : Nat) :
    Linked R (fun p p' => p.1 = p'.1 ∧ p.2.1 = p'.2.1 ∧ p.2.2.Same same p'.2.2)
      (s.collect n rows left) (s'.collect n' rows left) := by
  induction left generalizing s s' rows with
  | zero =>
    cases hs with
    | mk s hvm => exact .pure ⟨rfl, rfl, .mk s hvm⟩
  | succ left ih =>
    unfold collect
    refine (step_linked h hs).bind fun r r' hr => ?_
    obtain ⟨result, t⟩ := r
    obtain ⟨result', t'⟩ := r'
    obtain ⟨heq, ht⟩ := hr
    cases heq
    cases result with
    | error e => exact .pure ⟨rfl, rfl, ht⟩
    | ok r =>
      dsimp only
      cases r.row with
      | none => exact .pure ⟨rfl, rfl, ht⟩
      | some row => exact ih ht _

end Statement

/-! ## Connections -/

namespace Connection

/-- Connections are opened under numbers that stand for each other, or for the same reason not. -/
theorem connect_linked {path : String} {flags : OpenFlags} (hopens : opens path flags) :
    Linked R (EndAlike same) (connect n path flags) (connect n' path flags) := by
  unfold connect
  split
  · exact .pure (.error _)
  · refine (h.connect path flags hopens).bind fun r r' hr => ?_
    cases hr with
    | ok hkl => exact .pure (.ok hkl)
    | error failure hrel =>
      cases hrel with
      | none => exact .pure (.error _)
      | some hkl => exact (h.disconnect hkl).bind_same fun _ => .pure (.error _)

theorem openWithFlags_linked {path : String} {flags : OpenFlags} (hopens : opens path flags) :
    Linked R (EndAlike (Connection.Same same)) (openWithFlags n path flags)
      (openWithFlags n' path flags) := by
  unfold openWithFlags
  refine .ite (.pure (.error _)) ((connect_linked h hopens).bind fun r r' hr => ?_)
  cases hr with
  | error e => exact (h.log _ rfl).bind_same fun _ => .pure (.error e)
  | ok hkl => exact (h.log _ rfl).bind_same fun _ => .pure (.ok (.mk path (.some hkl) .nil))

/-- Connections are opened alike, if their paths may be opened with the flags of the mode. -/
theorem openMode_linked {path : String} {mode : Int32}
    (hopens : ∀ flags, OpenFlags.ofMode mode = .ok flags → opens path flags) :
    Linked R (EndAlike (Connection.Same same)) (openMode n path mode) (openMode n' path mode) := by
  unfold openMode
  revert hopens
  cases OpenFlags.ofMode mode with
  | error e => exact fun _ => .pure (.error e)
  | ok flags => exact fun hopens => openWithFlags_linked h (hopens flags rfl)

theorem close_linked {c c' : Connection} (hc : c.Same same c') :
    Linked R (fun p p' => p.1 = p'.1 ∧ p.2.Same same p'.2) (c.close n) (c'.close n') := by
  cases hc with
  | mk path hnative hfunctions =>
    unfold close
    cases hnative with
    | none => exact .pure ⟨rfl, .mk path .none hfunctions⟩
    | some hkl =>
      refine (h.disconnect hkl).bind_same fun failure? => (h.log _ rfl).bind_same fun _ => ?_
      cases failure? with
      | some failure => exact .pure ⟨rfl, .mk path .none hfunctions⟩
      | none => exact .pure ⟨rfl, .mk path .none hfunctions⟩

theorem drop_linked {c c' : Connection} (hc : c.Same same c') :
    Linked R Eq (c.drop n) (c'.drop n') := by
  cases hc with
  | mk path hnative _ =>
    unfold drop
    cases hnative with
    | none => exact .same ()
    | some hkl => exact (h.disconnect hkl).bind_same fun _ => .same ()

omit h in
/-- What is done unless the connection is closed. -/
theorem withNative_linked {α α' : Type} {A : Except Error α → Except Error α' → Prop}
    (hclosed : A (.error (.closedHandle .database)) (.error (.closedHandle .database)))
    {c c' : Connection} (hc : c.Same same c') {f : Nat → StateM σ (Except Error α)}
    {g : Nat → StateM τ (Except Error α')} (hfg : ∀ {k l}, same k l → Linked R A (f k) (g l)) :
    Linked R A (c.withNative f) (c'.withNative g) := by
  cases hc with
  | mk path hnative _ =>
    unfold withNative
    cases hnative with
    | none => exact .pure hclosed
    | some hkl => exact hfg hkl

theorem prepare_linked {k l : Nat} (hkl : same k l) (sql : String) :
    Linked R (EndAlike fun r r' => Option.Rel same r.1 r'.1 ∧ r.2 = r'.2) (prepare n k sql)
      (prepare n' l sql) := by
  unfold prepare
  split
  · exact .pure (.error _)
  · refine (h.prepare hkl sql).bind fun r r' hr => ?_
    cases hr with
    | error failure => exact .pure (.error _)
    | ok hr => exact .pure (.ok hr)

/-- A text is compiled to statements that are the same but for numbers. -/
theorem compile_linked {c c' : Connection} (hc : c.Same same c') (sql : String) :
    Linked R (EndAlike fun r r' => r.1.Same same r'.1 ∧ r.2 = r'.2) (c.compile n sql)
      (c'.compile n' sql) := by
  refine withNative_linked (.error _) hc fun hkl => (prepare_linked h hkl sql).bind fun r r' hr => ?_
  cases hr with
  | error e => exact (h.log _ rfl).bind_same fun _ => .pure (.error e)
  | @ok r r' hr =>
    obtain ⟨k?, used⟩ := r
    obtain ⟨l?, used'⟩ := r'
    obtain ⟨hstatement, hused⟩ := hr
    cases hused
    refine .pure (.ok ⟨?_, rfl⟩)
    cases hstatement with
    | none => exact .mk ⟨.empty, none, none⟩ .empty
    | some hkl => exact .mk ⟨.empty, none, none⟩ (.live hkl)

theorem execute_linked {c c' : Connection} (hc : c.Same same c') (sql : String) :
    Linked R Eq (c.execute n sql) (c'.execute n' sql) := by
  refine withNative_linked rfl hc fun hkl => ?_
  split
  · exact .same _
  · refine (h.execute hkl sql).bind_same fun failure? => ?_
    cases failure? with
    | some failure => exact .same _
    | none => exact .same _

/-- Queries have the same answer. -/
theorem query_linked {c c' : Connection} (hc : c.Same same c') (sql : String) :
    Linked R Eq (c.query n sql) (c'.query n' sql) := by
  unfold query
  refine (compile_linked h hc sql).bind fun r r' hr => ?_
  cases hr with
  | error e => exact .same _
  | @ok r r' hr =>
    obtain ⟨s, remainder⟩ := r
    obtain ⟨s', remainder'⟩ := r'
    obtain ⟨hs, hremainder⟩ := hr
    cases hremainder
    refine (Statement.collect_linked h hs [] _).bind fun r r' hr => ?_
    obtain ⟨last, rows, t⟩ := r
    obtain ⟨last', rows', t'⟩ := r'
    obtain ⟨hlast, hrows, ht⟩ := hr
    cases hlast
    cases hrows
    refine (Statement.drop_linked h ht).bind_same fun _ => ?_
    cases last with
    | error e => exact .same _
    | ok r => exact .same _

theorem lastInsertRowId_linked {c c' : Connection} (hc : c.Same same c') :
    Linked R Eq (c.lastInsertRowId n) (c'.lastInsertRowId n') :=
  withNative_linked rfl hc fun hkl => (h.lastInsertRowId hkl).map fun _ _ heq => congrArg _ heq

theorem changes_linked {c c' : Connection} (hc : c.Same same c') :
    Linked R Eq (c.changes n) (c'.changes n') :=
  withNative_linked rfl hc fun hkl => (h.changes hkl).map fun _ _ heq => congrArg _ heq

theorem interrupt_linked {c c' : Connection} (hc : c.Same same c') :
    Linked R Eq (c.interrupt n) (c'.interrupt n') :=
  withNative_linked rfl hc fun hkl => (h.interrupt hkl).map fun _ _ heq => congrArg _ heq

/-! ## Callbacks -/

theorem setPolicy_linked {c c' : Connection} (hc : c.Same same c') {policy : Option BusyPolicy}
    (hasks : ∀ p ∈ policy, asks p) : Linked R Eq (c.setPolicy n policy) (c'.setPolicy n' policy) :=
  withNative_linked rfl hc fun hkl => (h.setPolicy hkl policy hasks).map fun _ _ heq => congrArg _ heq

omit h in
/-- A function is noted under the same key. -/
theorem insert_same {fs fs' : FunctionRegistry} (hfs : FunctionRegistry.Same same fs fs') (name : String)
    (arity : Int32) {k l : Nat} (hkl : same k l) :
    FunctionRegistry.Same same (fs.insert name arity k) (fs'.insert name arity l) := by
  unfold FunctionRegistry.insert
  induction hfs with
  | nil => exact .cons ⟨rfl, hkl⟩ .nil
  | @cons e e' _ _ he hrest ih =>
    obtain ⟨key, k'⟩ := e
    obtain ⟨key', l'⟩ := e'
    obtain ⟨hkey, hnumber⟩ := he
    cases hkey
    unfold Assoc.set
    split
    · exact .cons ⟨rfl, hkl⟩ hrest
    · exact .cons ⟨rfl, hnumber⟩ ih

/-- Functions are registered alike. -/
theorem register_linked {c c' : Connection} (hc : c.Same same c') (name : String) (arity : Int32)
    {callbacks : Callbacks} (hcallable : callable callbacks) :
    Linked R (fun p p' => p.1 = p'.1 ∧ p.2.Same same p'.2) (c.register n name arity callbacks)
      (c'.register n' name arity callbacks) := by
  cases hc with
  | mk path hnative hfunctions =>
    unfold register
    dsimp only
    generalize nulError? name = reason?
    cases hnative with
    | none => exact .pure ⟨rfl, .mk path .none hfunctions⟩
    | some hkl =>
      cases reason? with
      | some reason => exact .pure ⟨rfl, .mk path (.some hkl) hfunctions⟩
      | none =>
        refine (h.register hkl _ hcallable).bind fun r r' hr => ?_
        cases hr with
        | error code => exact .pure ⟨rfl, .mk path (.some hkl) hfunctions⟩
        | ok hnumber =>
          exact .pure ⟨rfl, .mk path (.some hkl) (insert_same hfunctions name arity hnumber)⟩

/-- The functions of a name are declared alike. -/
theorem declare_linked {c c' : Connection} (hc : c.Same same c') (name : String)
    (type : ResultType) : Linked R Eq (c.declare n name type) (c'.declare n' name type) := by
  unfold declare
  have hnamed : List.Forall₂ same (c.functions.named name) (c'.functions.named name) := by
    cases hc with
    | mk _ _ hfunctions =>
      refine List.rel_map (fun e e' he => he.2) (forall₂_filter hfunctions fun e e' he => ?_)
      rw [he.1]
  refine withNative_linked rfl hc fun _ => ?_
  dsimp only
  rw [forall₂_isEmpty hnamed]
  refine .ite (.same _) ((Linked.forM (fun k l hkl => ?_) hnamed).bind_same fun _ => .same _)
  exact h.declareType hkl type

omit h in
/-- Closed connections are told apart from open ones alike. -/
theorem isClosed_same {c c' : Connection} (hc : c.Same same c') : c.isClosed = c'.isClosed := by
  cases hc with
  | mk _ hnative _ => cases hnative <;> rfl

end Connection

end Operations

/-! ## Handles -/

/-- Handles of connections that stand for each other. -/
def InterruptHandle.Same (same : Nat → Nat → Prop) (i i' : InterruptHandle) : Prop :=
  same i.connection i'.connection

theorem Connection.interruptHandle_same {c c' : Connection} (hc : c.Same same c') :
    EndAlike (InterruptHandle.Same same) c.interruptHandle c'.interruptHandle := by
  cases hc with
  | mk _ hnative _ =>
    cases hnative with
    | none => exact .error _
    | some hkl => exact .ok hkl

theorem InterruptHandle.interrupt_linked {R : σ → τ → Prop} {opens : String → OpenFlags → Prop}
    {callable : Callbacks → Prop} {asks : BusyPolicy → Prop} {n : Native σ} {n' : Native τ}
    (h : n.Linked R same opens callable asks n') {i i' : InterruptHandle} (hi : i.Same same i') :
    Linked R Eq (i.interrupt n) (i'.interrupt n') :=
  (h.isOpen hi).bind_same fun _ => .ite (h.interrupt hi) (.same ())

end HostSql
