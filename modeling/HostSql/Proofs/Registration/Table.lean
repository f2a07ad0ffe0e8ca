import HostSql.Proofs.AssocLaws
import HostSql.Proofs.Registration.Course

/-!
# Registering and declaring

What a registration does to a watched connection, and what a declaration does. A registration
succeeds just when the engine accepts it (`Watched.Accepts`), so on an active connection it takes
nobody's place. It puts the function into the engine's table, in place of one of the same name and
arity, keeps a new record under a fresh number and notes that number in the registry. One that fails
leaves the connection's functions alone.

> `Engine.hostFunction?_selects`: which of the functions in the table a call is for.
> `Watched.register_end`, `Watched.declare_end`: in what ways registrations and declarations end.
-/

namespace HostSql

open Engine (HostFunction World)
open SessionWorld

namespace Engine

variable {H : Type}

/-! ## Which function a call selects -/

/-- What a call selects is a function of the table under the name of the call. It takes the number
of arguments of the call, or else any number, and then none of that name takes just as many. -/
theorem hostFunction?_selects {functions : List HostFunction} {name : String} {n : Nat}
    {f : HostFunction} (h : hostFunction? functions name n = some f) :
    f ∈ functions ∧ Text.sameName f.name name = true ∧
      (f.arity = n ∨ f.arity = -1 ∧
        ∀ g ∈ functions, Text.sameName g.name name = true → g.arity ≠ n) := by
  unfold hostFunction? at h
  dsimp only at h
  cases hexact : (functions.filter fun f => Text.sameName f.name name).find?
      fun f => f.arity == (n : Int) with
  | some g =>
    rw [hexact] at h
    cases h
    obtain ⟨hmem, hname⟩ := List.mem_filter.mp (List.mem_of_find?_eq_some hexact)
    have harity := List.find?_some hexact
    rw [beq_iff_eq] at harity
    exact ⟨hmem, hname, .inl harity⟩
  | none =>
    rw [hexact] at h
    have hgeneral : (functions.filter fun f => Text.sameName f.name name).find?
        (·.arity == -1) = some f := h
    obtain ⟨hmem, hname⟩ := List.mem_filter.mp (List.mem_of_find?_eq_some hgeneral)
    have harity := List.find?_some hgeneral
    rw [beq_iff_eq] at harity
    refine ⟨hmem, hname, .inr ⟨harity, fun g hg hgname hn => ?_⟩⟩
    have hother := List.find?_eq_none.mp hexact g (List.mem_filter.mpr ⟨hg, hgname⟩)
    exact hother (beq_iff_eq.mpr hn)

/-! ## The engine's table -/

theorem World.isActive_of_get? {w : World H} {c n : Nat} {s : Statement}
    (hs : w.statements.get? n = some s) (hc : s.connection = c)
    (hphase : s.phase = .running ∨ s.phase = .blocked) : w.isActive c = true := by
  have hmem : (n, s) ∈ w.active c := by
    refine List.mem_filter.mpr ⟨Assoc.mem_of_get? hs, ?_⟩
    rcases hphase with h | h <;> simp [hc, h]
  unfold isActive
  rw [List.isEmpty_eq_false_iff_exists_mem.mpr ⟨_, hmem⟩]
  rfl

/-- The statements of another world are executed as they are here. -/
def SameExecutions (w w' : World H) : Prop :=
  ∀ n s, w.statements.get? n = some s →
    ∃ s', w'.statements.get? n = some s' ∧ s'.connection = s.connection ∧ s'.phase = s.phase

theorem sameExecutions_refl (w : World H) : SameExecutions w w :=
  fun _ s hs => ⟨s, hs, rfl, rfl⟩

/-- Statements that have to be compiled again are executed as before. -/
theorem expireStatements_executions (c : Nat) (w : World H) :
    SameExecutions w ((expireStatements c).run w).2 := by
  intro n s hs
  let expire (s : Statement) : Statement :=
    if s.connection = c then { s with expired := true } else s
  refine ⟨expire s, ?_, ?_, ?_⟩
  · show Assoc.get? (w.statements.map fun p => (p.1, expire p.2)) n = _
    rw [Assoc.get?_map _ fun _ => expire, hs]
    rfl
  all_goals
    unfold expire
    split <;> rfl

/-- Whether a function takes the place of another one of a table, or of a built-in one that no
function of the table hides. -/
def HostFunction.takesPlace (f : HostFunction) (functions : List HostFunction) : Bool :=
  functions.any (f.replaces ·) ||
    !(functions.any fun g => Text.sameName g.name f.name && g.arity == -1) && isBuiltin f

/-- When the engine accepts a function. -/
structure Accepts (c : Nat) (f : HostFunction) (w : World H) : Prop where
  least : -1 ≤ f.arity
  most : f.arity ≤ maxArity
  short : (Utf8.encode f.name).length ≤ maxFunctionName
  free : ∃ conn, w.connections.get? c = some conn ∧
    (w.isActive c = true → f.takesPlace conn.functions = false)

/-- The engine after a function has been registered. -/
structure Registered (c : Nat) (f : HostFunction) (w w' : World H) : Prop where
  accepts : Accepts c f w
  connections : w'.connections = Assoc.update w.connections c fun c =>
    { c with functions := c.functions.filter (fun g => !f.replaces g) ++ [f] }
  executions : SameExecutions w w'
  host : w'.host = w.host
  nextId : w'.nextId = w.nextId

/-- How the engine ends a registration: with another code than `ok` if it does not accept the
function, and nothing has changed, or with the function in its table. -/
def RegisterEnd (c : Nat) (f : HostFunction) (w : World H) (p : Int32 × World H) : Prop :=
  (p.1 ≠ ResultCode.ok ∧ ¬Accepts c f w ∧ p.2 = w) ∨
    (p.1 = ResultCode.ok ∧ Registered c f w p.2)

theorem misuse_ne_ok : ResultCode.misuse ≠ ResultCode.ok := by decide

theorem busy_ne_ok : ResultCode.busy ≠ ResultCode.ok := by decide

theorem register_end (c : Nat) (f : HostFunction) (w : World H) :
    RegisterEnd c f w ((register c f).run w) := by
  unfold register
  by_cases hrange : f.arity < -1 || maxArity < f.arity ||
      maxFunctionName < (Utf8.encode f.name).length
  · rw [if_pos (by simpa using hrange)]
    refine .inl ⟨misuse_ne_ok, fun haccepts => ?_, rfl⟩
    simp only [Bool.or_eq_true, decide_eq_true_eq] at hrange
    have hleast := haccepts.least
    have hmost := haccepts.most
    have hshort := haccepts.short
    omega
  rw [if_neg (by simpa using hrange)]
  simp only [Bool.or_eq_true, decide_eq_true_eq, not_or, Int.not_lt, Nat.not_lt] at hrange
  obtain ⟨⟨hleast, hmost⟩, hshort⟩ := hrange
  have hconn : (World.connection? c).run w = (w.connections.get? c, w) := rfl
  rw [run_bind, hconn]
  cases hget : w.connections.get? c with
  | none =>
    refine .inl ⟨misuse_ne_ok, fun haccepts => ?_, rfl⟩
    obtain ⟨conn, hconn, -⟩ := haccepts.free
    rw [hget] at hconn
    cases hconn
  | some conn =>
    show RegisterEnd c f w
      ((if f.takesPlace conn.functions = true then _ else _ : StateM (World H) Int32).run w)
    by_cases htaken : f.takesPlace conn.functions = true
    · rw [if_pos htaken, run_bind, run_get]
      dsimp only
      by_cases hactive : w.isActive c = true
      · rw [if_pos hactive]
        refine .inl ⟨busy_ne_ok, fun haccepts => ?_, rfl⟩
        obtain ⟨conn', hconn', hfree⟩ := haccepts.free
        cases hget.symm.trans hconn'
        rw [hfree hactive] at htaken
        cases htaken
      · rw [if_neg hactive]
        have haccepts : Accepts c f w :=
          ⟨hleast, hmost, hshort, conn, hget, fun h => absurd h hactive⟩
        exact .inr ⟨rfl, haccepts, rfl, expireStatements_executions c w, rfl, rfl⟩
    · rw [if_neg htaken]
      have haccepts : Accepts c f w :=
        ⟨hleast, hmost, hshort, conn, hget, fun _ => Bool.eq_false_iff.mpr htaken⟩
      exact .inr ⟨rfl, haccepts, rfl, sameExecutions_refl w, rfl, rfl⟩

end Engine

/-! ## Registering on a watched connection -/

/-- What the engine is told of a function. -/
def registeredAs (name : String) (arity : Int32) (callbacks : Callbacks) (record : Nat) :
    HostFunction :=
  ⟨name, arity.toInt, callbacks.isAggregate, record⟩

namespace Watched

variable (o : Watched)

/-- The connection is open. -/
def IsOpen (w : SessionWorld) : Prop :=
  ∃ c, w.host.connections.get? o.name = some c ∧ c.native? = some o.number

/-- When a registration on the connection succeeds. -/
def Accepts (name : String) (arity : Int32) (callbacks : Callbacks) (w : SessionWorld) : Prop :=
  nulError? name = none ∧
    Engine.Accepts o.number (registeredAs name arity callbacks w.nextId) w

/-- What a registration that succeeds does to the connection. -/
structure Registers (name : String) (arity : Int32) (callbacks : Callbacks)
    (w w' : SessionWorld) : Prop where
  accepts : o.Accepts name arity callbacks w
  isOpen : o.IsOpen w'
  registry : o.registry w' = (o.registry w).insert name arity w.nextId
  table? : o.table? w' = (o.table? w).map fun functions =>
    functions.filter (fun g => !(registeredAs name arity callbacks w.nextId).replaces g) ++
      [registeredAs name arity callbacks w.nextId]
  records : w'.host.records = w.host.records.set w.nextId (.new name arity callbacks)
  nextId : w'.nextId = w.nextId + 1
  executes : ∀ statement, o.executes w statement → o.executes w' statement

variable {o}

theorem leaves_of_host {w w' : SessionWorld}
    (hconnection : w'.host.connections.get? o.name = w.host.connections.get? o.name)
    (hrecords : w'.host.records = w.host.records) (hconnections : w'.connections = w.connections)
    (hstatements : w'.statements = w.statements) (hnext : w.nextId ≤ w'.nextId) :
    o.Leaves w w' where
  connection := hconnection
  table? := by
    unfold table?
    rw [hconnections]
  records entry _ := by rw [hrecords]
  nextId := hnext
  executes statement h := by
    unfold executes
    rw [hstatements]
    exact h

theorem leaves_refl (w : SessionWorld) : o.Leaves w w :=
  leaves_of_host rfl rfl rfl rfl (Nat.le_refl _)

theorem executes_of_same {w w' : SessionWorld} (h : Engine.SameExecutions w w')
    {statement : Nat} (hexecutes : o.executes w statement) : o.executes w' statement := by
  obtain ⟨s, hs, hconnection, hphase⟩ := hexecutes
  obtain ⟨s', hs', hconnection', hphase'⟩ := h statement s hs
  exact ⟨s', hs', hconnection'.trans hconnection, hphase'.symm ▸ hphase⟩

/-- An execution keeps the connection active. -/
theorem isActive_of_executes {w : SessionWorld} {statement : Nat}
    (h : o.executes w statement) : w.isActive o.number = true := by
  obtain ⟨s, hs, hconnection, hphase⟩ := h
  exact Engine.World.isActive_of_get? hs hconnection hphase

/-- A function that the engine has put into the table of the connection. -/
theorem table?_of_registered {f : HostFunction} {w w' : SessionWorld}
    (h : Engine.Registered o.number f w w') :
    o.table? w' = (o.table? w).map fun functions =>
      functions.filter (fun g => !f.replaces g) ++ [f] := by
  unfold table?
  rw [h.connections, Assoc.get?_update_self, Option.map_map, Option.map_map]
  rfl

/-- How the engine and the table of records end a registration. -/
theorem registerNative_end (r : FunctionRecord) (w : SessionWorld) :
    (∃ code, (registerNative o.number r).run w =
          (.error code, { w with nextId := w.nextId + 1 }) ∧
        ¬Engine.Accepts o.number ⟨r.name, r.arity.toInt, r.callbacks.isAggregate, w.nextId⟩ w) ∨
      ∃ w₁, (registerNative o.number r).run w = (.ok w.nextId,
          { w₁ with host := { w.host with records := w.host.records.set w.nextId r } }) ∧
        Engine.Registered o.number ⟨r.name, r.arity.toInt, r.callbacks.isAggregate, w.nextId⟩
          { w with nextId := w.nextId + 1 } w₁ := by
  have hfresh : World.fresh.run w = (w.nextId, { w with nextId := w.nextId + 1 }) := rfl
  unfold registerNative
  rw [run_bind, hfresh]
  dsimp only
  rw [run_bind]
  have hend := Engine.register_end o.number
    ⟨r.name, r.arity.toInt, r.callbacks.isAggregate, w.nextId⟩ { w with nextId := w.nextId + 1 }
  generalize (Engine.register o.number _).run _ = p at hend ⊢
  obtain ⟨code, w₁⟩ := p
  rcases hend with ⟨hcode, hrefuses, hworld⟩ | ⟨hcode, hregistered⟩
  · rw [if_neg hcode]
    cases hworld
    exact .inl ⟨code, rfl, fun h => hrefuses ⟨h.least, h.most, h.short, h.free⟩⟩
  · rw [if_pos hcode]
    refine .inr ⟨w₁, ?_, hregistered⟩
    rw [← show w₁.host = w.host from hregistered.host]
    rfl

/-- A registration on the open connection. -/
theorem register_end {w : SessionWorld} (hopen : o.IsOpen w) (name : String) (arity : Int32)
    (callbacks : Callbacks) {answer : Except Error Unit} {w' : SessionWorld}
    (h : (o.library.register o.name name arity callbacks).run w = (answer, w')) :
    (answer ≠ .ok () ∧ ¬o.Accepts name arity callbacks w ∧ o.Leaves w w') ∨
      (answer = .ok () ∧ o.Registers name arity callbacks w w') := by
  obtain ⟨c, hc, hnative⟩ := hopen
  have hrun : (o.library.register o.name name arity callbacks).run w =
      (((c.register (native o.hooks) name arity callbacks).run w).1.1,
        let p := (c.register (native o.hooks) name arity callbacks).run w
        { p.2 with host :=
          { p.2.host with connections := p.2.host.connections.set o.name p.1.2 } }) := by
    show (withConnection o.name _ _).run w = _
    unfold withConnection
    rw [run_bind, run_get]
    dsimp only
    rw [hc]
    rfl
  rw [hrun] at h
  unfold HostSql.Connection.register at h
  dsimp only at h
  rw [hnative] at h
  cases hnul : nulError? name with
  | some reason =>
    -- the connection is put back as it was
    have hrefuses : ¬o.Accepts name arity callbacks w := by
      rintro ⟨hnone, -⟩
      rw [hnul] at hnone
      cases hnone
    rw [hnul] at h
    cases h
    refine .inl ⟨nofun, hrefuses, leaves_of_host ?_ rfl rfl rfl (Nat.le_refl _)⟩
    exact (Assoc.get?_set_self _ _ _).trans hc.symm
  | none =>
    rw [hnul] at h
    dsimp only at h
    rw [run_bind] at h
    have hnext : (native o.hooks).register o.number = registerNative o.number := rfl
    rw [hnext] at h
    rcases registerNative_end (o := o) (.new name arity callbacks) w with
      ⟨code, hfailed, hrefuses⟩ | ⟨w₁, hdone, hregistered⟩
    · rw [hfailed] at h
      cases h
      refine .inl ⟨nofun, fun h => hrefuses h.2, leaves_of_host ?_ rfl rfl rfl (Nat.le_succ _)⟩
      exact (Assoc.get?_set_self _ _ _).trans hc.symm
    · rw [hdone] at h
      cases h
      have haccepts : Engine.Accepts o.number (registeredAs name arity callbacks w.nextId) w :=
        ⟨hregistered.accepts.least, hregistered.accepts.most, hregistered.accepts.short,
          hregistered.accepts.free⟩
      have htable := table?_of_registered hregistered
      refine .inr ⟨rfl, ⟨hnul, haccepts⟩, ⟨_, Assoc.get?_set_self _ _ _, rfl⟩, ?_, htable, rfl,
        hregistered.nextId, ?_⟩
      · unfold registry
        rw [Assoc.get?_set_self, hc]
        rfl
      · exact fun statement hexecutes => executes_of_same hregistered.executions hexecutes

/-! ## Declaring on a watched connection -/

/-- The records after those of some functions have been given a type. -/
def Typed (numbers : List Nat) (type : ResultType) (records records' : Assoc Nat FunctionRecord) :
    Prop :=
  ∀ n, records'.get? n =
    if n ∈ numbers then (records.get? n).map fun r => { r with resultType := type }
    else records.get? n

/-- Declaring the type of one function after another. -/
theorem declareType_forM (hooks : Engine.Hooks Host) (type : ResultType) (numbers : List Nat)
    (w : SessionWorld) :
    ∃ records', Typed numbers type w.host.records records' ∧
      (numbers.forM fun n => (native hooks).declareType n type).run w =
        ((), { w with host := { w.host with records := records' } }) := by
  induction numbers generalizing w with
  | nil => exact ⟨w.host.records, fun n => (if_neg List.not_mem_nil).symm, rfl⟩
  | cons k numbers ih =>
    let retype (r : FunctionRecord) : FunctionRecord := { r with resultType := type }
    obtain ⟨records', htyped, hrun⟩ := ih
      { w with host := { w.host with records := Assoc.update w.host.records k retype } }
    refine ⟨records', fun n => ?_, ?_⟩
    · rw [htyped n]
      dsimp only
      by_cases hkn : k = n
      · -- a type may be declared twice, for numbers may be repeated
        subst hkn
        rw [if_pos List.mem_cons_self, Assoc.get?_update_self, Option.map_map]
        split <;> rfl
      · rw [Assoc.get?_update_ne _ hkn]
        by_cases hmem : n ∈ numbers
        · rw [if_pos hmem, if_pos (List.mem_cons_of_mem k hmem)]
        · rw [if_neg hmem, if_neg fun h => (List.mem_cons.mp h).elim (fun e => hkn e.symm) hmem]
    · exact hrun

/-- A declaration on the open connection. -/
theorem declare_end {w : SessionWorld} (hopen : o.IsOpen w) (name : String) (type : ResultType)
    {answer : Except Error Unit} {w' : SessionWorld}
    (h : (o.library.declare o.name name type).run w = (answer, w')) :
    (answer ≠ .ok () ∧ (o.registry w).named name = [] ∧ w' = w) ∨
      (answer = .ok () ∧ (o.registry w).named name ≠ [] ∧
        ∃ records', Typed ((o.registry w).named name) type w.host.records records' ∧
          w' = { w with host := { w.host with records := records' } }) := by
  obtain ⟨c, hc, hnative⟩ := hopen
  have hregistry : o.registry w = c.functions := by
    unfold registry
    rw [hc]
    rfl
  have hrun : (o.library.declare o.name name type).run w =
      (c.declare (native o.hooks) name type).run w := by
    show (withConnection o.name _ _).run w = _
    unfold withConnection
    rw [run_bind, run_get]
    dsimp only
    rw [hc]
  rw [hrun] at h
  unfold HostSql.Connection.declare HostSql.Connection.withNative at h
  rw [hnative] at h
  dsimp only at h
  rw [← hregistry] at h
  by_cases hnone : ((o.registry w).named name).isEmpty = true
  · rw [if_pos hnone] at h
    cases h
    exact .inl ⟨nofun, List.isEmpty_iff.mp hnone, rfl⟩
  · obtain ⟨records', htyped, hforM⟩ :=
      declareType_forM o.hooks type ((o.registry w).named name) w
    rw [if_neg hnone, run_bind, hforM] at h
    cases h
    exact .inr ⟨rfl, fun hnil => hnone (List.isEmpty_iff.mpr hnil), records', htyped, rfl⟩

end Watched

end HostSql
