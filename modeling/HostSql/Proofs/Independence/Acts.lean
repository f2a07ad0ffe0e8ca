import HostSql.Proofs.Independence.Division

/-!
# What parties do in turn

A session is a list of acts: its steps, and the installation of busy closures of any kind. An act is
confined to a party as steps are; then it is also confined to every party that has those names. In a world
that is divided, an act of one party has the same report whatever the other one has done before, and what
it does to its own part is the same but for the numbers that are given out.

> `Divided.act`: an act of one party leaves the world divided and the other's part as it was.
> `Divided.reports_same`: worlds that share a party's part have the same reports of what it does.
-/

namespace HostSql

open Engine (World Matched Numbered MayOpen)

/-! ## Names of other parties -/

/-- Every name of a party is also another one's. -/
structure Party.Within (p q : Party) : Prop where
  connection : ∀ name, p.connection name → q.connection name
  statement : ∀ name, p.statement name → q.statement name
  handle : ∀ name, p.handle name → q.handle name

section Widening

variable {p q : Party} (h : p.Within q)

mutual

theorem Program.confined_mono (h : p.Within q) : ∀ b : Program, b.Confined p → b.Confined q
  | .finish _, _ => trivial
  | .setResult _ next, hb => fun answer => (next answer).confined_mono h (hb answer)
  | .setError _ next, hb => next.confined_mono h hb
  | .readState next, hb => fun answer => (next answer).confined_mono h (hb answer)
  | .insert _ _ next, hb => fun answer => (next answer).confined_mono h (hb answer)
  | .readCount next, hb => fun answer => (next answer).confined_mono h (hb answer)
  | .readType next, hb => fun answer => (next answer).confined_mono h (hb answer)
  | .emit _ next, hb => next.confined_mono h hb
  | .interrupt _ next, hb => ⟨h.handle _ hb.1, next.confined_mono h hb.2⟩
  | .execute _ _ next, hb =>
    ⟨h.connection _ hb.1, fun answer => (next answer).confined_mono h (hb.2 answer)⟩
  | .query _ _ next, hb =>
    ⟨h.connection _ hb.1, fun answer => (next answer).confined_mono h (hb.2 answer)⟩
  | .declare _ _ _ next, hb =>
    ⟨h.connection _ hb.1, fun answer => (next answer).confined_mono h (hb.2 answer)⟩
  | .register _ _ _ callbacks next, hb =>
    ⟨h.connection _ hb.1, callbacks.confined_mono h hb.2.1,
      fun answer => (next answer).confined_mono h (hb.2.2 answer)⟩

theorem Callbacks.confined_mono (h : p.Within q) : ∀ c : Callbacks, c.Confined p → c.Confined q
  | .scalar body, hc => fun args => (body args).confined_mono h (hc args)
  | .aggregate step final, hc =>
    ⟨fun args => (step args).confined_mono h (hc.1 args), final.confined_mono h hc.2⟩

end

include h

theorem BusyProgram.Confined.mono {b : BusyProgram} (hb : b.Confined p) : b.Confined q := by
  induction b with
  | answer retry => trivial
  | panic => trivial
  | emit event next ih => exact ih hb
  | execute connection sql next ih => exact ⟨h.connection _ hb.1, fun answer => ih answer (hb.2 answer)⟩

theorem SessionStep.Confined.mono {files files' : Prop} (hfiles : files → files')
    {step : SessionStep} (hstep : step.Confined p files) : step.Confined q files' := by
  cases step with
  | openDatabase name path mode =>
    exact ⟨h.connection _ hstep.1, fun flags hflags => (hstep.2 flags hflags).imp_left hfiles⟩
  | showStatement name => exact h.statement _ hstep
  | step name => exact h.statement _ hstep
  | finalize name => exact h.statement _ hstep
  | dropStatement name => exact h.statement _ hstep
  | compile connection sql name => exact ⟨h.connection _ hstep.1, h.statement _ hstep.2⟩
  | interruptThrough handle => exact h.handle _ hstep
  | takeHandle connection handle => exact ⟨h.connection _ hstep.1, h.handle _ hstep.2⟩
  | register connection name arity callbacks => exact ⟨h.connection _ hstep.1, callbacks.confined_mono h hstep.2⟩
  | busyHandler connection handler =>
    exact ⟨h.connection _ hstep.1, fun b hb run hrun => h.connection _ (hstep.2 b hb run hrun)⟩
  | writeFile path bytes => exact hfiles hstep
  | _ => exact h.connection _ hstep

end Widening

/-! ## Acts -/

/-- What can be done in a session. The scripts of its steps do not tell all busy closures. -/
inductive Act where
  | step (step : SessionStep)
  | busyHandler (connection : String)
      (callback : Option ((resource : String) → (attempt : UInt32) → BusyProgram))

namespace Act

/-- Performs an act. -/
def run : Act → StateM SessionWorld StepAnswer
  | .step s => Session.run s
  | .busyHandler name callback => do
    Session.dropStatementsOf name
    Session.onConnection name fun c => .unit <$> c.busyHandler Session.engine callback

/-- Performs an act and reports it, with what came up while it ran. -/
def report (a : Act) : StateM SessionWorld StepReport := do
  let answer ← a.run
  let (events, log) ← Session.collectReports
  return ⟨answer, events, log⟩

/-- The world after an act. -/
def after (a : Act) (w : SessionWorld) : SessionWorld := (a.report.run w).2

/-- An act that uses only the names of a party, and files only if it may. -/
def Confined (p : Party) (files : Prop) : Act → Prop
  | .step s => s.Confined p files
  | .busyHandler connection callback =>
    p.connection connection ∧
      ∀ f ∈ callback, ∀ resource attempt, (f resource attempt).Confined p

theorem Confined.mono {p q : Party} (h : p.Within q) {files files' : Prop} (hfiles : files → files')
    {a : Act} (ha : a.Confined p files) : a.Confined q files' := by
  cases a with
  | step s => exact SessionStep.Confined.mono h hfiles ha
  | busyHandler name callback =>
    exact ⟨h.connection _ ha.1, fun f hf resource attempt => (ha.2 f hf resource attempt).mono h⟩

theorem run_numbered (a : Act) {n : Nat} : Keeps (Numbered Host.Below n) a.run := by
  cases a with
  | step s => exact Session.run_numbered s
  | busyHandler name callback => exact Session.install_numbered name _

theorem collectReports_numbered {n : Nat} : Keeps (Numbered Host.Below n) Session.collectReports :=
  fun _ hw => { hw with host := { hw.host with } }

theorem report_numbered (a : Act) {n : Nat} : Keeps (Numbered Host.Below n) a.report :=
  a.run_numbered.bind fun _ => collectReports_numbered.bind fun _ => .pure _

section Linking

variable {S : Holding} (hapart : S.Apart)

include hapart

/-- Confined acts have the same answer. -/
theorem run_linked {a : Act} (ha : a.Confined S.party S.files) : Linked S.Matched Eq a.run a.run := by
  have hE : Seat.plain.Keeps fun _ => True :=
    ⟨fun _ _ _ _ => trivial, fun _ _ _ _ => trivial, fun _ _ _ _ => trivial, fun _ _ _ _ _ => trivial⟩
  cases a with
  | step s =>
    have hs : s.Confined S.party S.files := ha
    have hrun := Seat.run_linked hE hapart hs
    rw [Seat.plain_run] at hrun
    exact hrun
  | busyHandler name callback =>
    have hdrop := Seat.dropStatementsOf_linked hE hapart ha.1
    rw [Seat.plain_dropStatementsOf] at hdrop
    have hengine := Seat.engine_linked (s := Seat.plain) hE hapart
    rw [Seat.plain_engine] at hengine
    have hinstall : Linked S.Matched Eq
        (Session.onConnection name fun c => .unit <$> c.busyHandler Session.engine callback)
        (Session.onConnection name fun c => .unit <$> c.busyHandler Session.engine callback) := by
      refine Seat.onConnection_linked (s := Seat.plain) ha.1 fun c c' hc => ?_
      have hpath : c.path = c'.path := by
        cases hc
        rfl
      unfold Connection.busyHandler
      rw [hpath]
      refine (Connection.setPolicy_linked hengine hc fun policy hpolicy => ?_).map
        fun _ _ heq => congrArg _ heq
      cases callback with
      | none => exact absurd hpolicy (Option.not_mem_none policy)
      | some f =>
        cases hpolicy
        exact ha.2 f rfl
    exact hdrop.bind_same fun _ => hinstall

omit hapart in
theorem collectReports_linked : Linked S.Matched Eq Session.collectReports Session.collectReports := by
  intro w w' hw
  obtain ⟨hhost, -⟩ := hw.host
  refine ⟨?_, { hw with host := ⟨{ hhost with events := rfl, log := rfl }, trivial⟩ }⟩
  have hcollected (v : SessionWorld) : (Session.collectReports.run v).1 =
      (v.host.events.reverse, v.host.log.reverse) := rfl
  have hevents : w.host.events = w'.host.events := hhost.events
  have hlog : w.host.log = w'.host.log := hhost.log
  rw [hcollected, hcollected, hevents, hlog]

/-- Confined acts have the same report. -/
theorem report_linked {a : Act} (ha : a.Confined S.party S.files) :
    Linked S.Matched Eq a.report a.report :=
  (run_linked hapart ha).bind_same fun _ => collectReports_linked.bind_same fun _ => .same _

/-- So have all that are done in turn. -/
theorem reports_linked {acts : List Act} (hacts : ∀ a ∈ acts, a.Confined S.party S.files) :
    Linked S.Matched Eq (acts.mapM report) (acts.mapM report) := by
  have hall : List.Forall₂ (fun a a' => a = a' ∧ a.Confined S.party S.files) acts acts :=
    List.forall₂_same.mpr fun a ha => ⟨rfl, hacts a ha⟩
  refine (Linked.mapM (fun a a' ha => ?_) hall).mono fun _ _ heq => List.forall₂_eq_eq_eq ▸ heq
  obtain ⟨heq, hconfined⟩ := ha
  cases heq
  exact report_linked hapart hconfined

end Linking

end Act

/-! ## Acts in divided worlds -/

namespace Divided

variable {p q : Party} {own other other' : Nat → Prop} {files files' : Prop} {w w' : SessionWorld}
  {a : Act}

/-- An act of one party leaves the world divided, and the other's part as it was. -/
theorem act (h : Divided p q own other files files' w) (ha : a.Confined p files) :
    Divided p q (Grown own w (a.after w)) other files files' (a.after w) ∧
      q.Shares other w (a.after w) := by
  have hself : p.Shares own w w := ⟨rfl, rfl, rfl, rfl, rfl, rfl, rfl, rfl⟩
  have hlinked : (p.holding own files w w).Matched (a.after w) (a.after w) :=
    (Act.report_linked (h.apart h) ha w w (h.matched h hself)).2
  have hnumbered : Numbered Host.Below w.nextId (a.after w) :=
    a.report_numbered w h.numbered.top
  exact ⟨h.after hlinked hnumbered rfl rfl, h.shares_after hlinked⟩

/-- An act of the other party leaves the world divided, and the first one's part as it was. -/
theorem act_other (h : Divided p q own other files files' w) (ha : a.Confined q files') :
    Divided p q own (Grown other w (a.after w)) files files' (a.after w) ∧
      p.Shares own w (a.after w) :=
  ⟨(h.symm.act ha).1.symm, (h.symm.act ha).2⟩

/-- A world stays divided while each act is one party's. -/
theorem acts {acts : List Act} (h : Divided p q own other files files' w)
    (hacts : ∀ a ∈ acts, a.Confined p files ∨ a.Confined q files') :
    ∃ own other, Divided p q own other files files' ((acts.mapM Act.report).run w).2 := by
  induction acts generalizing own other w with
  | nil => exact ⟨own, other, h⟩
  | cons a acts ih =>
    obtain ⟨hhead, htail⟩ := List.forall_mem_cons.mp hacts
    rw [List.mapM_cons]
    rcases hhead with ha | ha
    · exact ih (h.act ha).1 htail
    · exact ih (h.act_other ha).1 htail

/-- Worlds that share what a party owns have the same reports of what it does. -/
theorem reports_same (h : Divided p q own other files files' w)
    (h' : Divided p q own other' files files' w') (hshares : p.Shares own w w') {acts : List Act}
    (hacts : ∀ a ∈ acts, a.Confined p files) :
    ((acts.mapM Act.report).run w).1 = ((acts.mapM Act.report).run w').1 :=
  (Act.reports_linked (h.apart h') hacts w w' (h.matched h' hshares)).1

end Divided

end HostSql
