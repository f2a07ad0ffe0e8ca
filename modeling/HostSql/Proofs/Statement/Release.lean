import HostSql.Proofs.Statement.Life

/-!
# Statements are released exactly once

> `Statement.life_lawful`: every call of a compiled statement is as expected, and the engine's
> statement is released once in its life, as the last thing that the engine is asked about it.

Whether a statement is over decides what its `vm` is (`Statement.At`). One turn is lawful and leads
to the next such state (`turn_spec`); the rest is an induction on the turns.
-/

namespace HostSql

open Beside

variable {σ α β : Type}

/-! ## What is noted -/

@[simp]
theorem noted_run (x : StateM σ α) (note : α → StatementNote) (w : Noted σ) :
    (noted x note).run w =
      ((x.run w.env).1, ⟨(x.run w.env).2, w.own ++ [note (x.run w.env).1]⟩) := rfl

/-- A world, and the same world with notes. -/
def SameWorld (w : σ) (noted : Noted σ) : Prop := w = noted.env

theorem outside_coupled (x : StateM σ α) :
    Coupled SameWorld x (outside x : StateM (Noted σ) α) := by
  rintro w noted rfl
  exact ⟨rfl, rfl⟩

theorem noted_coupled (x : StateM σ α) (note : α → StatementNote) :
    Coupled SameWorld x (noted x note) := by
  rintro w noted rfl
  exact ⟨rfl, rfl⟩

/-- Reading the columns is not changed by noting it. -/
theorem withColumns_coupled (n : Native σ) (k : Nat) (s : Statement) :
    Coupled SameWorld (s.withColumns n k) (s.withColumns n.noting k) := by
  obtain ⟨vm, columns, types⟩ := s
  unfold Statement.withColumns
  refine (noted_coupled _ _).bind fun count => ?_
  cases columns with
  | none =>
    refine (Coupled.mapM (fun i => noted_coupled _ _) _).bind fun columns => ?_
    cases types with
    | none => exact (Coupled.mapM (fun i => noted_coupled _ _) _).bind fun types => .pure _
    | some types => exact (Coupled.pure types).bind fun types => .pure _
  | some columns =>
    refine (Coupled.pure columns).bind fun columns => ?_
    cases types with
    | none => exact (Coupled.mapM (fun i => noted_coupled _ _) _).bind fun types => .pure _
    | some types => exact (Coupled.pure types).bind fun types => .pure _

/-- Reading a row is not changed by noting it. -/
theorem succeed_coupled (n : Native σ) (k : Nat) (hasRow : Bool) (s : Statement) :
    Coupled SameWorld (s.succeed n k hasRow) (s.succeed n.noting k hasRow) := by
  unfold Statement.succeed
  refine (withColumns_coupled n k s).bind fun (columns, types, s) => ?_
  cases hasRow with
  | false => exact (Coupled.pure none).bind fun row => .pure _
  | true =>
    refine Coupled.bind (Coupled.map some ?_) fun row => .pure _
    exact Coupled.mapM (fun i => noted_coupled _ _) _

/-- A failing step is not changed by noting it. -/
theorem fail_coupled (n : Native σ) (k : Nat) (status : NativeStatus) (s : Statement) :
    Coupled SameWorld (s.fail n k status) (s.fail n.noting k status) := by
  unfold Statement.fail
  by_cases hbusy : status.code = ResultCode.busy
  · rw [if_pos hbusy, if_pos hbusy]
    exact .pure _
  rw [if_neg hbusy, if_neg hbusy]
  by_cases hknown : ErrorKind.isKnownFailure status.code = true
  · rw [if_pos hknown, if_pos hknown]
    exact (noted_coupled _ _).bind fun _ => (outside_coupled _).bind fun _ => .pure _
  · rw [if_neg hknown, if_neg hknown]
    exact (outside_coupled _).bind fun _ => .pure _

/-- A call is not changed by noting what it asks. -/
theorem perform_coupled (n : Native σ) (s : Statement) (call : StatementCall) :
    Coupled SameWorld (s.perform n call) (s.perform n.noting call) := by
  cases call with
  | step =>
    refine Coupled.bind ?_ fun (answer, s) => .pure _
    unfold Statement.step
    cases s.vm with
    | finalized => exact .pure _
    | empty => exact .pure _
    | live k =>
      refine (noted_coupled _ _).bind fun status => ?_
      by_cases hcode : (status.code = ResultCode.row || status.code = ResultCode.done) = true
      · rw [if_pos hcode, if_pos hcode]
        exact (succeed_coupled n k _ s).bind fun _ => .pure _
      · rw [if_neg hcode, if_neg hcode]
        exact (fail_coupled n k status s).bind fun _ => .pure _
  | finalize =>
    refine Coupled.bind ?_ fun (answer, s) => .pure _
    unfold Statement.finalize
    cases s.vm with
    | finalized => exact .pure _
    | empty => exact .pure _
    | live k =>
      refine (noted_coupled _ _).bind fun failure? => ?_
      cases failure? with
      | none => exact .pure _
      | some failure => exact .pure _

/-- All that a computation asks is to read a statement. -/
def ReadsOnly (k : Nat) (x : StateM (Noted σ) α) : Prop :=
  ∀ w, ∃ count, (x.run w).2.own = w.own ++ List.replicate count (.read k)

namespace ReadsOnly

variable {k : Nat}

theorem pure (a : α) : ReadsOnly k (Pure.pure a : StateM (Noted σ) α) :=
  fun w => ⟨0, (List.append_nil w.own).symm⟩

theorem read (x : StateM σ α) : ReadsOnly k (noted x fun _ => .read k) :=
  fun _ => ⟨1, rfl⟩

theorem bind {x : StateM (Noted σ) α} {f : α → StateM (Noted σ) β} (hx : ReadsOnly k x)
    (hf : ∀ a, ReadsOnly k (f a)) : ReadsOnly k (x >>= f) := by
  intro w
  obtain ⟨i, hi⟩ := hx w
  obtain ⟨j, hj⟩ := hf (x.run w).1 (x.run w).2
  refine ⟨i + j, ?_⟩
  rw [run_bind, hj, hi, List.append_assoc, List.replicate_append_replicate]

theorem mapM {f : α → StateM (Noted σ) β} (hf : ∀ a, ReadsOnly k (f a)) (l : List α) :
    ReadsOnly k (l.mapM f) := by
  induction l with
  | nil => exact pure []
  | cons a l ih =>
    rw [List.mapM_cons]
    exact (hf a).bind fun b => ih.bind fun rest => pure (b :: rest)

end ReadsOnly

/-- Reading the columns of a statement reads nothing else. -/
theorem Statement.withColumns_reads (n : Native σ) (k : Nat) (s : Statement) :
    ReadsOnly k (s.withColumns n.noting k) := by
  obtain ⟨vm, columns, types⟩ := s
  unfold withColumns
  refine (ReadsOnly.read _).bind fun count => ?_
  cases columns with
  | none =>
    refine (ReadsOnly.mapM (fun i => .read _) _).bind fun columns => ?_
    cases types with
    | none => exact (ReadsOnly.mapM (fun i => .read _) _).bind fun types => .pure _
    | some types => exact (ReadsOnly.pure types).bind fun types => .pure _
  | some columns =>
    refine (ReadsOnly.pure columns).bind fun columns => ?_
    cases types with
    | none => exact (ReadsOnly.mapM (fun i => .read _) _).bind fun types => .pure _
    | some types => exact (ReadsOnly.pure types).bind fun types => .pure _

/-- A native step that succeeded is followed by reading only. -/
theorem Statement.succeed_reads (n : Native σ) (k : Nat) (hasRow : Bool) (s : Statement) :
    ReadsOnly k (s.succeed n.noting k hasRow) := by
  unfold succeed
  refine (s.withColumns_reads n k).bind fun (columns, types, s) => ?_
  cases hasRow with
  | false => exact (ReadsOnly.pure none).bind fun row => .pure _
  | true =>
    refine ReadsOnly.bind ?_ fun row => .pure _
    exact (ReadsOnly.mapM (fun i => .read _) _).bind fun row => .pure _

/-- Reading the columns leaves a statement what it was. -/
theorem Statement.withColumns_vm (n : Native σ) (k : Nat) (s : Statement) (w : σ) :
    ((s.withColumns n k).run w).1.2.2.vm = s.vm := by
  obtain ⟨vm, columns, types⟩ := s
  cases columns with
  | none => cases types <;> rfl
  | some columns => cases types <;> rfl

/-- A native step that succeeded leaves a statement what it was, and has a row if it says so. -/
theorem Statement.succeed_answer (n : Native σ) (k : Nat) (hasRow : Bool) (s : Statement) (w : σ) :
    (((s.succeed n k hasRow).run w).1.1.row.isSome = hasRow) ∧
      ((s.succeed n k hasRow).run w).1.2.vm = s.vm := by
  have hvm := s.withColumns_vm n k w
  unfold succeed
  rw [run_bind]
  cases hasRow with
  | false => exact ⟨rfl, hvm⟩
  | true => exact ⟨rfl, hvm⟩

/-! ## Steps of a live statement -/

/-- Whether the code of a native step is that of a success. -/
def NativeStatus.succeeded (status : NativeStatus) : Bool :=
  status.code = ResultCode.row || status.code = ResultCode.done

/-- The known failure codes are not those of successes. -/
theorem succeeded_of_known {status : NativeStatus}
    (h : ErrorKind.isKnownFailure status.code = true) : status.succeeded = false := by
  have hrow : status.code ≠ ResultCode.row := by
    intro heq
    rw [heq] at h
    exact absurd h (by decide)
  have hdone : status.code ≠ ResultCode.done := by
    intro heq
    rw [heq] at h
    exact absurd h (by decide)
  unfold NativeStatus.succeeded
  simp [hrow, hdone]

/-- A step of a live statement whose native step succeeded. -/
theorem step_of_succeeded (m : Native σ) {k : Nat} {s : Statement} {w w' : σ}
    {status : NativeStatus} (hs : s.vm = .live k) (hstep : (m.step k).run w = (status, w'))
    (hcode : status.succeeded = true) :
    (s.step m).run w =
      let p := (s.succeed m k (status.code = ResultCode.row)).run w'
      ((.ok p.1.1, p.1.2), p.2) := by
  unfold NativeStatus.succeeded at hcode
  unfold Statement.step
  simp only [hs, run_bind, hstep]
  rw [if_pos hcode]
  rfl

/-- A step of a live statement whose native step failed. -/
theorem step_of_failed (m : Native σ) {k : Nat} {s : Statement} {w w' : σ}
    {status : NativeStatus} (hs : s.vm = .live k) (hstep : (m.step k).run w = (status, w'))
    (hcode : status.succeeded = false) :
    (s.step m).run w =
      let p := (s.fail m k status).run w'
      ((.error p.1.1, p.1.2), p.2) := by
  unfold NativeStatus.succeeded at hcode
  unfold Statement.step
  simp only [hs, run_bind, hstep]
  rw [if_neg (Bool.eq_false_iff.mp hcode)]
  rfl

/-- A step of a live statement that met a lock is reported, and the statement stays what it was. -/
theorem step_of_busy (m : Native σ) {k : Nat} {s : Statement} {w w' : σ} {status : NativeStatus}
    (hs : s.vm = .live k) (hstep : (m.step k).run w = (status, w'))
    (hcode : status.code = ResultCode.busy) :
    (s.step m).run w = ((.error (.ofCode status.code ("busy in step: " ++ status.message)), s), w') := by
  have hfailed : status.succeeded = false := by
    unfold NativeStatus.succeeded
    rw [hcode]
    rfl
  rw [step_of_failed m hs hstep hfailed]
  unfold Statement.fail
  rw [if_pos hcode]
  rfl

section Live

variable (n : Native σ) {k : Nat} {s : Statement} {b b' : σ} {status : NativeStatus}

/-- The engine's step is noted first. -/
theorem noting_step_run (hstep : (n.step k).run b = (status, b')) :
    (n.noting.step k).run ⟨b, []⟩ = (status, ⟨b', [.stepped k status]⟩) := by
  show (noted (n.step k) (.stepped k)).run ⟨b, []⟩ = _
  rw [noted_run, hstep]
  rfl

/-- A native step that delivered a row or reached the end is the answer; then columns are read. -/
theorem step_success (hs : s.vm = .live k) (hstep : (n.step k).run b = (status, b'))
    (hcode : status.succeeded = true) :
    ∃ r s' after count, (s.step n.noting).run ⟨b, []⟩ = ((.ok r, s'), after) ∧
      r.row.isSome = decide (status.code = ResultCode.row) ∧ s'.vm = .live k ∧
      after.own = .stepped k status :: List.replicate count (.read k) := by
  obtain ⟨count, hreads⟩ := s.succeed_reads n k (status.code = ResultCode.row)
    ⟨b', [.stepped k status]⟩
  obtain ⟨hrow, hvm⟩ := s.succeed_answer n.noting k (status.code = ResultCode.row)
    ⟨b', [.stepped k status]⟩
  rw [step_of_succeeded n.noting hs (noting_step_run n hstep) hcode]
  exact ⟨_, _, _, count, rfl, hrow, hvm.trans hs, hreads⟩

/-- A native step that met a lock is reported, and nothing else is asked. -/
theorem step_busy (hs : s.vm = .live k) (hstep : (n.step k).run b = (status, b'))
    (hcode : status.code = ResultCode.busy) :
    (s.step n.noting).run ⟨b, []⟩ =
      ((.error (.ofCode status.code ("busy in step: " ++ status.message)), s),
        ⟨b', [.stepped k status]⟩) :=
  step_of_busy n.noting hs (noting_step_run n hstep) hcode

/-- A native step that failed for another known reason is reported after the release. -/
theorem step_fatal (hs : s.vm = .live k) (hstep : (n.step k).run b = (status, b'))
    (hfatal : status.isFatal = true) :
    ∃ after failure?, (s.step n.noting).run ⟨b, []⟩ =
        ((.error (.ofCode status.code status.message), { s with vm := .finalized }), after) ∧
      after.own = [.stepped k status, .released k failure?] := by
  obtain ⟨hknown, hbusy⟩ := (Bool.and_eq_true _ _).mp hfatal
  have hfailed := succeeded_of_known hknown
  rw [step_of_failed n.noting hs (noting_step_run n hstep) hfailed]
  unfold Statement.fail
  rw [if_neg (by simpa using hbusy), if_pos hknown]
  exact ⟨_, _, rfl, rfl⟩

/-- A native step whose code has no meaning changes nothing. -/
theorem step_unknown (hs : s.vm = .live k) (hstep : (n.step k).run b = (status, b'))
    (hcode : status.succeeded = false) (hbusy : status.code ≠ ResultCode.busy)
    (hfatal : status.isFatal = false) :
    ∃ b'', (s.step n.noting).run ⟨b, []⟩ =
      ((.error (.unknownStep status.code), s), ⟨b'', [.stepped k status]⟩) := by
  have hknown : ErrorKind.isKnownFailure status.code = false := by
    simpa [NativeStatus.isFatal, hbusy] using hfatal
  rw [step_of_failed n.noting hs (noting_step_run n hstep) hcode]
  unfold Statement.fail
  rw [if_neg hbusy, if_neg (by simp [hknown])]
  exact ⟨_, rfl⟩

end Live

/-! ## One turn -/

/-- What a statement is before a call, given the engine's statement and whether it is over. -/
structure Statement.At (native? : Option Nat) (ended : Bool) (s : Statement) : Prop where
  vm : s.vm = if ended then .finalized else (native?.map Vm.live).getD .empty
  /-- Without a command no columns are ever known. -/
  columns : native? = none → s.columns.getD [] = [] ∧ s.types.getD [] = []

/-- A statement that has just been compiled. -/
theorem Statement.new_at (native? : Option Nat) : (Statement.new native?).At native? false :=
  ⟨rfl, fun _ => ⟨rfl, rfl⟩⟩

/-- What a turn gives and leads to. -/
structure TurnSpec (n : Native σ) (native? : Option Nat) (ended : Bool) (e : Entry σ)
    (s : Statement) : Prop where
  lawful : e.Lawful n native? ended
  next : s.At native? (ended || e.ends)
  account : ∀ k, native? = some k → ended = false →
    if e.ends then ReleasedOnce k e.notes else UsesOf k e.notes

section Turn

variable (n : Native σ) {s s' : Statement} {b : σ} {after : Noted σ}

/-- What there is to tell of a call is what a call with notes says. -/
theorem turn_run {answer : CallAnswer} (t : Turn σ) (w : σ)
    (h : (s.perform n.noting t.call).run ⟨t.meanwhile w, []⟩ = ((answer, s'), after)) :
    (s.turn n t).run w =
      ((⟨t.call, t.meanwhile w, after.own, answer, after.env, s'.isFinalized⟩, s'), after.env) := by
  obtain ⟨hanswer, hafter⟩ := perform_coupled n s t.call (t.meanwhile w) ⟨t.meanwhile w, []⟩ rfl
  rw [h] at hanswer hafter
  have hreal : (s.perform n t.call).run (t.meanwhile w) = ((answer, s'), after.env) :=
    Prod.ext hanswer hafter
  have hnotes : s.callNotes n t.call (t.meanwhile w) = after.own := by
    unfold Statement.callNotes
    rw [h]
  show (let p := (s.perform n t.call).run (t.meanwhile w);
    ((Entry.mk _ _ (s.callNotes n t.call (t.meanwhile w)) p.1.1 p.2 p.1.2.isFinalized, p.1.2),
      p.2)) = _
  rw [hreal, hnotes]

/-- What there is to tell of a step. -/
theorem turn_step {answer : Except Error StepResult} (meanwhile : σ → σ) (w : σ)
    (h : (s.step n.noting).run ⟨meanwhile w, []⟩ = ((answer, s'), after)) :
    (s.turn n ⟨meanwhile, .step⟩).run w =
      ((⟨.step, meanwhile w, after.own, .stepped answer, after.env, s'.isFinalized⟩, s'),
        after.env) := by
  refine turn_run n ⟨meanwhile, .step⟩ w ?_
  unfold Statement.perform
  rw [run_bind, h]
  rfl

/-- What there is to tell of a release. -/
theorem turn_finalize {answer : Except Error Unit} (meanwhile : σ → σ) (w : σ)
    (h : (s.finalize n.noting).run ⟨meanwhile w, []⟩ = ((answer, s'), after)) :
    (s.turn n ⟨meanwhile, .finalize⟩).run w =
      ((⟨.finalize, meanwhile w, after.own, .finalized answer, after.env, s'.isFinalized⟩, s'),
        after.env) := by
  refine turn_run n ⟨meanwhile, .finalize⟩ w ?_
  unfold Statement.perform
  rw [run_bind, h]
  rfl

/-- A statement that is over is refused. -/
theorem turn_over {native? : Option Nat} (hs : s.At native? true) (t : Turn σ) (w : σ) :
    TurnSpec n native? true ((s.turn n t).run w).1.1 ((s.turn n t).run w).1.2 := by
  obtain ⟨vm, columns, types⟩ := s
  obtain ⟨hvm, hcolumns⟩ := hs
  cases hvm
  obtain ⟨meanwhile, call⟩ := t
  cases call with
  | step =>
    rw [turn_step n (s := ⟨.finalized, columns, types⟩) meanwhile w rfl]
    refine ⟨⟨rfl, ?_, ?_, ?_, ?_, ?_, ?_⟩, ⟨rfl, hcolumns⟩, ?_⟩
    all_goals simp [CallAnswer.error?]
  | finalize =>
    rw [turn_finalize n (s := ⟨.finalized, columns, types⟩) meanwhile w rfl]
    refine ⟨⟨rfl, ?_, ?_, ?_, ?_, ?_, ?_⟩, ⟨rfl, hcolumns⟩, ?_⟩
    all_goals simp [CallAnswer.error?]

/-- A statement without a command is stepped and released without the engine. -/
theorem turn_empty (hs : s.At none false) (t : Turn σ) (w : σ) :
    TurnSpec n none false ((s.turn n t).run w).1.1 ((s.turn n t).run w).1.2 := by
  obtain ⟨vm, columns, types⟩ := s
  obtain ⟨hvm, hcolumns⟩ := hs
  cases hvm
  obtain ⟨hnames, htypes⟩ := hcolumns rfl
  obtain ⟨meanwhile, call⟩ := t
  cases call with
  | step =>
    rw [turn_step n (s := ⟨.empty, columns, types⟩) meanwhile w rfl]
    refine ⟨⟨rfl, ?_, ?_, ?_, ?_, ?_, ?_⟩, ⟨rfl, fun _ => ⟨hnames, htypes⟩⟩, ?_⟩
    all_goals simp [CallAnswer.error?, hnames, htypes]
  | finalize =>
    rw [turn_finalize n (s := ⟨.empty, columns, types⟩) meanwhile w rfl]
    refine ⟨⟨rfl, ?_, ?_, ?_, ?_, ?_, ?_⟩, ⟨rfl, fun _ => ⟨hnames, htypes⟩⟩, ?_⟩
    all_goals simp [CallAnswer.error?]

/-- An error of the engine is not that of a closed handle. -/
theorem ofCode_ne_closed (code : Int32) (message : String) (handle : Handle) :
    some (Error.ofCode code message) ≠ some (.closedHandle handle) :=
  nofun

/-- Finalizing a live statement releases it. -/
theorem turn_release {k : Nat} (hs : s.At (some k) false) (meanwhile : σ → σ) (w : σ) :
    let p := (s.turn n ⟨meanwhile, .finalize⟩).run w
    TurnSpec n (some k) false p.1.1 p.1.2 := by
  obtain ⟨vm, columns, types⟩ := s
  obtain ⟨hvm, hcolumns⟩ := hs
  cases hvm
  have hrun : (Statement.finalize n.noting ⟨.live k, columns, types⟩).run ⟨meanwhile w, []⟩ =
      ((releaseAnswer ((n.finalize k).run (meanwhile w)).1, ⟨.finalized, columns, types⟩),
        ⟨((n.finalize k).run (meanwhile w)).2,
          [.released k ((n.finalize k).run (meanwhile w)).1]⟩) := by
    show StateT.run (noted (n.finalize k) (.released k) >>= _) _ = _
    rw [run_bind, noted_run]
    cases ((n.finalize k).run (meanwhile w)).1 <;> rfl
  rw [turn_finalize n meanwhile w hrun]
  refine ⟨⟨rfl, ?_, nofun, nofun, nofun, ?_, nofun⟩, ⟨rfl, hcolumns⟩, ?_⟩
  · cases ((n.finalize k).run (meanwhile w)).1 with
    | none => exact ⟨nofun, nofun⟩
    | some failure => exact ⟨fun h => absurd h (ofCode_ne_closed _ _ _), nofun⟩
  · rintro - - k' hk
    cases hk
    exact ⟨rfl, rfl⟩
  · rintro k' hk -
    cases hk
    exact ⟨[], _, nofun, rfl⟩

/-- A step ends a statement if its one native step was fatal. -/
theorem ends_of_step {e : Entry σ} {k : Nat} {status : NativeStatus} {rest : List StatementNote}
    (hcall : e.call = .step) (hnotes : e.notes = .stepped k status :: rest)
    (honce : ∀ note ∈ rest, note.status? = none) : e.ends = status.isFatal := by
  have hnone : rest.any (·.status?.any (·.isFatal)) = false := by
    rw [List.any_eq_false]
    intro note hnote
    rw [honce note hnote]
    exact Bool.false_ne_true
  unfold Entry.ends
  rw [hcall, hnotes, List.any_cons, hnone]
  exact Bool.or_false _

/-- What is left to show of a step after the engine's own step is known. -/
theorem live_step_spec {k : Nat} {status : NativeStatus} {b' : σ} {e : Entry σ}
    {rest : List StatementNote} {fatal : Bool} (hcall : e.call = .step)
    (hstep : (n.step k).run e.before = (status, b'))
    (hnotes : e.notes = .stepped k status :: rest) (honce : ∀ note ∈ rest, note.status? = none)
    (hfatal : status.isFatal = fatal) (hanswer : e.AnswersStatus status)
    (hopen : e.answer.error? ≠ some (.closedHandle .statement))
    (hafter : status.code = ResultCode.busy → e.after = b')
    (hfinalized : e.isFinalized = s'.isFinalized)
    (hvm : s'.vm = if fatal then .finalized else .live k)
    (hrest : if fatal then ReleasedOnce k rest else UsesOf k rest) :
    TurnSpec n (some k) false e s' := by
  have huse : (StatementNote.stepped k status).isUseOf k = true := decide_eq_true rfl
  have hends : e.ends = fatal := (ends_of_step hcall hnotes honce).trans hfatal
  refine ⟨⟨?_, ⟨fun h => absurd h hopen, nofun⟩, nofun, ?_, ?_, ?_, nofun⟩, ⟨?_, nofun⟩, ?_⟩
  · rw [hfinalized, Statement.isFinalized, hvm, Bool.false_or, hends]
    cases fatal <;> rfl
  · rintro - - k' hk
    cases hk
    rw [hstep]
    exact ⟨rest, hnotes, honce, hanswer⟩
  · rintro - - k' hk hbusy
    cases hk
    rw [hstep] at hbusy ⊢
    exact hafter hbusy
  · rintro - hfinalize
    rw [hcall] at hfinalize
    exact nomatch hfinalize
  · rw [hvm, Bool.false_or, hends]
    rfl
  · rintro k' hk -
    cases hk
    rw [hends, hnotes]
    cases fatal with
    | false => exact List.forall_mem_cons.mpr ⟨huse, hrest⟩
    | true =>
      obtain ⟨uses, failure?, huses, heq⟩ := hrest
      exact ⟨.stepped k status :: uses, failure?, List.forall_mem_cons.mpr ⟨huse, huses⟩,
        congrArg _ heq⟩

/-- A step that succeeded answers its status. -/
theorem answers_success {status : NativeStatus} {e : Entry σ} {r : StepResult}
    (hcode : status.succeeded = true) (hanswer : e.answer = .stepped (.ok r))
    (hrow : r.row.isSome = decide (status.code = ResultCode.row)) : e.AnswersStatus status := by
  refine ⟨fun h => ⟨r, hanswer, ?_⟩, fun h => ⟨r, hanswer, ?_⟩, fun h => ?_, fun h => ?_⟩
  · rw [StepResult.isRow, hrow]
    exact decide_eq_true h
  · have hnone : r.row.isSome = false := by
      rw [hrow, h]
      decide
    simpa [StepResult.isDone] using hnone
  · simp [NativeStatus.succeeded, h, ResultCode.busy, ResultCode.row, ResultCode.done] at hcode
  · rw [succeeded_of_known ((Bool.and_eq_true _ _).mp h).1] at hcode
    exact nomatch hcode

/-- A step that failed answers its status if it tells of a lock or of a fatal failure. -/
theorem answers_failure {status : NativeStatus} {e : Entry σ} (hcode : status.succeeded = false)
    (hbusy : status.code = ResultCode.busy →
      e.answer = .stepped (.error (.ofCode status.code ("busy in step: " ++ status.message))))
    (hfatal : status.isFatal →
      e.answer = .stepped (.error (.ofCode status.code status.message))) :
    e.AnswersStatus status := by
  have hcode : status.code ≠ ResultCode.row ∧ status.code ≠ ResultCode.done := by
    simpa [NativeStatus.succeeded] using hcode
  exact ⟨fun h => absurd h hcode.1, fun h => absurd h hcode.2, hbusy, hfatal⟩

/-- A lock is not fatal. -/
theorem not_fatal_of_busy {status : NativeStatus} (h : status.code = ResultCode.busy) :
    status.isFatal = false := by
  simp [NativeStatus.isFatal, h]

/-- A success is not fatal. -/
theorem not_fatal_of_succeeded {status : NativeStatus} (h : status.succeeded = true) :
    status.isFatal = false := by
  cases hfatal : status.isFatal with
  | false => rfl
  | true =>
    rw [succeeded_of_known ((Bool.and_eq_true _ _).mp hfatal).1] at h
    exact nomatch h

/-- A step of a live statement answers as the engine does. -/
theorem turn_live_step {k : Nat} (hs : s.At (some k) false) (meanwhile : σ → σ) (w : σ) :
    let p := (s.turn n ⟨meanwhile, .step⟩).run w
    TurnSpec n (some k) false p.1.1 p.1.2 := by
  have hvm : s.vm = .live k := hs.vm
  obtain ⟨status, b', hstep⟩ : ∃ status b', (n.step k).run (meanwhile w) = (status, b') :=
    ⟨_, _, rfl⟩
  -- the status is that of a success, of a lock, of a fatal failure, or has no meaning
  by_cases hcode : status.succeeded = true
  · obtain ⟨r, s', after, count, hrun, hrow, hvm', hnotes⟩ := step_success n hvm hstep hcode
    have hread : ∀ note ∈ List.replicate count (StatementNote.read k), note = .read k :=
      fun note hnote => List.eq_of_mem_replicate hnote
    rw [turn_step n meanwhile w hrun]
    refine live_step_spec n rfl hstep hnotes ?_ (not_fatal_of_succeeded hcode)
      (answers_success hcode rfl hrow) nofun ?_ rfl hvm' ?_
    · intro note hnote
      rw [hread note hnote]
      rfl
    · intro hbusy
      simp [NativeStatus.succeeded, hbusy, ResultCode.busy, ResultCode.row, ResultCode.done]
        at hcode
    · intro note hnote
      rw [hread note hnote]
      exact decide_eq_true rfl
  have hfailed : status.succeeded = false := by simpa using hcode
  by_cases hbusy : status.code = ResultCode.busy
  · have hfatal := not_fatal_of_busy hbusy
    have hanswer : ¬status.isFatal = true := by simp [hfatal]
    rw [turn_step n meanwhile w (step_busy n hvm hstep hbusy)]
    exact live_step_spec n rfl hstep rfl nofun hfatal
      (answers_failure hfailed (fun _ => rfl) fun h => absurd h hanswer) (ofCode_ne_closed _ _ _)
      (fun _ => rfl) rfl hvm nofun
  by_cases hfatal : status.isFatal = true
  · obtain ⟨after, failure?, hrun, hnotes⟩ := step_fatal n hvm hstep hfatal
    rw [turn_step n meanwhile w hrun]
    exact live_step_spec n rfl hstep hnotes (List.forall_mem_singleton.mpr rfl) hfatal
      (answers_failure hfailed (fun h => absurd h hbusy) fun _ => rfl) (ofCode_ne_closed _ _ _)
      (fun h => absurd h hbusy) rfl rfl ⟨[], failure?, nofun, rfl⟩
  · have hother : status.isFatal = false := by simpa using hfatal
    obtain ⟨b'', hrun⟩ := step_unknown n hvm hstep hfailed hbusy hother
    rw [turn_step n meanwhile w hrun]
    exact live_step_spec n rfl hstep rfl nofun hother
      (answers_failure hfailed (fun h => absurd h hbusy) fun h => absurd h hfatal) nofun
      (fun h => absurd h hbusy) rfl hvm nofun

/-- Every turn is as expected. -/
theorem turn_spec {native? : Option Nat} {ended : Bool} (hs : s.At native? ended) (t : Turn σ)
    (w : σ) :
    let p := (s.turn n t).run w
    TurnSpec n native? ended p.1.1 p.1.2 := by
  obtain ⟨meanwhile, call⟩ := t
  cases ended with
  | true => exact turn_over n hs ⟨meanwhile, call⟩ w
  | false =>
    cases native? with
    | none => exact turn_empty n hs ⟨meanwhile, call⟩ w
    | some k =>
      cases call with
      | step => exact turn_live_step n hs meanwhile w
      | finalize => exact turn_release n hs meanwhile w

end Turn

/-! ## All turns -/

section Turns

variable (n : Native σ) {native? : Option Nat}

/-- Every call is as expected, given whether one before it ended the statement. -/
theorem turns_lawful (turns : List (Turn σ)) : ∀ {ended : Bool} {s : Statement} (w : σ),
    s.At native? ended → ∀ earlier e later,
      ((s.turns n turns).run w).1.1 = earlier ++ e :: later →
      e.Lawful n native? (ended || earlier.any (·.ends)) := by
  induction turns with
  | nil =>
    intro ended s w hs earlier e later h
    have h : [] = earlier ++ e :: later := h
    simp at h
  | cons t turns ih =>
    intro ended s w hs earlier e later h
    have hspec := turn_spec n hs t w
    have h : ((s.turn n t).run w).1.1 ::
        ((((s.turn n t).run w).1.2.turns n turns).run ((s.turn n t).run w).2).1.1 =
          earlier ++ e :: later := h
    cases earlier with
    | nil =>
      obtain ⟨rfl, -⟩ := List.cons.inj h
      rw [List.any_nil, Bool.or_false]
      exact hspec.lawful
    | cons first earlier =>
      obtain ⟨rfl, hrest⟩ := List.cons.inj h
      rw [List.any_cons, ← Bool.or_assoc]
      exact ih _ hspec.next earlier e later hrest

/-- What is noted from some point on: the use and the release of a live statement, and nothing for
one that is over or without a command. -/
def Account (native? : Option Nat) (ended : Bool) (notes : List StatementNote) : Prop :=
  match native?, ended with
  | some k, false => ReleasedOnce k notes
  | _, _ => notes = []

/-- Dropping a statement releases it if it is live. -/
theorem drop_account {ended : Bool} {s : Statement} (hs : s.At native? ended) (last : σ) :
    Account native? ended (s.dropNotes n last) := by
  obtain ⟨vm, columns, types⟩ := s
  cases hs.vm
  cases ended with
  | true => cases native? <;> rfl
  | false =>
    cases native? with
    | none => rfl
    | some k => exact ⟨[], ((n.finalize k).run last).1, nofun, rfl⟩

/-- The notes of a turn come before those of what follows. -/
theorem TurnSpec.account_append {ended : Bool} {e : Entry σ} {s : Statement}
    {notes : List StatementNote} (h : TurnSpec n native? ended e s)
    (hnotes : Account native? (ended || e.ends) notes) :
    Account native? ended (e.notes ++ notes) := by
  cases native? with
  | none =>
    have hnotes : notes = [] := hnotes
    have hnone : e.notes = [] := by
      cases ended with
      | true => exact (h.lawful.untouched rfl).1
      | false => exact (h.lawful.empty rfl rfl).1
    show e.notes ++ notes = []
    rw [hnone, hnotes]
    rfl
  | some k =>
    cases ended with
    | true =>
      -- it was released before
      have hnotes : notes = [] := hnotes
      show e.notes ++ notes = []
      rw [(h.lawful.untouched rfl).1, hnotes]
      rfl
    | false =>
      have haccount := h.account k rfl rfl
      cases hends : e.ends with
      | true =>
        -- it is released in this turn, so not in a later one
        rw [hends] at hnotes haccount
        have hnotes : notes = [] := hnotes
        rw [hnotes, List.append_nil]
        exact haccount
      | false =>
        -- it is released later, after more uses
        rw [hends] at hnotes haccount
        obtain ⟨uses, failure?, huses, rfl⟩ := hnotes
        exact ⟨e.notes ++ uses, failure?, List.forall_mem_append.mpr ⟨haccount, huses⟩,
          (List.append_assoc ..).symm⟩

/-- All notes of the life of a statement. -/
theorem turns_account (turns : List (Turn σ)) (last : σ) :
    ∀ {ended : Bool} {s : Statement} (w : σ), s.At native? ended →
      let p := (s.turns n turns).run w
      Account native? ended (p.1.1.flatMap (·.notes) ++ p.1.2.dropNotes n last) := by
  induction turns with
  | nil =>
    intro ended s w hs
    exact drop_account n hs last
  | cons t turns ih =>
    intro ended s w hs
    have hspec := turn_spec n hs t w
    have hrest := hspec.account_append n (ih ((s.turn n t).run w).2 hspec.next)
    rw [← List.append_assoc] at hrest
    exact hrest

end Turns

/-- Only a step of a live statement can meet a lock, and then the engine said so. -/
theorem lock_of_metLock {n : Native σ} {native? : Option Nat} {ended : Bool} {e : Entry σ}
    (he : e.Lawful n native? ended) (hlock : e.MetLock) :
    ∃ k, native? = some k ∧ ended = false ∧ e.call = .step ∧
      ((n.step k).run e.before).1.code = ResultCode.busy := by
  obtain ⟨note, hnote, hbusy⟩ := hlock
  -- in every other case there is no note, or none of a step
  cases ended with
  | true =>
    rw [(he.untouched rfl).1] at hnote
    exact nomatch hnote
  | false =>
    cases native? with
    | none =>
      rw [(he.empty rfl rfl).1] at hnote
      exact nomatch hnote
    | some k =>
      cases hcall : e.call with
      | finalize =>
        rw [(he.finalize rfl hcall k rfl).1, List.mem_singleton] at hnote
        rw [hnote] at hbusy
        exact nomatch hbusy
      | step =>
        obtain ⟨rest, hnotes, honce, -⟩ := he.step rfl hcall k rfl
        rw [hnotes, List.mem_cons] at hnote
        rcases hnote with rfl | hrest
        · exact ⟨k, rfl, rfl, rfl, of_decide_eq_true hbusy⟩
        · rw [honce note hrest] at hbusy
          exact nomatch hbusy

/-- A release directly after a lock fails with it. -/
theorem release_after_lock {n : Native σ} {native? : Option Nat} {ended : Bool} {e f : Entry σ}
    (hn : n.RepeatsFailure) (he : e.Lawful n native? ended)
    (hf : f.Lawful n native? (ended || e.ends)) (hlock : e.MetLock) (hcall : f.call = .finalize)
    (hbefore : f.before = e.after) :
    (∃ error, f.answer = .finalized (.error error) ∧ error.kind = .busy) ∧
      f.isFinalized = true ∧ ∃ k, native? = some k ∧ ReleasedOnce k f.notes := by
  obtain ⟨k, rfl, rfl, hstep, hbusy⟩ := lock_of_metLock he hlock
  have hknown : ErrorKind.isKnownFailure ((n.step k).run e.before).1.code = true := by
    rw [hbusy]
    decide
  obtain ⟨failure, hfailure, hkind⟩ := hn k e.before hknown
  -- a lock is not fatal, so the release is one of a live statement
  have hlive : (false || e.ends) = false := by
    obtain ⟨rest, hnotes, honce, -⟩ := he.step rfl hstep k rfl
    rw [Bool.false_or, ends_of_step hstep hnotes honce, not_fatal_of_busy hbusy]
  rw [hlive] at hf
  obtain ⟨hnotes, hanswer⟩ := hf.finalize rfl hcall k rfl
  rw [hbefore, he.blocked rfl hstep k rfl hbusy, hfailure] at hnotes hanswer
  refine ⟨⟨failure.toError, hanswer, ?_⟩, ?_, k, rfl, [], _, nofun, hnotes⟩
  · show ErrorKind.ofCode failure.code = .busy
    rw [hkind, hbusy]
    decide
  · rw [hf.isFinalized, Entry.ends, hcall]
    rfl

/-- A statement that was compiled is what the engine compiled. -/
theorem compile_new (n : Native σ) (c : Connection) (sql : String) {w w₀ : σ} {s : Statement}
    {remainder : String} (h : (c.compile n sql).run w = (.ok (s, remainder), w₀)) :
    ∃ connection native? used, c.native? = some connection ∧
      (n.prepare connection sql).run w = (.ok (native?, used), w₀) ∧ s = .new native? := by
  unfold Connection.compile Connection.withNative at h
  cases hopen : c.native? with
  | none =>
    rw [hopen] at h
    exact nomatch h
  | some connection =>
    rw [hopen] at h
    unfold Connection.prepare at h
    simp only [run_bind] at h
    cases hnul : nulError? sql with
    | some reason =>
      simp only [hnul] at h
      exact nomatch h
    | none =>
      cases hprepare : (n.prepare connection sql).run w with
      | mk answer w' =>
        cases answer with
        | error failure =>
          simp only [hnul, run_bind, hprepare] at h
          exact nomatch h
        | ok result =>
          obtain ⟨native?, used⟩ := result
          simp only [hnul, run_bind, hprepare] at h
          cases h
          exact ⟨connection, native?, used, rfl, hprepare, rfl⟩

/-- Every call of a compiled statement is as expected, whatever the engine does and however the
world changes between the calls, and the engine's statement is released exactly once. -/
theorem Statement.life_lawful (n : Native σ) (c : Connection) (sql : String) {w w₀ : σ}
    {s : Statement} {remainder : String}
    (h : (c.compile n sql).run w = (.ok (s, remainder), w₀)) (turns : List (Turn σ)) (last : σ) :
    ∃ connection native? used, c.native? = some connection ∧
      (n.prepare connection sql).run w = (.ok (native?, used), w₀) ∧
      let p := (s.turns n turns).run w₀
      LawfulLife n native? p.1.1 (p.1.2.dropNotes n last) := by
  obtain ⟨connection, native?, used, hopen, hprepare, rfl⟩ := compile_new n c sql h
  refine ⟨connection, native?, used, hopen, hprepare, ?_⟩
  have hs := Statement.new_at native?
  have hcalls := turns_lawful n turns w₀ hs
  have haccount := turns_account n turns last w₀ hs
  refine ⟨?_, ?_, ?_, ?_⟩
  · intro earlier e later heq
    exact hcalls earlier e later heq
  · intro hn earlier e f later heq
    have he := hcalls earlier e (f :: later) heq
    have hf := hcalls (earlier ++ [e]) f later (by rw [heq, List.append_assoc]; rfl)
    rw [List.any_append, List.any_cons, List.any_nil, Bool.or_false, Bool.false_or] at hf
    exact release_after_lock hn he hf
  · rintro k rfl
    exact haccount
  · rintro rfl
    exact haccount

/-- An engine on which somebody else holds all locks. -/
def Native.locked : Native Unit where
  connect _ _ := return .ok 1
  disconnect _ := return none
  isOpen _ := return true
  prepare _ sql := return .ok (some 1, sql.length)
  execute _ _ := return some ⟨ResultCode.busy, "database is locked"⟩
  changes _ := return 0
  lastInsertRowId _ := return 0
  interrupt _ := return
  setPolicy _ _ := return
  register _ _ := return .ok 1
  declareType _ _ := return
  step _ := return ⟨ResultCode.busy, "database is locked"⟩
  columnCount _ := return 1
  columnName _ _ := return "a"
  columnType _ _ := return none
  columnText _ _ := return none
  finalize _ := return some ⟨ResultCode.busy, "database is locked"⟩
  log _ := return

/-- A statement that meets a lock, and is finalized after that. -/
theorem life_lawful_locked :
    Native.locked.RepeatsFailure ∧
    (Connection.compile .locked ⟨some 1, "a.db", []⟩ "SELECT a FROM t").run () =
      (.ok (Statement.new (some 1), ""), ()) ∧
    ∃ connection native? used, some 1 = some connection ∧
      (Native.locked.prepare connection "SELECT a FROM t").run () = (.ok (native?, used), ()) ∧
      let p := ((Statement.new (some 1)).turns .locked [⟨id, .step⟩, ⟨id, .finalize⟩]).run ()
      LawfulLife Native.locked native? p.1.1 (p.1.2.dropNotes .locked ()) := by
  refine ⟨fun _ _ _ => ⟨_, rfl, rfl⟩, rfl, ?_⟩
  exact Statement.life_lawful .locked ⟨some 1, "a.db", []⟩ "SELECT a FROM t" rfl
    [⟨id, .step⟩, ⟨id, .finalize⟩] ()

end HostSql
