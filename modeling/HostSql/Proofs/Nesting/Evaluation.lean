import HostSql.Proofs.Engine.Runs
import HostSql.Proofs.Nesting.Alike
import Mathlib.Data.List.Forall2

/-!
# Evaluation in alike worlds

The engine runs the plan of a nest in two worlds that the nest cannot tell apart. Whatever it
evaluates has the same value in both, and leaves them alike. The groups that it begins have numbers of
their own in each world, so aggregate calls correspond as long as their groups are tied
(`FeedingsTied`), and the ties grow as rows are fed.

> `Cursor.next_alongside`: in both worlds a plan of a nest delivers the same row, and the same is
> left of it.

What is asked of the host is left open here (`HooksAlike`).
-/

namespace HostSql

open Engine

variable {α β γ δ : Type}

/-! ## Computations side by side -/

/-- From alike worlds both computations give the same answer, of which something holds, and leave
the worlds alike. -/
def Alongside (n : Nest) (start : SessionWorld) (P : α → Prop) (x y : StateM SessionWorld α) : Prop :=
  ∀ ties w v, Alike n start ties w v →
    (x.run w).1 = (y.run v).1 ∧ P (x.run w).1 ∧ Alike n start ties (x.run w).2 (y.run v).2

/-- From worlds that are alike with these ties both computations give answers that correspond, under
ties that may have grown, and leave the worlds alike. -/
def Parallel (n : Nest) (start : SessionWorld) (ties : Ties) (Q : Ties → α → β → Prop)
    (x : StateM SessionWorld α) (y : StateM SessionWorld β) : Prop :=
  ∀ w v, Alike n start ties w v → ∃ ties', ties.Grow ties' ∧ Q ties' (x.run w).1 (y.run v).1 ∧
    Alike n start ties' (x.run w).2 (y.run v).2

/-- Computations side by side that may fail. -/
def AlongsideRun (n : Nest) (start : SessionWorld) (P : α → Prop) (x y : Run Host α) : Prop :=
  Alongside n start (fun r => ∀ a, r = .ok a → P a) x.run y.run

section Rules

variable {n : Nest} {start : SessionWorld} {ties : Ties}

namespace Alongside

variable {P : α → Prop} {Q : β → Prop} {x y : StateM SessionWorld α}

theorem pure {a : α} (h : P a) : Alongside n start P (Pure.pure a) (Pure.pure a) :=
  fun _ _ _ halike => ⟨rfl, h, halike⟩

theorem bind {f g : α → StateM SessionWorld β} (hx : Alongside n start P x y)
    (hf : ∀ a, P a → Alongside n start Q (f a) (g a)) :
    Alongside n start Q (x >>= f) (y >>= g) := by
  intro ties w v h
  obtain ⟨hanswer, hP, hnext⟩ := hx ties w v h
  rw [run_bind, run_bind, ← hanswer]
  exact hf _ hP _ _ _ hnext

theorem mono {P' : α → Prop} (hx : Alongside n start P x y) (h : ∀ a, P a → P' a) :
    Alongside n start P' x y := by
  intro ties w v halike
  obtain ⟨hanswer, hP, hnext⟩ := hx ties w v halike
  exact ⟨hanswer, h _ hP, hnext⟩

theorem parallel (hx : Alongside n start P x y) :
    Parallel n start ties (fun _ a b => a = b ∧ P a) x y := by
  intro w v h
  obtain ⟨hanswer, hP, hnext⟩ := hx ties w v h
  exact ⟨ties, .refl ties, ⟨hanswer, hP⟩, hnext⟩

end Alongside

namespace Parallel

variable {Q : Ties → α → β → Prop} {R : Ties → γ → δ → Prop} {x : StateM SessionWorld α}
  {y : StateM SessionWorld β}

theorem pure {a : α} {b : β} (h : Q ties a b) :
    Parallel n start ties Q (Pure.pure a) (Pure.pure b) :=
  fun _ _ halike => ⟨ties, .refl ties, h, halike⟩

/-- What follows two computations that have gone side by side from these worlds. -/
theorem bind_at {w v : SessionWorld} {f : α → StateM SessionWorld γ} {g : β → StateM SessionWorld δ}
    (hx : ∃ ties', ties.Grow ties' ∧ Q ties' (x.run w).1 (y.run v).1 ∧
      Alike n start ties' (x.run w).2 (y.run v).2)
    (hf : ∀ ties', ties.Grow ties' → ∀ a b, Q ties' a b → Parallel n start ties' R (f a) (g b)) :
    ∃ ties', ties.Grow ties' ∧ R ties' ((x >>= f).run w).1 ((y >>= g).run v).1 ∧
      Alike n start ties' ((x >>= f).run w).2 ((y >>= g).run v).2 := by
  obtain ⟨ties', hgrow, hQ, hnext⟩ := hx
  obtain ⟨ties'', hgrow', hR, hend⟩ := hf ties' hgrow _ _ hQ _ _ hnext
  exact ⟨ties'', hgrow.trans hgrow', hR, hend⟩

theorem bind {f : α → StateM SessionWorld γ} {g : β → StateM SessionWorld δ}
    (hx : Parallel n start ties Q x y)
    (hf : ∀ ties', ties.Grow ties' → ∀ a b, Q ties' a b → Parallel n start ties' R (f a) (g b)) :
    Parallel n start ties R (x >>= f) (y >>= g) :=
  fun w v h => bind_at (hx w v h) hf

/-- What does not fail goes first in what may fail. -/
theorem lift_bind {f : α → Run Host γ} {g : β → Run Host δ}
    {R : Ties → Except Fault γ → Except Fault δ → Prop} (hx : Parallel n start ties Q x y)
    (hf : ∀ ties', ties.Grow ties' → ∀ a b, Q ties' a b →
      Parallel n start ties' R (f a).run (g b).run) :
    Parallel n start ties R ((liftM x : Run Host α) >>= f).run ((liftM y : Run Host β) >>= g).run :=
  bind hx hf

/-- Two computations that keep the ties as they are. -/
theorem of_coupled {x y : StateM SessionWorld α} (hx : Coupled (Alike n start ties) x y) :
    Parallel n start ties (fun _ a b => a = b) x y := by
  intro w v h
  obtain ⟨hanswer, hnext⟩ := hx w v h
  exact ⟨ties, .refl ties, hanswer, hnext⟩

theorem mono {Q' : Ties → α → β → Prop} (hx : Parallel n start ties Q x y)
    (h : ∀ ties' a b, Q ties' a b → Q' ties' a b) : Parallel n start ties Q' x y := by
  intro w v halike
  obtain ⟨ties', hgrow, hQ, hnext⟩ := hx w v halike
  exact ⟨ties', hgrow, h _ _ _ hQ, hnext⟩

/-- What begins in between need not stay tied. -/
theorem alongside {P : α → Prop} {x y : StateM SessionWorld α}
    (hx : ∀ ties, Parallel n start ties (fun _ a b => a = b ∧ P a) x y) :
    Alongside n start P x y := by
  intro ties w v h
  obtain ⟨ties', hgrow, ⟨hanswer, hP⟩, hnext⟩ := hx ties w v h
  exact ⟨hanswer, hP, hnext.weaken hgrow⟩

end Parallel

/-- Computations that may fail, with the same answer under ties that may have grown. -/
abbrev ParallelRun (n : Nest) (start : SessionWorld) (ties : Ties) (x y : Run Host α) : Prop :=
  Parallel n start ties (fun _ a b => a = b) x.run y.run

namespace ParallelRun

theorem pure (a : α) : ParallelRun n start ties (Pure.pure a) (Pure.pure a) := Parallel.pure rfl

theorem throw (fault : Fault) :
    ParallelRun n start ties (throw fault : Run Host α) (throw fault : Run Host α) := Parallel.pure rfl

theorem bind {x y : Run Host α} {f g : α → Run Host β} (hx : ParallelRun n start ties x y)
    (hf : ∀ ties', ties.Grow ties' → ∀ a, ParallelRun n start ties' (f a) (g a)) :
    ParallelRun n start ties (x >>= f) (y >>= g) := by
  refine Parallel.bind (f := ExceptT.bindCont f) (g := ExceptT.bindCont g) hx ?_
  rintro ties' hgrow r _ rfl
  cases r with
  | error fault => exact Parallel.pure rfl
  | ok a => exact hf ties' hgrow a

/-- What begins in between need not stay tied. -/
theorem alongside {x y : Run Host α} (hx : ∀ ties, ParallelRun n start ties x y) :
    AlongsideRun n start (fun _ => True) x y :=
  Parallel.alongside fun ties => (hx ties).mono fun _ _ _ heq => ⟨heq, fun _ _ => trivial⟩

end ParallelRun

namespace AlongsideRun

theorem parallel {x y : Run Host α} {P : α → Prop} (hx : AlongsideRun n start P x y) :
    ParallelRun n start ties x y :=
  (Alongside.parallel hx).mono fun _ _ _ h => h.1

variable {P : α → Prop} {Q : β → Prop} {x y : Run Host α}

theorem pure {a : α} (h : P a) : AlongsideRun n start P (Pure.pure a) (Pure.pure a) :=
  Alongside.pure fun _ heq => Except.ok.inj heq ▸ h

theorem throw (fault : Fault) : AlongsideRun n start P (throw fault) (throw fault) :=
  Alongside.pure nofun

theorem bind {f g : α → Run Host β} (hx : AlongsideRun n start P x y)
    (hf : ∀ a, P a → AlongsideRun n start Q (f a) (g a)) :
    AlongsideRun n start Q (x >>= f) (y >>= g) := by
  refine Alongside.bind (f := ExceptT.bindCont f) (g := ExceptT.bindCont g) hx fun r hr => ?_
  cases r with
  | error fault => exact Alongside.pure nofun
  | ok a => exact hf a (hr a rfl)

theorem mono {P' : α → Prop} (hx : AlongsideRun n start P x y) (h : ∀ a, P a → P' a) :
    AlongsideRun n start P' x y :=
  Alongside.mono hx fun _ hr a heq => h a (hr a heq)

theorem lift {x y : StateM SessionWorld α} (hx : Alongside n start P x y) :
    AlongsideRun n start P (liftM x : Run Host α) (liftM y : Run Host α) := by
  intro ties w v h
  obtain ⟨hanswer, hP, hnext⟩ := hx ties w v h
  exact ⟨congrArg Except.ok hanswer, fun _ heq => Except.ok.inj heq ▸ hP, hnext⟩

theorem attempt (hx : AlongsideRun n start P x y) :
    AlongsideRun n start (fun r => ∀ a, r = .ok a → P a) (attempt x) (attempt y) :=
  .lift hx

end AlongsideRun

end Rules

/-! ## The host -/

/-- The same place of a group on both sides: a group that has begun, or none yet. -/
def Ties.Slots (ties : Ties) (record : Nat) : Option Nat → Option Nat → Prop
  | some i, some j => ties.groups record i j
  | none, none => True
  | _, _ => False

theorem Ties.Slots.grow {ties ties' : Ties} {record : Nat} {slot slot' : Option Nat}
    (h : ties.Slots record slot slot') (hgrow : ties.Grow ties') : ties'.Slots record slot slot' := by
  cases slot with
  | none =>
    cases slot' with
    | none => trivial
    | some j => exact h
  | some i =>
    cases slot' with
    | none => exact h
    | some j => exact hgrow.groups record i j h

/-- A host that answers alike in alike worlds, when it is asked about functions of a nest. -/
structure HooksAlike (n : Nest) (start : SessionWorld) (hooks : Hooks Host) : Prop where
  call : ∀ ties, ∀ record ∈ n.records, ∀ slot slot', ties.Slots record slot slot' → ∀ args,
    Parallel n start ties (fun ties' a b => ties'.Slots record a.slot b.slot ∧ a.result = b.result)
      (hooks.call record slot args) (hooks.call record slot' args)
  finish : ∀ ties, ∀ record ∈ n.records, ∀ slot slot', ties.Slots record slot slot' →
    Parallel n start ties (fun _ a b => a.result = b.result)
      (hooks.finish record slot) (hooks.finish record slot')
  discard : ∀ ties, ∀ record ∈ n.records, ∀ i j, ties.groups record i j →
    Parallel n start ties (fun _ _ _ => True) (hooks.discard record i) (hooks.discard record j)
  busy : ∀ w, n.Ready w → ∀ attempt, n.Unseen w ((hooks.busy n.connection attempt).run w).2

namespace Engine

variable {n : Nest} {start : SessionWorld} {hooks : Hooks Host} {j j' : Nat}

/-! ## Terms -/

/-- Nothing is to interrupt the connection. -/
theorem checkInterrupt_alongside :
    AlongsideRun n start (fun _ => True) (checkInterrupt ⟨n.connection, j, hooks⟩)
      (checkInterrupt ⟨n.connection, j', hooks⟩) := by
  intro ties w v halike
  have hcalm {w : SessionWorld} (hw : n.Ready w) (j : Nat) :
      (checkInterrupt ⟨n.connection, j, hooks⟩).run.run w = (.ok (), w) := by
    obtain ⟨conn, hconn, _, hcalm⟩ := hw.undisturbed
    exact (checkInterrupt_undisturbed ⟨conn, hconn, hcalm⟩).run
  rw [hcalm halike.agree.left, hcalm halike.agree.right]
  exact ⟨rfl, fun _ _ => trivial, halike⟩

/-- Functions of the engine see the same counters. -/
theorem connectionOf_alongside {f g : Engine.Connection → Run Host α} {P : α → Prop}
    (hf : ∀ conn conn', conn.counters = conn'.counters → AlongsideRun n start P (f conn) (g conn')) :
    AlongsideRun n start P (connectionOf n.connection >>= f) (connectionOf n.connection >>= g) := by
  intro ties w v halike
  obtain ⟨conn, hconn, _⟩ := halike.agree.left.undisturbed
  obtain ⟨conn', hconn', _⟩ := halike.agree.right.undisturbed
  have hcounters : conn.counters = conn'.counters := by
    have hsame := halike.agree.counters
    rw [hconn, hconn'] at hsame
    exact Option.some.inj hsame
  rw [run_bind_ok (connectionOf_run hconn), run_bind_ok (connectionOf_run hconn')]
  exact hf conn conn' hcounters ties w v halike

theorem callHost_alongside (h : HooksAlike n start hooks) {record : Nat} (hrecord : record ∈ n.records) (args : List Datum) :
    AlongsideRun n start (fun _ => True) (callHost ⟨n.connection, j, hooks⟩ record args)
      (callHost ⟨n.connection, j', hooks⟩ record args) := by
  refine Parallel.alongside fun ties => ?_
  refine (h.call ties record hrecord none none trivial args).lift_bind fun ties' _ a b hab => ?_
  rw [hab.2]
  cases b.result with
  | ok d => exact .pure ⟨rfl, fun _ _ => trivial⟩
  | error message => exact .pure ⟨rfl, nofun⟩

mutual

theorem Term.eval_alongside (h : HooksAlike n start hooks) (row : Row) : ∀ t : Term, t.staysIn n.records = true →
    AlongsideRun n start (fun _ => True) (t.eval ⟨n.connection, j, hooks⟩ row)
      (t.eval ⟨n.connection, j', hooks⟩ row)
  | .value d, _ => by
    simp only [Term.eval]
    exact .pure trivial
  | .column i, _ => by
    simp only [Term.eval]
    exact .pure trivial
  | .negate e, he => by
    simp only [Term.staysIn] at he
    simp only [Term.eval]
    exact (Term.eval_alongside h row e he).bind fun _ _ => .pure trivial
  | .bitNot e, he => by
    simp only [Term.staysIn] at he
    simp only [Term.eval]
    exact (Term.eval_alongside h row e he).bind fun _ _ => .pure trivial
  | .not e, he => by
    simp only [Term.staysIn] at he
    simp only [Term.eval]
    exact (Term.eval_alongside h row e he).bind fun _ _ => .pure trivial
  | .isNull e, he => by
    simp only [Term.staysIn] at he
    simp only [Term.eval]
    exact (Term.eval_alongside h row e he).bind fun _ _ => .pure trivial
  | .and l r, hlr => by
    simp only [Term.staysIn, Bool.and_eq_true] at hlr
    simp only [Term.eval]
    exact (Term.eval_alongside h row l hlr.1).bind fun _ _ =>
      (Term.eval_alongside h row r hlr.2).bind fun _ _ => .pure trivial
  | .or l r, hlr => by
    simp only [Term.staysIn, Bool.and_eq_true] at hlr
    simp only [Term.eval]
    exact (Term.eval_alongside h row l hlr.1).bind fun _ _ =>
      (Term.eval_alongside h row r hlr.2).bind fun _ _ => .pure trivial
  | .arithmetic op l r, hlr => by
    simp only [Term.staysIn, Bool.and_eq_true] at hlr
    simp only [Term.eval]
    exact (Term.eval_alongside h row l hlr.1).bind fun _ _ =>
      (Term.eval_alongside h row r hlr.2).bind fun _ _ => .pure trivial
  | .compare op rule l r, hlr => by
    simp only [Term.staysIn, Bool.and_eq_true] at hlr
    simp only [Term.eval]
    exact (Term.eval_alongside h row l hlr.1).bind fun _ _ =>
      (Term.eval_alongside h row r hlr.2).bind fun _ _ => .pure trivial
  | .same negated rule l r, hlr => by
    simp only [Term.staysIn, Bool.and_eq_true] at hlr
    simp only [Term.eval]
    exact (Term.eval_alongside h row l hlr.1).bind fun _ _ =>
      (Term.eval_alongside h row r hlr.2).bind fun _ _ => .pure trivial
  | .between low high e l u, helu => by
    simp only [Term.staysIn, Bool.and_eq_true] at helu
    simp only [Term.eval]
    exact (Term.eval_alongside h row e helu.1.1).bind fun _ _ =>
      (Term.eval_alongside h row l helu.1.2).bind fun _ _ =>
        (Term.eval_alongside h row u helu.2).bind fun _ _ => .pure trivial
  | .among rule e items, he => by
    simp only [Term.staysIn, Bool.and_eq_true] at he
    simp only [Term.eval]
    exact (Term.eval_alongside h row e he.1).bind fun _ _ =>
      (Term.evalAll_alongside h row items he.2).bind fun _ _ => .pure trivial
  | .choice items, hitems => by
    simp only [Term.staysIn] at hitems
    simp only [Term.eval]
    exact Term.evalChoice_alongside h row items hitems
  | .select rule operand items, hitems => by
    simp only [Term.staysIn, Bool.and_eq_true] at hitems
    simp only [Term.eval]
    exact (Term.eval_alongside h row operand hitems.1).bind fun d _ =>
      Term.evalSelect_alongside h row rule d items hitems.2
  | .coalesce items, hitems => by
    simp only [Term.staysIn] at hitems
    simp only [Term.eval]
    exact Term.evalFirst_alongside h row items hitems
  | .cast a e, he => by
    simp only [Term.staysIn] at he
    simp only [Term.eval]
    exact (Term.eval_alongside h row e he).bind fun _ _ => .pure trivial
  | .scalar f args, hargs => by
    simp only [Term.staysIn] at hargs
    simp only [Term.eval]
    refine (Term.evalAll_alongside h row args hargs).bind fun ds _ => ?_
    refine connectionOf_alongside fun conn conn' hcounters => ?_
    rw [hcounters]
    cases f.eval conn'.counters ds with
    | ok d => exact .pure trivial
    | error message => exact .throw _
  | .host record args, hargs => by
    simp only [Term.staysIn, Bool.and_eq_true, List.contains_iff_mem] at hargs
    simp only [Term.eval]
    exact (Term.evalAll_alongside h row args hargs.2).bind fun ds _ =>
      callHost_alongside h hargs.1 ds

theorem Term.evalAll_alongside (h : HooksAlike n start hooks) (row : Row) : ∀ ts : List Term, Term.allStayIn n.records ts = true →
    AlongsideRun n start (fun _ => True) (Term.evalAll ⟨n.connection, j, hooks⟩ row ts)
      (Term.evalAll ⟨n.connection, j', hooks⟩ row ts)
  | [], _ => by
    simp only [Term.evalAll]
    exact .pure trivial
  | t :: ts, hts => by
    simp only [Term.allStayIn, Bool.and_eq_true] at hts
    simp only [Term.evalAll]
    exact (Term.eval_alongside h row t hts.1).bind fun _ _ =>
      (Term.evalAll_alongside h row ts hts.2).bind fun _ _ => .pure trivial

theorem Term.evalChoice_alongside (h : HooksAlike n start hooks) (row : Row) :
    ∀ items : List Term, Term.allStayIn n.records items = true →
    AlongsideRun n start (fun _ => True) (Term.evalChoice ⟨n.connection, j, hooks⟩ row items)
      (Term.evalChoice ⟨n.connection, j', hooks⟩ row items)
  | [], _ => by
    simp only [Term.evalChoice]
    exact .pure trivial
  | [other], hitems => by
    simp only [Term.allStayIn, Bool.and_eq_true] at hitems
    simp only [Term.evalChoice]
    exact Term.eval_alongside h row other hitems.1
  | c :: v :: rest, hitems => by
    simp only [Term.allStayIn, Bool.and_eq_true] at hitems
    simp only [Term.evalChoice]
    refine (Term.eval_alongside h row c hitems.1).bind fun d _ => ?_
    split
    · exact Term.eval_alongside h row v hitems.2.1
    · exact Term.evalChoice_alongside h row rest hitems.2.2

theorem Term.evalSelect_alongside (h : HooksAlike n start hooks) (row : Row) (rule : CompareRule) (operand : Datum) :
    ∀ items : List Term, Term.allStayIn n.records items = true →
    AlongsideRun n start (fun _ => True)
      (Term.evalSelect ⟨n.connection, j, hooks⟩ row rule operand items)
      (Term.evalSelect ⟨n.connection, j', hooks⟩ row rule operand items)
  | [], _ => by
    simp only [Term.evalSelect]
    exact .pure trivial
  | [other], hitems => by
    simp only [Term.allStayIn, Bool.and_eq_true] at hitems
    simp only [Term.evalSelect]
    exact Term.eval_alongside h row other hitems.1
  | c :: v :: rest, hitems => by
    simp only [Term.allStayIn, Bool.and_eq_true] at hitems
    simp only [Term.evalSelect]
    refine (Term.eval_alongside h row c hitems.1).bind fun d _ => ?_
    split
    · exact Term.eval_alongside h row v hitems.2.1
    · exact Term.evalSelect_alongside h row rule operand rest hitems.2.2

theorem Term.evalFirst_alongside (h : HooksAlike n start hooks) (row : Row) :
    ∀ items : List Term, Term.allStayIn n.records items = true →
    AlongsideRun n start (fun _ => True) (Term.evalFirst ⟨n.connection, j, hooks⟩ row items)
      (Term.evalFirst ⟨n.connection, j', hooks⟩ row items)
  | [], _ => by
    simp only [Term.evalFirst]
    exact .pure trivial
  | t :: ts, hts => by
    simp only [Term.allStayIn, Bool.and_eq_true] at hts
    simp only [Term.evalFirst]
    refine (Term.eval_alongside h row t hts.1).bind fun d _ => ?_
    split
    · exact Term.evalFirst_alongside h row ts hts.2
    · exact .pure trivial

end

theorem Term.isTrue_alongside (h : HooksAlike n start hooks) (row : Row) (t : Term) (ht : t.staysIn n.records = true) :
    AlongsideRun n start (fun _ => True) (t.isTrue ⟨n.connection, j, hooks⟩ row)
      (t.isTrue ⟨n.connection, j', hooks⟩ row) := by
  induction t using Term.isTrue.induct with
  | case1 l r hl hr =>
    simp only [Term.staysIn, Bool.and_eq_true] at ht
    simp only [Term.isTrue]
    refine (hl ht.1).bind fun b _ => ?_
    split
    · exact hr ht.2
    · exact .pure trivial
  | case2 l r hl hr =>
    simp only [Term.staysIn, Bool.and_eq_true] at ht
    simp only [Term.isTrue]
    refine (hl ht.1).bind fun b _ => ?_
    split
    · exact .pure trivial
    · exact hr ht.2
  | case3 t hand hor =>
    rw [Term.isTrue.eq_3 _ _ _ hand hor, Term.isTrue.eq_3 _ _ _ hand hor]
    exact (Term.eval_alongside h row t ht).bind fun _ _ => .pure trivial

/-! ## Aggregate calls -/

/-- The same state of an aggregate call on both sides, in groups that are tied. -/
def TotalsTied (records : List Nat) (ties : Ties) : Total → Total → Prop
  | .builtin a, .builtin b => a = b
  | .host record slot, .host record' slot' =>
    record = record' ∧ record ∈ records ∧ ties.Slots record slot slot'
  | _, _ => False

/-- The same aggregate call on both sides, of a nest, in groups that are tied. -/
structure FeedingTied (records : List Nat) (ties : Ties) (f g : Feeding) : Prop where
  call : f.call = g.call
  nested : f.call.staysIn records = true
  seen : f.seen = g.seen
  total : TotalsTied records ties f.total g.total

abbrev FeedingsTied (records : List Nat) (ties : Ties) : List Feeding → List Feeding → Prop :=
  List.Forall₂ (FeedingTied records ties)

theorem FeedingTied.grow {records : List Nat} {ties ties' : Ties} {f g : Feeding}
    (hfg : FeedingTied records ties f g) (hgrow : ties.Grow ties') : FeedingTied records ties' f g := by
  refine ⟨hfg.call, hfg.nested, hfg.seen, ?_⟩
  have htotal := hfg.total
  cases hf : f.total with
  | builtin a =>
    cases hg : g.total with
    | builtin b =>
      rw [hf, hg] at htotal
      exact htotal
    | host record slot =>
      rw [hf, hg] at htotal
      exact htotal
  | host record slot =>
    cases hg : g.total with
    | builtin b =>
      rw [hf, hg] at htotal
      exact htotal
    | host record' slot' =>
      rw [hf, hg] at htotal
      exact ⟨htotal.1, htotal.2.1, htotal.2.2.grow hgrow⟩

/-- An aggregate call is of the engine, with the same state on both sides, or of a function of the
nest, with its groups tied. -/
theorem FeedingTied.cases {records : List Nat} {ties : Ties} {f g : Feeding}
    (hfg : FeedingTied records ties f g) :
    (∃ a, f.total = .builtin a ∧ g.total = .builtin a) ∨
      ∃ record slot slot', f.total = .host record slot ∧ g.total = .host record slot' ∧
        record ∈ records ∧ ties.Slots record slot slot' := by
  have htotal := hfg.total
  cases hf : f.total with
  | builtin a =>
    cases hg : g.total with
    | builtin b =>
      rw [hf, hg] at htotal
      exact .inl ⟨a, rfl, congrArg _ (Eq.symm htotal)⟩
    | host record slot =>
      rw [hf, hg] at htotal
      exact htotal.elim
  | host record slot =>
    cases hg : g.total with
    | builtin b =>
      rw [hf, hg] at htotal
      exact htotal.elim
    | host record' slot' =>
      rw [hf, hg] at htotal
      obtain ⟨rfl, hrecord, hslots⟩ := htotal
      exact .inr ⟨record, slot, slot', rfl, rfl, hrecord, hslots⟩

/-- Before the first row no group has begun. -/
theorem begin_tied {records : List Nat} (ties : Ties) (calls : List AggregateCall)
    (hcalls : calls.all (·.staysIn records) = true) :
    FeedingsTied records ties (calls.map Feeding.begin) (calls.map Feeding.begin) := by
  induction calls with
  | nil => exact .nil
  | cons call calls ih =>
    simp only [List.all_cons, Bool.and_eq_true] at hcalls
    refine .cons ⟨rfl, hcalls.1, rfl, ?_⟩ (ih hcalls.2)
    have hcall := hcalls.1
    unfold AggregateCall.staysIn at hcall
    unfold Feeding.begin
    cases htarget : call.target with
    | builtin f => exact rfl
    | host record =>
      rw [htarget] at hcall
      simp only [Bool.and_eq_true, List.contains_iff_mem] at hcall
      exact ⟨rfl, hcall.1, trivial⟩

section Feeding

variable {ties : Ties} {f g : Feeding} {fs gs : List Feeding}

theorem Feeding.take_parallel (h : HooksAlike n start hooks) (hfg : FeedingTied n.records ties f g)
    (ds : List Datum) :
    Parallel n start ties (fun ties' a b => FeedingTied n.records ties' a.1 b.1 ∧ a.2 = b.2)
      (f.take ⟨n.connection, j, hooks⟩ ds) (g.take ⟨n.connection, j', hooks⟩ ds) := by
  unfold Feeding.take
  rcases hfg.cases with ⟨a, hf, hg⟩ | ⟨record, slot, slot', hf, hg, hrecord, hslots⟩
  · rw [hf, hg]
    exact .pure ⟨⟨hfg.call, hfg.nested, hfg.seen, rfl⟩, rfl⟩
  · rw [hf, hg]
    refine (h.call ties record hrecord slot slot' hslots ds).bind fun ties' _ a b hab => ?_
    have htied : FeedingTied n.records ties' { f with total := .host record a.slot }
        { g with total := .host record b.slot } :=
      ⟨hfg.call, hfg.nested, hfg.seen, rfl, hrecord, hab.1⟩
    dsimp only
    rw [hab.2]
    cases b.result with
    | ok d => exact .pure ⟨htied, rfl⟩
    | error message => exact .pure ⟨htied, rfl⟩

theorem Feeding.feed_parallel (h : HooksAlike n start hooks) (hfg : FeedingTied n.records ties f g)
    (row : Row) :
    Parallel n start ties (fun ties' a b => FeedingTied n.records ties' a.1 b.1 ∧ a.2 = b.2)
      (f.feed ⟨n.connection, j, hooks⟩ row) (g.feed ⟨n.connection, j', hooks⟩ row) := by
  have hnested := hfg.nested
  unfold AggregateCall.staysIn at hnested
  rw [Bool.and_eq_true] at hnested
  unfold Feeding.feed
  rw [← hfg.call, ← hfg.seen]
  have hargs : ParallelRun n start ties (Term.evalAll ⟨n.connection, j, hooks⟩ row f.call.args)
      (Term.evalAll ⟨n.connection, j', hooks⟩ row f.call.args) :=
    (Term.evalAll_alongside h row f.call.args hnested.2).parallel
  refine Parallel.bind hargs ?_
  rintro ties' hgrow r _ rfl
  have hfg' := hfg.grow hgrow
  cases r with
  | error fault => exact .pure ⟨hfg', rfl⟩
  | ok ds =>
    dsimp only
    split
    · exact Feeding.take_parallel h hfg' ds
    · split
      · exact .pure ⟨hfg', rfl⟩
      · have hseen : FeedingTied n.records ties' { f with seen := ds :: f.seen }
            ⟨f.call, g.total, ds :: f.seen⟩ := ⟨rfl, hfg'.nested, rfl, hfg'.total⟩
        exact Feeding.take_parallel h hseen ds

theorem Feeding.feedAll_parallel (h : HooksAlike n start hooks) (row : Row)
    (hfgs : FeedingsTied n.records ties fs gs) :
    Parallel n start ties (fun ties' a b => FeedingsTied n.records ties' a.1 b.1 ∧ a.2 = b.2)
      (Feeding.feedAll ⟨n.connection, j, hooks⟩ row fs)
      (Feeding.feedAll ⟨n.connection, j', hooks⟩ row gs) := by
  induction fs generalizing gs ties with
  | nil =>
    cases hfgs
    exact .pure ⟨.nil, rfl⟩
  | cons f fs ih =>
    obtain _ | ⟨hfg, hrest⟩ := hfgs
    have hgrown {ties' : Ties} (hgrow : ties.Grow ties') := hrest.imp fun _ _ htied => htied.grow hgrow
    unfold Feeding.feedAll
    refine (Feeding.feed_parallel h hfg row).bind fun ties' hgrow a b hab => ?_
    obtain ⟨f', fault⟩ := a
    obtain ⟨g', fault'⟩ := b
    obtain ⟨hfg', rfl⟩ := hab
    dsimp only
    split
    · exact .pure ⟨.cons hfg' (hgrown hgrow), rfl⟩
    · refine (ih (hgrown hgrow)).bind fun ties'' hgrow' a b hab => ?_
      exact .pure ⟨.cons (hfg'.grow hgrow') hab.1, hab.2⟩

theorem Feeding.abandon_parallel (h : HooksAlike n start hooks)
    (hfgs : FeedingsTied n.records ties fs gs) :
    Parallel n start ties (fun _ _ _ => True) (Feeding.abandon ⟨n.connection, j, hooks⟩ fs)
      (Feeding.abandon ⟨n.connection, j', hooks⟩ gs) := by
  induction fs generalizing gs ties with
  | nil =>
    cases hfgs
    exact .pure trivial
  | cons f fs ih =>
    obtain _ | ⟨hfg, hrest⟩ := hfgs
    have hend {ties' : Ties} (hgrow : ties.Grow ties') :=
      @ih ties' _ (hrest.imp fun _ _ htied => htied.grow hgrow)
    have hskip : Parallel n start ties (fun _ _ _ => True) (pure () : StateM SessionWorld PUnit)
        (pure () : StateM SessionWorld PUnit) := .pure trivial
    unfold Feeding.abandon
    rcases hfg.cases with ⟨a, hf, hg⟩ | ⟨record, slot, slot', hf, hg, hrecord, hslots⟩
    · rw [hf, hg]
      exact hskip.bind fun _ hgrow _ _ _ => hend hgrow
    · rw [hf, hg]
      cases slot with
      | none =>
        cases slot' with
        | none => exact hskip.bind fun _ hgrow _ _ _ => hend hgrow
        | some i' => exact hslots.elim
      | some i =>
        cases slot' with
        | none => exact hslots.elim
        | some i' =>
          exact (h.discard ties record hrecord i i' hslots).bind fun _ hgrow _ _ _ => hend hgrow

theorem Feeding.conclude_parallel (h : HooksAlike n start hooks)
    (hfg : FeedingTied n.records ties f g) :
    ParallelRun n start ties (f.conclude ⟨n.connection, j, hooks⟩)
      (g.conclude ⟨n.connection, j', hooks⟩) := by
  unfold Feeding.conclude
  rcases hfg.cases with ⟨a, hf, hg⟩ | ⟨record, slot, slot', hf, hg, hrecord, hslots⟩
  · rw [hf, hg]
    dsimp only
    cases a.finish with
    | ok d => exact .pure d
    | error message => exact .throw _
  · rw [hf, hg]
    refine (h.finish ties record hrecord slot slot' hslots).lift_bind fun ties' _ a b hab => ?_
    rw [hab]
    cases b.result with
    | ok d => exact ParallelRun.pure d
    | error message => exact ParallelRun.throw _

theorem Feeding.concludeAll_parallel (h : HooksAlike n start hooks)
    (hfgs : FeedingsTied n.records ties fs gs) :
    ParallelRun n start ties (Feeding.concludeAll ⟨n.connection, j, hooks⟩ fs)
      (Feeding.concludeAll ⟨n.connection, j', hooks⟩ gs) := by
  induction fs generalizing gs ties with
  | nil =>
    cases hfgs
    exact .pure []
  | cons f fs ih =>
    obtain _ | ⟨hfg, hrest⟩ := hfgs
    have hgrown {ties' : Ties} (hgrow : ties.Grow ties') := hrest.imp fun _ _ htied => htied.grow hgrow
    unfold Feeding.concludeAll
    refine (Feeding.conclude_parallel h hfg).lift_bind fun ties' hgrow r r' hr => ?_
    cases hr
    cases r with
    | error fault =>
      exact (Feeding.abandon_parallel h (hgrown hgrow)).lift_bind fun _ _ _ _ _ => .pure rfl
    | ok d =>
      exact ParallelRun.bind (ih (hgrown hgrow)) fun _ _ row => .pure _

/-- The rows of one group are fed and concluded alike. -/
theorem runGroup_parallel (h : HooksAlike n start hooks) (hfgs : FeedingsTied n.records ties fs gs)
    (rows : List Row) :
    ParallelRun n start ties (runGroup ⟨n.connection, j, hooks⟩ fs rows)
      (runGroup ⟨n.connection, j', hooks⟩ gs rows) := by
  induction rows generalizing fs gs ties with
  | nil => exact Feeding.concludeAll_parallel h hfgs
  | cons row rows ih =>
    unfold runGroup
    refine (Feeding.feedAll_parallel h row hfgs).lift_bind fun ties' hgrow a b hab => ?_
    obtain ⟨fs', fault⟩ := a
    obtain ⟨gs', fault'⟩ := b
    obtain ⟨hfgs', rfl⟩ := hab
    have hcheck : ParallelRun n start ties' (checkInterrupt ⟨n.connection, j, hooks⟩)
        (checkInterrupt ⟨n.connection, j', hooks⟩) := checkInterrupt_alongside.parallel
    refine Parallel.lift_bind hcheck ?_
    rintro ties'' hgrow' r _ rfl
    have hgrown := hfgs'.imp fun _ _ htied => FeedingTied.grow htied hgrow'
    dsimp only
    split
    · exact (Feeding.abandon_parallel h hgrown).lift_bind fun _ _ _ _ _ => ParallelRun.throw _
    · exact ih hgrown

end Feeding

/-! ## Plans -/

/-- What is left of a plan stays in a nest. -/
def LeavesIn (nest : List Nat) (found : Option (Row × Cursor)) : Prop :=
  ∀ row c, found = some (row, c) → c.staysIn nest = true

theorem LeavesIn.none (nest : List Nat) : LeavesIn nest none := nofun

theorem LeavesIn.some {nest : List Nat} {row : Row} {c : Cursor} (hc : c.staysIn nest = true) :
    LeavesIn nest (some (row, c)) := by
  rintro _ _ heq
  cases heq
  exact hc

theorem rowCount_alongside (h : HooksAlike n start hooks) (t : Term)
    (ht : t.staysIn n.records = true) :
    AlongsideRun n start (fun _ => True) (rowCount ⟨n.connection, j, hooks⟩ t)
      (rowCount ⟨n.connection, j', hooks⟩ t) := by
  unfold rowCount
  refine (Term.eval_alongside h [] t ht).bind fun d _ => ?_
  cases Affinity.apply .integer d with
  | integer n => exact .pure trivial
  | null => exact .throw _
  | real x => exact .throw _
  | text bytes => exact .throw _
  | blob bytes => exact .throw _

theorem Cursor.deliver_alongside (all : Bool) {step : Plan} (hstep : step.staysIn n.records = true)
    (queue seen : List Row) :
    AlongsideRun n start (LeavesIn n.records) (Cursor.deliver all step queue seen)
      (Cursor.deliver all step queue seen) := by
  induction queue with
  | nil => exact .pure (.none _)
  | cons r rest ih =>
    unfold Cursor.deliver
    split
    · exact ih
    · exact .pure (.some hstep)

mutual

theorem Cursor.next_alongside (h : HooksAlike n start hooks) : ∀ (fuel : Nat) (c : Cursor),
    c.staysIn n.records = true →
    AlongsideRun n start (LeavesIn n.records) (c.next ⟨n.connection, j, hooks⟩ fuel)
      (c.next ⟨n.connection, j', hooks⟩ fuel)
  | 0, _, _ => by
    simp only [Cursor.next]
    exact .throw _
  | _ + 1, .done, _ => by
    simp only [Cursor.next]
    exact .pure (.none _)
  | _ + 1, .rows [], _ => by
    simp only [Cursor.next]
    exact .pure (.none _)
  | _ + 1, .rows (r :: rest), _ => by
    simp only [Cursor.next]
    exact .pure (.some rfl)
  | _ + 1, .values [], _ => by
    simp only [Cursor.next]
    exact .pure (.none _)
  | _ + 1, .values (ts :: rest), hc => by
    simp only [Cursor.staysIn, List.all_cons, Bool.and_eq_true] at hc
    simp only [Cursor.next]
    exact (Term.evalAll_alongside h [] ts hc.1).bind fun _ _ => .pure (.some hc.2)
  | _ + 1, .scan root width after, hc => nomatch hc
  | fuel + 1, .loop source, hc => by
    simp only [Cursor.staysIn] at hc
    simp only [Cursor.next]
    exact checkInterrupt_alongside.bind fun _ _ => Cursor.nextOfLoop_alongside h fuel source hc
  | fuel + 1, .join row left right again, hc => by
    simp only [Cursor.staysIn, Bool.and_eq_true] at hc
    simp only [Cursor.next]
    refine (Cursor.next_alongside h fuel right hc.1.2).bind fun found hfound => ?_
    cases found with
    | none => exact Cursor.nextOfJoin_alongside h fuel left again hc.1.1 hc.2
    | some found =>
      refine .pure (.some ?_)
      simp only [Cursor.staysIn, Bool.and_eq_true]
      exact ⟨⟨hc.1.1, hfound found.1 found.2 rfl⟩, hc.2⟩
  | fuel + 1, .filter condition source, hc => by
    simp only [Cursor.staysIn, Bool.and_eq_true] at hc
    simp only [Cursor.next]
    refine (Cursor.next_alongside h fuel source hc.2).bind fun found hfound => ?_
    cases found with
    | none => exact .pure (.none _)
    | some found =>
      have hleft : (Cursor.filter condition found.2).staysIn n.records = true := by
        simp only [Cursor.staysIn, Bool.and_eq_true]
        exact ⟨hc.1, hfound found.1 found.2 rfl⟩
      refine (Term.isTrue_alongside h found.1 condition hc.1).bind fun holds _ => ?_
      split
      · exact .pure (.some hleft)
      · exact Cursor.next_alongside h fuel _ hleft
  | fuel + 1, .project terms source, hc => by
    simp only [Cursor.staysIn, Bool.and_eq_true] at hc
    simp only [Cursor.next]
    refine (Cursor.next_alongside h fuel source hc.2).bind fun found hfound => ?_
    cases found with
    | none => exact .pure (.none _)
    | some found =>
      refine (Term.evalAll_alongside h found.1 terms hc.1).bind fun r _ => .pure (.some ?_)
      simp only [Cursor.staysIn, Bool.and_eq_true]
      exact ⟨hc.1, hfound found.1 found.2 rfl⟩
  | _ + 1, .groups collations calls rest, hc => by
    simp only [Cursor.staysIn] at hc
    simp only [Cursor.next]
    cases rest with
    | nil => exact .pure (.none _)
    | cons first rest =>
      exact (ParallelRun.alongside fun ties => runGroup_parallel h (begin_tied ties calls hc) _).bind
        fun totals _ => .pure (.some hc)
  | fuel + 1, .distinct seen source, hc => by
    simp only [Cursor.staysIn] at hc
    simp only [Cursor.next]
    refine (Cursor.next_alongside h fuel source hc).bind fun found hfound => ?_
    cases found with
    | none => exact .pure (.none _)
    | some found =>
      have hleft (seen : List Row) : (Cursor.distinct seen found.2).staysIn n.records = true :=
        hfound found.1 found.2 rfl
      dsimp only
      split
      · exact Cursor.next_alongside h fuel _ (hleft _)
      · exact .pure (.some (hleft _))
  | fuel + 1, .limit left source, hc => by
    simp only [Cursor.staysIn] at hc
    simp only [Cursor.next]
    split
    · exact .pure (.none _)
    refine (Cursor.next_alongside h fuel source hc).bind fun found hfound => ?_
    cases found with
    | none => exact .pure (.none _)
    | some found => exact .pure (.some (hfound found.1 found.2 rfl))
  | fuel + 1, .append first second, hc => by
    simp only [Cursor.staysIn, Bool.and_eq_true] at hc
    simp only [Cursor.next]
    refine (Cursor.next_alongside h fuel first hc.1).bind fun found hfound => ?_
    cases found with
    | none => exact Cursor.next_alongside h fuel _ hc.2
    | some found =>
      refine .pure (.some ?_)
      simp only [Cursor.staysIn, Bool.and_eq_true]
      exact ⟨hfound found.1 found.2 rfl, hc.2⟩
  | fuel + 1, .recursive all step queue seen current, hc => by
    have hworking : (Cursor.idle (step.withWorking current)).staysIn n.records = true :=
      (Plan.staysIn_withWorking n.records current step).trans hc
    simp only [Cursor.next]
    exact checkInterrupt_alongside.bind fun _ _ =>
      (Cursor.drain_alongside h fuel _ hworking).bind fun found _ =>
        Cursor.deliver_alongside all hc _ seen
  | fuel + 1, .idle plan, hc => by
    simp only [Cursor.next]
    exact Cursor.start_alongside h fuel plan hc

theorem Cursor.start_alongside (h : HooksAlike n start hooks) : ∀ (fuel : Nat) (plan : Plan),
    plan.staysIn n.records = true →
    AlongsideRun n start (LeavesIn n.records) (Cursor.start ⟨n.connection, j, hooks⟩ fuel plan)
      (Cursor.start ⟨n.connection, j', hooks⟩ fuel plan)
  | 0, _, _ => by
    simp only [Cursor.start]
    exact .throw _
  | fuel + 1, .rows rs, _ => by
    simp only [Cursor.start]
    exact Cursor.next_alongside h fuel _ rfl
  | _ + 1, .working, _ => by
    simp only [Cursor.start]
    exact .pure (.none _)
  | fuel + 1, .values rs, hp => by
    simp only [Cursor.start]
    exact Cursor.next_alongside h fuel _ hp
  | _ + 1, .scan root width, hp => nomatch hp
  | fuel + 1, .loop source, hp => by
    simp only [Cursor.start]
    exact Cursor.nextOfLoop_alongside h fuel _ hp
  | fuel + 1, .join left right, hp => by
    simp only [Plan.staysIn, Bool.and_eq_true] at hp
    simp only [Cursor.start]
    exact Cursor.nextOfJoin_alongside h fuel _ right hp.1 hp.2
  | fuel + 1, .filter condition source, hp => by
    simp only [Cursor.start]
    exact Cursor.next_alongside h fuel _ hp
  | fuel + 1, .project terms source, hp => by
    simp only [Cursor.start]
    exact Cursor.next_alongside h fuel _ hp
  | fuel + 1, .total calls width source, hp => by
    simp only [Plan.staysIn, Bool.and_eq_true] at hp
    simp only [Cursor.start]
    exact (ParallelRun.alongside fun ties =>
      Cursor.feedTotal_parallel h fuel none (.idle source) hp.2 (begin_tied ties calls hp.1)).bind
        fun found _ => .pure (.some rfl)
  | fuel + 1, .group keys calls source, hp => by
    simp only [Plan.staysIn, Bool.and_eq_true] at hp
    simp only [Cursor.start]
    exact (Cursor.drainKeyed_alongside h fuel _ (.idle source) hp.1.1 hp.2).bind fun rows _ =>
      Cursor.next_alongside h fuel _ hp.1.2
  | fuel + 1, .sort keys source, hp => by
    simp only [Cursor.start]
    exact (Cursor.drain_alongside h fuel (.idle source) hp).bind fun rows _ =>
      Cursor.nextOfLoop_alongside h fuel _ rfl
  | fuel + 1, .distinct source, hp => by
    simp only [Cursor.start]
    exact Cursor.next_alongside h fuel _ hp
  | fuel + 1, .limit count offset source, hp => by
    simp only [Plan.staysIn, Bool.and_eq_true] at hp
    simp only [Cursor.start]
    refine (rowCount_alongside h count hp.1.1).bind fun m _ => ?_
    -- what follows whether or not there is an offset
    have hrest : ∀ k : Int, True → AlongsideRun n start (LeavesIn n.records)
        (do
          if m = 0 then return none
          let source ← Cursor.skip ⟨n.connection, j, hooks⟩ fuel k.toNat (.idle source)
          if m < 0 then Cursor.next ⟨n.connection, j, hooks⟩ fuel source
          else Cursor.next ⟨n.connection, j, hooks⟩ fuel (.limit m.toNat source))
        (do
          if m = 0 then return none
          let source ← Cursor.skip ⟨n.connection, j', hooks⟩ fuel k.toNat (.idle source)
          if m < 0 then Cursor.next ⟨n.connection, j', hooks⟩ fuel source
          else Cursor.next ⟨n.connection, j', hooks⟩ fuel (.limit m.toNat source)) := by
      intro k _
      split
      · exact .pure (.none _)
      refine (Cursor.skip_alongside h fuel _ (.idle source) hp.2).bind fun source hsource => ?_
      split
      · exact Cursor.next_alongside h fuel _ hsource
      · exact Cursor.next_alongside h fuel _ hsource
    cases offset with
    | some t => exact (rowCount_alongside h t hp.1.2).bind hrest
    | none => exact (AlongsideRun.pure (a := (0 : Int)) trivial).bind hrest
  | fuel + 1, .append first second, hp => by
    simp only [Cursor.start]
    exact Cursor.next_alongside h fuel _ hp
  | fuel + 1, .combine op left right, hp => by
    simp only [Plan.staysIn, Bool.and_eq_true] at hp
    simp only [Cursor.start]
    exact (Cursor.drain_alongside h fuel (.idle left) hp.1).bind fun l _ =>
      (Cursor.drain_alongside h fuel (.idle right) hp.2).bind fun r _ => Cursor.nextOfLoop_alongside h fuel _ rfl
  | fuel + 1, .recursive all base step, hp => by
    simp only [Plan.staysIn, Bool.and_eq_true] at hp
    simp only [Cursor.start]
    exact (Cursor.drain_alongside h fuel (.idle base) hp.1).bind fun found _ =>
      Cursor.deliver_alongside all hp.2 found []

theorem Cursor.nextOfLoop_alongside (h : HooksAlike n start hooks) : ∀ (fuel : Nat) (source : Cursor),
    source.staysIn n.records = true →
    AlongsideRun n start (LeavesIn n.records) (Cursor.nextOfLoop ⟨n.connection, j, hooks⟩ fuel source)
      (Cursor.nextOfLoop ⟨n.connection, j', hooks⟩ fuel source)
  | 0, _, _ => by
    simp only [Cursor.nextOfLoop]
    exact .throw _
  | fuel + 1, source, hc => by
    simp only [Cursor.nextOfLoop]
    refine (Cursor.next_alongside h fuel source hc).bind fun found hfound => ?_
    cases found with
    | none => exact .pure (.none _)
    | some found => exact .pure (.some (hfound found.1 found.2 rfl))

theorem Cursor.nextOfJoin_alongside (h : HooksAlike n start hooks) : ∀ (fuel : Nat) (left : Cursor)
    (again : Plan), left.staysIn n.records = true → again.staysIn n.records = true →
    AlongsideRun n start (LeavesIn n.records)
      (Cursor.nextOfJoin ⟨n.connection, j, hooks⟩ fuel left again)
      (Cursor.nextOfJoin ⟨n.connection, j', hooks⟩ fuel left again)
  | 0, _, _, _, _ => by
    simp only [Cursor.nextOfJoin]
    exact .throw _
  | fuel + 1, left, again, hleft, hagain => by
    simp only [Cursor.nextOfJoin]
    refine (Cursor.next_alongside h fuel left hleft).bind fun found hfound => ?_
    cases found with
    | none => exact .pure (.none _)
    | some found =>
      refine Cursor.next_alongside h fuel _ ?_
      simp only [Cursor.staysIn, Bool.and_eq_true]
      exact ⟨⟨hfound found.1 found.2 rfl, hagain⟩, hagain⟩

theorem Cursor.drain_alongside (h : HooksAlike n start hooks) : ∀ (fuel : Nat) (c : Cursor),
    c.staysIn n.records = true →
    AlongsideRun n start (fun _ => True) (Cursor.drain ⟨n.connection, j, hooks⟩ fuel c)
      (Cursor.drain ⟨n.connection, j', hooks⟩ fuel c)
  | 0, _, _ => by
    simp only [Cursor.drain]
    exact .throw _
  | fuel + 1, c, hc => by
    simp only [Cursor.drain]
    refine (Cursor.next_alongside h fuel c hc).bind fun found hfound => ?_
    cases found with
    | none => exact .pure trivial
    | some found =>
      exact (Cursor.drain_alongside h fuel _ (hfound found.1 found.2 rfl)).bind fun rest _ => .pure trivial

theorem Cursor.drainKeyed_alongside (h : HooksAlike n start hooks) : ∀ (fuel : Nat)
    (keys : List Term) (c : Cursor), Term.allStayIn n.records keys = true →
    c.staysIn n.records = true →
    AlongsideRun n start (fun _ => True) (Cursor.drainKeyed ⟨n.connection, j, hooks⟩ fuel keys c)
      (Cursor.drainKeyed ⟨n.connection, j', hooks⟩ fuel keys c)
  | 0, _, _, _, _ => by
    simp only [Cursor.drainKeyed]
    exact .throw _
  | fuel + 1, keys, c, hkeys, hc => by
    simp only [Cursor.drainKeyed]
    refine (Cursor.next_alongside h fuel c hc).bind fun found hfound => ?_
    cases found with
    | none => exact .pure trivial
    | some found =>
      exact (Term.evalAll_alongside h found.1 keys hkeys).bind fun key _ =>
        (Cursor.drainKeyed_alongside h fuel keys _ hkeys (hfound found.1 found.2 rfl)).bind fun rest _ =>
          .pure trivial

theorem Cursor.skip_alongside (h : HooksAlike n start hooks) : ∀ (fuel left : Nat) (c : Cursor),
    c.staysIn n.records = true →
    AlongsideRun n start (fun c => c.staysIn n.records = true)
      (Cursor.skip ⟨n.connection, j, hooks⟩ fuel left c)
      (Cursor.skip ⟨n.connection, j', hooks⟩ fuel left c)
  | 0, _, _, _ => by
    simp only [Cursor.skip]
    exact .throw _
  | _ + 1, 0, c, hc => by
    simp only [Cursor.skip]
    exact .pure hc
  | fuel + 1, left + 1, c, hc => by
    simp only [Cursor.skip]
    refine (Cursor.next_alongside h fuel c hc).bind fun found hfound => ?_
    cases found with
    | none => exact .pure rfl
    | some found => exact Cursor.skip_alongside h fuel left _ (hfound found.1 found.2 rfl)

theorem Cursor.feedTotal_parallel (h : HooksAlike n start hooks) : ∀ (fuel : Nat)
    (first : Option Row) (c : Cursor), c.staysIn n.records = true →
    ∀ {ties : Ties} {fs gs : List Feeding}, FeedingsTied n.records ties fs gs →
    ParallelRun n start ties (Cursor.feedTotal ⟨n.connection, j, hooks⟩ fuel fs first c)
      (Cursor.feedTotal ⟨n.connection, j', hooks⟩ fuel gs first c)
  | 0, _, _, _, _, _, _, _ => by
    simp only [Cursor.feedTotal]
    exact .throw _
  | fuel + 1, first, c, hc, ties, fs, gs, hfgs => by
    simp only [Cursor.feedTotal]
    refine Parallel.lift_bind (Alongside.parallel (Cursor.next_alongside h fuel c hc)) ?_
    rintro ties' hgrow found _ ⟨rfl, hfound⟩
    have hgrown := hfgs.imp fun _ _ htied => FeedingTied.grow htied hgrow
    rcases found with fault | _ | ⟨row, c'⟩
    · exact (Feeding.abandon_parallel h hgrown).lift_bind fun _ _ _ _ _ => ParallelRun.throw _
    · exact (Feeding.concludeAll_parallel h hgrown).bind fun _ _ totals => .pure _
    · have hleft : c'.staysIn n.records = true := hfound _ rfl _ _ rfl
      refine (Feeding.feedAll_parallel h row hgrown).lift_bind fun ties'' hgrow' a b hab => ?_
      obtain ⟨fs', fault⟩ := a
      obtain ⟨gs', fault'⟩ := b
      obtain ⟨hfgs', rfl⟩ := hab
      cases fault with
      | some fault =>
        exact (Feeding.abandon_parallel h hfgs').lift_bind fun _ _ _ _ _ => ParallelRun.throw _
      | none => exact Cursor.feedTotal_parallel h fuel _ c' hleft hfgs'

end

end Engine

end HostSql
