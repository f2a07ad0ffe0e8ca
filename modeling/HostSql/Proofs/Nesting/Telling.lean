import HostSql.Proofs.Nesting.Closures

/-!
# What a closure is told

The world outside a call shows itself to a closure only in the answers to its requests: the answers
of queries and declarations, and of whatever else it asks of connections. `Ambient.telling` keeps
these answers beside the world, and `scripted` is an ambient in which there is nothing else: each
request is answered by the next entry of a list.

> `Program.run_scripted`: a closure ends, with the same frame, as it does where it is just told the
> same.

So what happens outside a call can change its result and its group only through what the closure is
told. A closure of a nest is told the same in worlds that the nest cannot tell apart
(`Ambient.CoupledIn.telling`).
-/

namespace HostSql

variable {σ τ : Type}

/-- An answer from outside a call. -/
inductive Told where
  | executed (answer : Except Error Unit)
  | queried (answer : QueryAnswer)
  | declared (answer : Except Error Unit)
  | registered (answer : Except Error Unit)
  deriving Repr, DecidableEq

namespace Told

def executed? : Told → Option (Except Error Unit)
  | executed answer => some answer
  | _ => none

def queried? : Told → Option QueryAnswer
  | queried answer => some answer
  | _ => none

def declared? : Told → Option (Except Error Unit)
  | declared answer => some answer
  | _ => none

def registered? : Told → Option (Except Error Unit)
  | registered answer => some answer
  | _ => none

end Told

/-! ## Keeping the answers -/

/-- A computation on the world around, whose answer is kept, the newest last. -/
def Beside.told {α : Type} (x : StateM σ α) (kept : α → Told) : StateM (Beside σ (List Told)) α := do
  let answer ← outside x
  modifyOwn (· ++ [kept answer])
  return answer

open Beside in
/-- An ambient that keeps what closures are told. -/
def Ambient.telling (a : Ambient σ) : Ambient (Beside σ (List Told)) where
  record? record := outside (a.record? record)
  setGroups record groups := outside (a.setGroups record groups)
  log r := outside (a.log r)
  emit event := outside (a.emit event)
  interrupt handle := outside (a.interrupt handle)
  execute connection sql := told (a.execute connection sql) .executed
  query connection sql := told (a.query connection sql) .queried
  declare connection name type := told (a.declare connection name type) .declared
  register connection name arity callbacks :=
    told (a.register connection name arity callbacks) .registered

/-- What a closure is told from a world on. -/
def Program.told (a : Ambient σ) (call : Call) (p : Program) (f : Frame) (w : σ) : List Told :=
  ((p.run a.telling call f).run ⟨w, []⟩).2.own

/-! ## Telling from a list -/

/-- The next answer of a list. -/
def recite {α : Type} (read? : Told → Option α) (missing : α) : StateM (List Told) α := do
  match ← get with
  | answer :: rest =>
    set rest
    return (read? answer).getD missing
  | [] => return missing

/-- An ambient in which closures are told what a list says. -/
def scripted : Ambient (List Told) where
  record? _ := return none
  setGroups _ _ := return
  log _ := return
  emit _ := return
  interrupt _ := return
  execute _ _ := recite Told.executed? (.error (.closedHandle .database))
  query _ _ := recite Told.queried? (.rejected (.closedHandle .database))
  declare _ _ _ := recite Told.declared? (.error (.closedHandle .database))
  register _ _ _ _ := recite Told.registered? (.error (.closedHandle .database))

/-- A computation beside which the answers are kept, the computation itself, and one that is told these
answers: all three end alike. -/
def Transcribed {α : Type} (x : StateM (Beside σ (List Told)) α) (y : StateM σ α)
    (z : StateM (List Told) α) : Prop :=
  ∀ w before, ∃ told, x.run ⟨w, before⟩ = ((y.run w).1, ⟨(y.run w).2, before ++ told⟩) ∧
    ∀ rest, z.run (told ++ rest) = ((y.run w).1, rest)

namespace Transcribed

variable {α β : Type}

theorem pure (a : α) : Transcribed (σ := σ) (Pure.pure a) (Pure.pure a) (Pure.pure a) :=
  fun w before => ⟨[], congrArg (fun told => (a, Beside.mk w told)) (List.append_nil before).symm,
    fun _ => rfl⟩

theorem bind {x : StateM (Beside σ (List Told)) α} {y : StateM σ α} {z : StateM (List Told) α}
    {f : α → StateM (Beside σ (List Told)) β} {g : α → StateM σ β} {h : α → StateM (List Told) β}
    (hx : Transcribed x y z) (hf : ∀ a, Transcribed (f a) (g a) (h a)) :
    Transcribed (x >>= f) (y >>= g) (z >>= h) := by
  intro w before
  obtain ⟨told, hkept, hscripted⟩ := hx w before
  obtain ⟨told', hkept', hscripted'⟩ := hf (y.run w).1 (y.run w).2 (before ++ told)
  refine ⟨told ++ told', ?_, fun rest => ?_⟩
  · rw [run_bind, run_bind, hkept, hkept', List.append_assoc]
  · rw [run_bind, run_bind, List.append_assoc, hscripted, hscripted']

/-- What has no answer is not kept. -/
theorem outside (y : StateM σ Unit) : Transcribed (Beside.outside y) y (Pure.pure ()) :=
  fun w before => ⟨[], congrArg (fun told => ((), Beside.mk (y.run w).2 told))
    (List.append_nil before).symm, fun _ => rfl⟩

/-- An answer is kept, and can be told from what is kept. -/
theorem told (y : StateM σ α) {kept : α → Told} {read? : Told → Option α} (missing : α)
    (hread : ∀ a, read? (kept a) = some a) :
    Transcribed (Beside.told y kept) y (recite read? missing) := by
  intro w before
  refine ⟨[kept (y.run w).1], rfl, fun rest => ?_⟩
  show ((read? (kept (y.run w).1)).getD missing, rest) = _
  rw [hread]
  rfl

end Transcribed

section Script

variable (a : Ambient σ) (call : Call)

/-- A closure takes the course that its own requests and what it is told make. -/
theorem Program.transcribed : ∀ (p : Program) (f : Frame),
    Transcribed (p.run a.telling call f) (p.run a call f) (p.run scripted call f)
  | .finish outcome, f => .pure (outcome, f)
  | .setResult v next, f => by
    simp only [Program.run]
    exact transcribed (next _) _
  | .setError message next, f => by
    simp only [Program.run]
    exact transcribed next _
  | .readState next, f => by
    simp only [Program.run]
    exact transcribed (next _) f
  | .insert key v next, f => by
    simp only [Program.run]
    exact transcribed (next _) _
  | .readCount next, f => by
    simp only [Program.run]
    exact transcribed (next _) f
  | .readType next, f => by
    simp only [Program.run]
    exact transcribed (next _) f
  | .emit event next, f => by
    simp only [Program.run]
    exact (Transcribed.outside (a.emit event)).bind fun _ => transcribed next f
  | .interrupt handle next, f => by
    simp only [Program.run]
    exact (Transcribed.outside (a.interrupt handle)).bind fun _ => transcribed next f
  | .execute c sql next, f => by
    simp only [Program.run]
    exact (Transcribed.told (a.execute c sql) _ fun _ => rfl).bind fun answer => transcribed (next answer) f
  | .query c sql next, f => by
    simp only [Program.run]
    exact (Transcribed.told (a.query c sql) _ fun _ => rfl).bind fun answer => transcribed (next answer) f
  | .declare c name type next, f => by
    simp only [Program.run]
    exact (Transcribed.told (a.declare c name type) _ fun _ => rfl).bind fun answer =>
      transcribed (next answer) f
  | .register c name arity callbacks next, f => by
    simp only [Program.run]
    exact (Transcribed.told (a.register c name arity callbacks) _ fun _ => rfl).bind fun answer =>
      transcribed (next answer) f

/-- To keep the answers changes nothing. -/
theorem Program.run_telling (p : Program) (f : Frame) (w : σ) :
    (p.run a.telling call f).run ⟨w, []⟩ =
      (((p.run a call f).run w).1, ⟨((p.run a call f).run w).2, p.told a call f w⟩) := by
  obtain ⟨told, hkept, _⟩ := p.transcribed a call f w []
  unfold Program.told
  rw [hkept]

/-- A closure ends as it does where it is just told the same. -/
theorem Program.run_scripted (p : Program) (f : Frame) (w : σ) :
    (p.run scripted call f).run (p.told a call f w) = (((p.run a call f).run w).1, []) := by
  obtain ⟨told, hkept, hscripted⟩ := p.transcribed a call f w []
  have htold : p.told a call f w = told := by
    unfold Program.told
    rw [hkept]
    rfl
  rw [htold]
  exact (congrArg _ (List.append_nil told).symm).trans (hscripted [])

end Script

/-! ## Closures of a nest -/

/-- Worlds that are related, in which closures have been told the same. -/
def ToldAlike (R : σ → τ → Prop) (s : Beside σ (List Told)) (t : Beside τ (List Told)) : Prop :=
  R s.env t.env ∧ s.own = t.own

namespace ToldAlike

variable {R : σ → τ → Prop} {α : Type} {x : StateM σ α} {y : StateM τ α}

theorem outside (h : Coupled R x y) :
    Coupled (ToldAlike R) (Beside.outside x) (Beside.outside y) := by
  rintro s t ⟨henv, hown⟩
  obtain ⟨hanswer, hnext⟩ := h s.env t.env henv
  exact ⟨hanswer, hnext, hown⟩

theorem told (h : Coupled R x y) (kept : α → Told) :
    Coupled (ToldAlike R) (Beside.told x kept) (Beside.told y kept) := by
  rintro s t ⟨henv, hown⟩
  obtain ⟨hanswer, hnext⟩ := h s.env t.env henv
  refine ⟨hanswer, hnext, ?_⟩
  show s.own ++ [kept (x.run s.env).1] = t.own ++ [kept (y.run t.env).1]
  rw [hown, hanswer]

end ToldAlike

/-- Where requests of a nest are answered alike, its closures are told the same. -/
theorem Ambient.CoupledIn.telling {n : Nest} {R : σ → τ → Prop} {a : Ambient σ} {b : Ambient τ}
    (h : a.CoupledIn n R b) : a.telling.CoupledIn n (ToldAlike R) b.telling :=
  ⟨fun r => ToldAlike.outside (h.log r), fun e => ToldAlike.outside (h.emit e),
    fun sql hsql => ToldAlike.told (h.query sql hsql) _,
    fun function type => ToldAlike.told (h.declare function type) _⟩

end HostSql
