import HostSql.Proofs.Coupling

/-!
# Invariants of the engine's calls

A computation keeps an invariant if it ends in a state that has it whenever it begins in one. That
is the same as to be coupled with itself by equality on states with the invariant, so what is known
of coupled closures holds here as well. All that a closure can do, it does through its ambient:

> `callFunction_keeps`, `finishGroup_keeps`: the engine's calls keep what their ambient keeps.
-/

namespace HostSql

open Engine (Datum)

variable {σ α β : Type} {I : σ → Prop}

/-- Ends in a state with the invariant when it begins in one. -/
def Keeps (I : σ → Prop) (x : StateM σ α) : Prop := ∀ s, I s → I (x.run s).2

namespace Keeps

theorem pure (a : α) : Keeps I (Pure.pure a : StateM σ α) := fun _ h => h

theorem bind {x : StateM σ α} {f : α → StateM σ β} (hx : Keeps I x) (hf : ∀ a, Keeps I (f a)) :
    Keeps I (x >>= f) :=
  fun s h => hf (x.run s).1 (x.run s).2 (hx s h)

/-- What reads the state goes on from a state with the invariant. -/
theorem get_bind {f : σ → StateM σ β} (h : ∀ s, I s → I ((f s).run s).2) :
    Keeps I (get >>= f) :=
  fun s hs => h s hs

theorem map {x : StateM σ α} (f : α → β) (hx : Keeps I x) : Keeps I (f <$> x) :=
  fun s h => hx s h

/-- A change of the state keeps what it leaves true. -/
theorem modify {f : σ → σ} (h : ∀ s, I s → I (f s)) : Keeps I (modify f) := h

theorem ite {c : Prop} [Decidable c] {x y : StateM σ α} (hx : Keeps I x) (hy : Keeps I y) :
    Keeps I (if c then x else y) := by
  split
  · exact hx
  · exact hy

/-- Going through a list. -/
theorem mapM {f : α → StateM σ β} (h : ∀ a, Keeps I (f a)) (l : List α) : Keeps I (l.mapM f) := by
  induction l with
  | nil => exact pure []
  | cons a l ih =>
    rw [List.mapM_cons]
    exact (h a).bind fun b => ih.bind fun bs => pure (b :: bs)

theorem forM {f : α → StateM σ PUnit} (h : ∀ a, Keeps I (f a)) (l : List α) :
    Keeps I (l.forM f) := by
  induction l with
  | nil => exact pure ()
  | cons a l ih => exact (h a).bind fun _ => ih

/-- What keeps an invariant is coupled with itself on the states that have it. -/
theorem coupled {x : StateM σ α} (h : Keeps I x) : Coupled (fun s t => s = t ∧ I s) x x := by
  rintro s _ ⟨rfl, hs⟩
  exact ⟨rfl, rfl, h s hs⟩

theorem of_coupled {x : StateM σ α} (h : Coupled (fun s t => s = t ∧ I s) x x) : Keeps I x :=
  fun s hs => (h s s ⟨rfl, hs⟩).2.2

end Keeps

/-- Keeps an invariant and, where that held, gives an answer with a property. -/
def KeepsGiving (I : σ → Prop) (P : α → Prop) (x : StateM σ α) : Prop :=
  ∀ s, I s → P (x.run s).1 ∧ I (x.run s).2

namespace KeepsGiving

variable {P : α → Prop} {Q : β → Prop}

theorem keeps {x : StateM σ α} (h : KeepsGiving I P x) : Keeps I x := fun s hs => (h s hs).2

theorem pure {a : α} (h : P a) : KeepsGiving I P (Pure.pure a : StateM σ α) := fun _ hs => ⟨h, hs⟩

theorem bind {x : StateM σ α} {f : α → StateM σ β} (hx : KeepsGiving I P x)
    (hf : ∀ a, P a → KeepsGiving I Q (f a)) : KeepsGiving I Q (x >>= f) := by
  intro s hs
  obtain ⟨hanswer, hnext⟩ := hx s hs
  exact hf _ hanswer _ hnext

end KeepsGiving

/-- What follows may use what is known of an answer. -/
theorem Keeps.bind_of {P : α → Prop} {x : StateM σ α} {f : α → StateM σ β}
    (hx : KeepsGiving I P x) (hf : ∀ a, P a → Keeps I (f a)) : Keeps I (x >>= f) :=
  fun s hs => hf _ (hx s hs).1 _ (hx s hs).2

/-- What keeps an invariant gives some answer. -/
theorem Keeps.giving {x : StateM σ α} (h : Keeps I x) : KeepsGiving I (fun _ => True) x :=
  fun s hs => ⟨trivial, h s hs⟩

/-- All that closures and the engine's calls use keeps an invariant. -/
structure Ambient.Keeps (I : σ → Prop) (a : Ambient σ) : Prop where
  record? : ∀ record, HostSql.Keeps I (a.record? record)
  setGroups : ∀ record groups, HostSql.Keeps I (a.setGroups record groups)
  log : ∀ r, HostSql.Keeps I (a.log r)
  emit : ∀ e, HostSql.Keeps I (a.emit e)
  interrupt : ∀ handle, HostSql.Keeps I (a.interrupt handle)
  execute : ∀ c sql, HostSql.Keeps I (a.execute c sql)
  query : ∀ c sql, HostSql.Keeps I (a.query c sql)
  declare : ∀ c name type, HostSql.Keeps I (a.declare c name type)
  register : ∀ c name arity callbacks, HostSql.Keeps I (a.register c name arity callbacks)

section Calls

variable {a : Ambient σ} (h : a.Keeps I)

include h

theorem Ambient.Keeps.coupled : a.Coupled (fun s t => s = t ∧ I s) a :=
  ⟨fun r => (h.log r).coupled, fun e => (h.emit e).coupled,
    fun handle => (h.interrupt handle).coupled, fun c sql => (h.execute c sql).coupled,
    fun c sql => (h.query c sql).coupled, fun c name type => (h.declare c name type).coupled,
    fun c name arity callbacks => (h.register c name arity callbacks).coupled⟩

/-- A call of a function keeps what its ambient keeps. -/
theorem callFunction_keeps (record : Nat) (slot : Option Nat) (args : List Datum) :
    Keeps I (callFunction a record slot args) :=
  .of_coupled (callFunction_coupled h.coupled (fun record => (h.record? record).coupled)
    (fun record groups => (h.setGroups record groups).coupled) record slot args)

/-- The end of a group keeps what its ambient keeps. -/
theorem finishGroup_keeps (record : Nat) (slot : Option Nat) :
    Keeps I (finishGroup a record slot) :=
  .of_coupled (finishGroup_coupled h.coupled (fun record => (h.record? record).coupled)
    (fun record groups => (h.setGroups record groups).coupled) record slot)

end Calls

end HostSql
