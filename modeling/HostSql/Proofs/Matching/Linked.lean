import HostSql.Engine.World
import HostSql.Proofs.Coupling
import HostSql.Proofs.Matching.Aligned

/-!
# Linked computations

Coupled computations give the same answer. When the same thing goes by different numbers in two
worlds, answers are only related: `Linked` computations give related answers from related states and
end in related states. `LinkedRun` says the same of computations of the engine that may fail; these
fail in the same way.

Both go through sequencing, so a function of the engine is followed through two worlds step by step.
-/

namespace HostSql

section Linking

variable {σ τ α α' β β' : Type}

/-- From related states both computations give related answers and end in related states. -/
def Linked (R : σ → τ → Prop) (A : α → α' → Prop) (x : StateM σ α) (y : StateM τ α') : Prop :=
  ∀ s t, R s t → A (x.run s).1 (y.run t).1 ∧ R (x.run s).2 (y.run t).2

namespace Linked

variable {R : σ → τ → Prop} {A : α → α' → Prop} {B : β → β' → Prop}

theorem pure {a : α} {a' : α'} (h : A a a') :
    Linked R A (Pure.pure a : StateM σ α) (Pure.pure a' : StateM τ α') :=
  fun _ _ hR => ⟨h, hR⟩

/-- Where answers are the same, being linked is being coupled. -/
theorem same (a : α) : Linked R Eq (Pure.pure a : StateM σ α) (Pure.pure a : StateM τ α) :=
  pure rfl

theorem bind {x : StateM σ α} {y : StateM τ α'} {f : α → StateM σ β} {g : α' → StateM τ β'}
    (hx : Linked R A x y) (hf : ∀ a a', A a a' → Linked R B (f a) (g a')) :
    Linked R B (x >>= f) (y >>= g) := by
  intro s t hR
  obtain ⟨hanswer, hnext⟩ := hx s t hR
  exact hf _ _ hanswer _ _ hnext

/-- After a computation with the same answer in both worlds. -/
theorem bind_same {x : StateM σ α} {y : StateM τ α} {f : α → StateM σ β} {g : α → StateM τ β'}
    (hx : Linked R Eq x y) (hf : ∀ a, Linked R B (f a) (g a)) :
    Linked R B (x >>= f) (y >>= g) := by
  refine hx.bind fun a a' h => ?_
  subst h
  exact hf a

theorem get_bind {f : σ → StateM σ β} {g : τ → StateM τ β'}
    (h : ∀ s t, R s t → Linked R B (f s) (g t)) : Linked R B (get >>= f) (get >>= g) :=
  fun s t hR => h s t hR s t hR

theorem change {f : σ → σ} {g : τ → τ} (h : ∀ s t, R s t → R (f s) (g t)) :
    Linked R Eq (modify f) (modify g) :=
  fun s t hR => ⟨rfl, h s t hR⟩

theorem ite {c : Prop} [Decidable c] {x x' : StateM σ α} {y y' : StateM τ α'}
    (h : Linked R A x y) (h' : Linked R A x' y') :
    Linked R A (if c then x else x') (if c then y else y') := by
  split
  · exact h
  · exact h'

/-- Answers that are related closely are related loosely. -/
theorem mono {A' : α → α' → Prop} {x : StateM σ α} {y : StateM τ α'} (hx : Linked R A x y)
    (h : ∀ a a', A a a' → A' a a') : Linked R A' x y :=
  fun s t hR => ⟨h _ _ (hx s t hR).1, (hx s t hR).2⟩

/-- What is read off related answers. -/
theorem map {f : α → β} {g : α' → β'} {x : StateM σ α} {y : StateM τ α'} (hx : Linked R A x y)
    (h : ∀ a a', A a a' → B (f a) (g a')) : Linked R B (f <$> x) (g <$> y) :=
  fun s t hR => ⟨h _ _ (hx s t hR).1, (hx s t hR).2⟩

/-- Going through related lists. -/
theorem mapM {f : α → StateM σ β} {g : α' → StateM τ β'}
    (h : ∀ a a', A a a' → Linked R B (f a) (g a')) {l : List α} {l' : List α'}
    (hl : List.Forall₂ A l l') : Linked R (List.Forall₂ B) (l.mapM f) (l'.mapM g) := by
  induction hl with
  | nil => exact pure .nil
  | cons ha _ ih =>
    rw [List.mapM_cons, List.mapM_cons]
    exact (h _ _ ha).bind fun b b' hb => ih.bind fun bs bs' hbs => pure (.cons hb hbs)

theorem forM {f : α → StateM σ Unit} {g : α' → StateM τ Unit}
    (h : ∀ a a', A a a' → Linked R Eq (f a) (g a')) {l : List α} {l' : List α'}
    (hl : List.Forall₂ A l l') : Linked R Eq (l.forM f) (l'.forM g) := by
  induction hl with
  | nil => exact same ()
  | cons ha _ ih =>
    exact (h _ _ ha).bind_same fun _ => ih

end Linked

/-! ## Answers -/

/-- Two computations end in the same way: with related results or with the same failure. -/
inductive EndAlike {ε : Type} (A : α → α' → Prop) : Except ε α → Except ε α' → Prop
  | ok {a : α} {a' : α'} (h : A a a') : EndAlike A (.ok a) (.ok a')
  | error (e : ε) : EndAlike A (.error e) (.error e)

namespace EndAlike

variable {ε : Type} {A : α → α' → Prop} {B : β → β' → Prop}

theorem refl {A : α → α → Prop} (h : ∀ a, A a a) (x : Except ε α) : EndAlike A x x := by
  cases x with
  | ok a => exact .ok (h a)
  | error e => exact .error e

theorem same (x : Except ε α) : EndAlike Eq x x := refl (fun _ => rfl) x

/-- Ends whose results are the same are the same. -/
theorem eq {x y : Except ε α} (h : EndAlike Eq x y) : x = y := by
  cases h with
  | ok h => rw [h]
  | error e => rfl

theorem bind {x : Except ε α} {y : Except ε α'} {f : α → Except ε β} {g : α' → Except ε β'}
    (hx : EndAlike A x y) (hf : ∀ a a', A a a' → EndAlike B (f a) (g a')) :
    EndAlike B (x >>= f) (y >>= g) := by
  cases hx with
  | ok h => exact hf _ _ h
  | error e => exact .error e

theorem mono {A' : α → α' → Prop} {x : Except ε α} {y : Except ε α'} (hx : EndAlike A x y)
    (h : ∀ a a', A a a' → A' a a') : EndAlike A' x y := by
  cases hx with
  | ok ha => exact .ok (h _ _ ha)
  | error e => exact .error e

theorem map {f : α → β} {g : α' → β'} {x : Except ε α} {y : Except ε α'} (hx : EndAlike A x y)
    (h : ∀ a a', A a a' → B (f a) (g a')) : EndAlike B (x.map f) (y.map g) := by
  cases hx with
  | ok ha => exact .ok (h _ _ ha)
  | error e => exact .error e

theorem ite {c : Prop} [Decidable c] {x x' : Except ε α} {y y' : Except ε α'}
    (h : EndAlike A x y) (h' : EndAlike A x' y') :
    EndAlike A (if c then x else x') (if c then y else y') := by
  split
  · exact h
  · exact h'

/-- Going through related lists. -/
theorem mapM {f : α → Except ε β} {g : α' → Except ε β'}
    (h : ∀ a a', A a a' → EndAlike B (f a) (g a')) {l : List α} {l' : List α'}
    (hl : List.Forall₂ A l l') : EndAlike (List.Forall₂ B) (l.mapM f) (l'.mapM g) := by
  induction hl with
  | nil => exact .ok .nil
  | cons ha _ ih =>
    rw [List.mapM_cons, List.mapM_cons]
    exact (h _ _ ha).bind fun b b' hb => ih.bind fun bs bs' hbs => .ok (.cons hb hbs)

/-- Going through the same list. -/
theorem mapM_same {f : α → Except ε β} {g : α → Except ε β'} (h : ∀ a, EndAlike B (f a) (g a))
    (l : List α) : EndAlike (List.Forall₂ B) (l.mapM f) (l.mapM g) :=
  mapM (A := Eq) (fun a _ ha => ha ▸ h a) (forall₂_eq l)

theorem mapM_option {f : α → Except ε β} {g : α → Except ε β'} (h : ∀ a, EndAlike B (f a) (g a))
    (o : Option α) : EndAlike (Option.Rel B) (o.mapM f) (o.mapM g) := by
  cases o with
  | some a => exact (h a).bind fun b b' hb => .ok (.some hb)
  | none => exact .ok .none

end EndAlike

end Linking

/-! ## Computations of the engine -/

namespace Engine

variable {H H' α α' β β' : Type}

/-- From related worlds both computations end in the same way and leave related worlds. -/
def LinkedRun (R : World H → World H' → Prop) (A : α → α' → Prop) (x : Run H α) (y : Run H' α') :
    Prop :=
  Linked R (EndAlike A) x.run y.run

namespace LinkedRun

variable {R : World H → World H' → Prop} {A : α → α' → Prop} {B : β → β' → Prop}

theorem pure {a : α} {a' : α'} (h : A a a') :
    LinkedRun R A (Pure.pure a : Run H α) (Pure.pure a' : Run H' α') :=
  fun _ _ hR => ⟨.ok h, hR⟩

theorem same (a : α) : LinkedRun R Eq (Pure.pure a : Run H α) (Pure.pure a : Run H' α) := pure rfl

theorem throw (fault : Fault) :
    LinkedRun R A (throw fault : Run H α) (throw fault : Run H' α') :=
  fun _ _ hR => ⟨.error fault, hR⟩

theorem bind {x : Run H α} {y : Run H' α'} {f : α → Run H β} {g : α' → Run H' β'}
    (hx : LinkedRun R A x y) (hf : ∀ a a', A a a' → LinkedRun R B (f a) (g a')) :
    LinkedRun R B (x >>= f) (y >>= g) := by
  show Linked R (EndAlike B) (x.run >>= ExceptT.bindCont f) (y.run >>= ExceptT.bindCont g)
  refine Linked.bind hx fun result result' h => ?_
  cases h with
  | ok ha => exact hf _ _ ha
  | error fault => exact fun _ _ hR => ⟨.error fault, hR⟩

/-- After a computation with the same result in both worlds. -/
theorem bind_same {x : Run H α} {y : Run H' α} {f : α → Run H β} {g : α → Run H' β'}
    (hx : LinkedRun R Eq x y) (hf : ∀ a, LinkedRun R B (f a) (g a)) :
    LinkedRun R B (x >>= f) (y >>= g) := by
  refine hx.bind fun a a' h => ?_
  subst h
  exact hf a

theorem get_bind {f : World H → Run H β} {g : World H' → Run H' β'}
    (h : ∀ s t, R s t → LinkedRun R B (f s) (g t)) : LinkedRun R B (get >>= f) (get >>= g) :=
  fun s t hR => h s t hR s t hR

theorem ite {c : Prop} [Decidable c] {x x' : Run H α} {y y' : Run H' α'}
    (h : LinkedRun R A x y) (h' : LinkedRun R A x' y') :
    LinkedRun R A (if c then x else x') (if c then y else y') := by
  split
  · exact h
  · exact h'

/-- A check before a computation. -/
theorem guard {c : Prop} [Decidable c] (fault : Fault) {x : Run H α} {y : Run H' α'}
    (h : LinkedRun R A x y) :
    LinkedRun R A
      (do
        if c then MonadExcept.throw fault
        x)
      (do
        if c then MonadExcept.throw fault
        y) :=
  .ite ((LinkedRun.throw (A := @Eq PUnit) fault).bind fun _ _ _ => h) h

theorem lift {x : StateM (World H) α} {y : StateM (World H') α'} (h : Linked R A x y) :
    LinkedRun R A (liftM x : Run H α) (liftM y : Run H' α') :=
  Linked.bind h fun _ _ ha => Linked.pure (EndAlike.ok ha)

/-- A failure that is looked at as a value. -/
theorem attempt {x : Run H α} {y : Run H' α'} (h : LinkedRun R A x y) :
    LinkedRun R (EndAlike A) (attempt x) (attempt y) :=
  lift h

theorem ofExcept {x : Except Fault α} {y : Except Fault α'} (h : EndAlike A x y) :
    LinkedRun R A (liftM x : Run H α) (liftM y : Run H' α') := by
  cases h with
  | ok ha => exact pure ha
  | error fault => exact throw fault

theorem mono {A' : α → α' → Prop} {x : Run H α} {y : Run H' α'} (hx : LinkedRun R A x y)
    (h : ∀ a a', A a a' → A' a a') : LinkedRun R A' x y :=
  Linked.mono hx fun _ _ ha => ha.mono h

/-- Going through related lists. -/
theorem mapM {f : α → Run H β} {g : α' → Run H' β'}
    (h : ∀ a a', A a a' → LinkedRun R B (f a) (g a')) {l : List α} {l' : List α'}
    (hl : List.Forall₂ A l l') : LinkedRun R (List.Forall₂ B) (l.mapM f) (l'.mapM g) := by
  induction hl with
  | nil => exact pure .nil
  | cons ha _ ih =>
    rw [List.mapM_cons, List.mapM_cons]
    exact (h _ _ ha).bind fun b b' hb => ih.bind fun bs bs' hbs => pure (.cons hb hbs)

end LinkedRun

end Engine

end HostSql
