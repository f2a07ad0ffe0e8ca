import HostSql.Proofs.Engine.Ledger
import HostSql.Proofs.Invariance

/-!
# The conduct of the engine

Whatever the engine does while it compiles and runs statements, it does by a few kinds of changes:
it changes connections, it changes statements or adds new ones, it puts a draft down, and it asks its
host. What all of these leave true is `Stable`, and a computation that does nothing else keeps it
(`Within`). No statement goes away and nobody else's policy is installed in the middle of a step, so
these are facts about everything that may happen there, also in the statements that host functions
run in turn.

The conduct of a computation is both: it goes along with a ledger, and it stays within the engine's
changes. `Calm` computations are quiet, `Orderly` ones are faithful, and `Resigns` is giving up.
They go through sequencing as their parts do, so the engine is gone through only once for the two.
-/

namespace HostSql.Engine

/-- What a computation of the engine may do besides its usual changes: put a draft down, and let
connections and statements hold other numbers than before. -/
structure Licence where
  commits : Bool
  stores : Bool

/-- Everything that the engine does. -/
abbrev Licence.full : Licence := ⟨true, true⟩

variable {H α β : Type} {hooks : Hooks H} {may : Licence}

/-! ## Stable properties -/

/-- A change of a connection after which its host is asked about locks if it was before. Only the
host itself changes that. -/
def LeavesAsking (f : Connection → Connection) : Prop :=
  ∀ (conn : Connection) (asks : Bool), (f { conn with asksHost := asks }).asksHost = asks

/-- A change of a connection that leaves the numbers of its volume and its functions. -/
def Connection.LeavesNumbers (f : Connection → Connection) : Prop :=
  ∀ (conn : Connection) volume functions,
    (f { conn with volume, functions }).volume = volume ∧
      (f { conn with volume, functions }).functions = functions

/-- A change of a statement that leaves its connection and its program; where it stands may only be
given up. -/
def Statement.LeavesNumbers (f : Statement → Statement) : Prop :=
  ∀ (s : Statement) connection program cursor,
    (f { s with connection, program, cursor }).connection = connection ∧
      (f { s with connection, program, cursor }).program = program ∧
        ((f { s with connection, program, cursor }).cursor = cursor ∨
          (f { s with connection, program, cursor }).cursor = .done)

/-- Some statements are changed in this way, and others are not. -/
theorem Statement.LeavesNumbers.ite {f : Statement → Statement} (hf : LeavesNumbers f)
    {p : Statement → Prop} [DecidablePred p] : LeavesNumbers fun s => if p s then f s else s := by
  intro s connection program cursor
  dsimp only
  split
  · exact hf s connection program cursor
  · exact ⟨rfl, rfl, .inl rfl⟩

/-- What the engine's own changes leave true, as far as its licence goes. -/
structure EngineKeeps (may : Licence) (I : World H → Prop) : Prop where
  connection : ∀ c f, LeavesAsking f → (may.stores = true ∨ Connection.LeavesNumbers f) →
    Keeps I (World.modifyConnection c f)
  statements : ∀ f : Nat → Statement → Statement,
    (may.stores = true ∨ ∀ n, Statement.LeavesNumbers (f n)) →
    Keeps I (modify fun w => { w with statements := w.statements.map fun p => (p.1, f p.1 p.2) })
  added : may.stores = true → ∀ n s,
    Keeps I (modify fun w => { w with statements := Assoc.set w.statements n s })
  fresh : Keeps I World.fresh
  volumes : may.commits = true → ∀ f : Assoc Nat Volume → Assoc Nat Volume,
    (may.stores = true ∨ ∀ volumes, (f volumes).map (·.1) = volumes.map (·.1)) →
    Keeps I (modify fun w => { w with volumes := f w.volumes })

/-- What the answers of a host leave true. -/
structure HostKeeps (hooks : Hooks H) (I : World H → Prop) : Prop where
  call : ∀ record slot args, Keeps I (hooks.call record slot args)
  finish : ∀ record slot, Keeps I (hooks.finish record slot)
  discard : ∀ record slot, Keeps I (hooks.discard record slot)
  busy : ∀ connection attempt, Keeps I (hooks.busy connection attempt)

/-- What the engine and its host leave true. -/
structure Stable (may : Licence) (hooks : Hooks H) (I : World H → Prop) : Prop extends
  EngineKeeps may I, HostKeeps hooks I

/-- Keeps whatever is stable. -/
def Within (may : Licence) (hooks : Hooks H) (x : StateM (World H) α) : Prop :=
  ∀ I, Stable may hooks I → Keeps I x

namespace Within

theorem pure (a : α) : Within may hooks (Pure.pure a : StateM (World H) α) :=
  fun _ _ => .pure a

theorem bind {x : StateM (World H) α} {f : α → StateM (World H) β}
    (hx : Within may hooks x) (hf : ∀ a, Within may hooks (f a)) :
    Within may hooks (x >>= f) :=
  fun I h => (hx I h).bind fun a => hf a I h

theorem get_bind {f : World H → StateM (World H) α} (h : ∀ w, Within may hooks (f w)) :
    Within may hooks (get >>= f) :=
  fun I hI => .get_bind fun w => h w I hI w

theorem ite {c : Prop} [Decidable c] {x y : StateM (World H) α} (hx : Within may hooks x)
    (hy : Within may hooks y) : Within may hooks (if c then x else y) := by
  split
  · exact hx
  · exact hy

theorem answer (request : HostRequest) : Within may hooks (hooks.answer request) := by
  intro I h
  cases request with
  | call record slot args => exact h.call record slot args
  | finish record slot => exact h.finish record slot

/-- A computation that may fail, and what follows unless it does. -/
theorem run_bind {x : Run H α} {f : α → Run H β} (hx : Within may hooks x.run)
    (hf : ∀ a, Within may hooks (f a).run) : Within may hooks (x >>= f).run := by
  show Within may hooks (x.run >>= ExceptT.bindCont f)
  refine hx.bind fun result => ?_
  cases result with
  | ok a => exact hf a
  | error fault => exact .pure _

end Within

/-! ## Conduct -/

/-- A computation that asks for nothing and stays within the engine's changes. -/
structure Calm (may : Licence) (x : StateM (World H) α) (y : LedgerM hooks α) : Prop where
  quiet : Quiet x y
  within : Within may hooks x

/-- A computation whose requests explain its end and that stays within the engine's changes. -/
structure Orderly (may : Licence) (fault? : α → Option Fault) (x : StateM (World H) α)
    (y : LedgerM hooks α) : Prop where
  faithful : Faithful fault? x y
  within : Within may hooks x

/-- A computation that gives up and stays within the engine's changes. -/
structure Resigns (may : Licence) (fault : Fault) (fault? : α → Option Fault)
    (x : StateM (World H) α) (y : LedgerM hooks α) : Prop where
  givesUp : GivesUp fault fault? x y
  within : Within may hooks x

namespace Calm

theorem pure (a : α) :
    Calm may (Pure.pure a : StateM (World H) α) (Pure.pure a : LedgerM hooks α) :=
  ⟨.pure a, .pure a⟩

theorem bind {x : StateM (World H) α} {y : LedgerM hooks α}
    {f : α → StateM (World H) β} {g : α → LedgerM hooks β} (hx : Calm may x y)
    (hf : ∀ a, Calm may (f a) (g a)) : Calm may (x >>= f) (y >>= g) :=
  ⟨hx.quiet.bind fun a => (hf a).quiet, hx.within.bind fun a => (hf a).within⟩

/-- What reads the world reads the same with the ledger. -/
theorem get_bind {f : World H → StateM (World H) α}
    {g : World (Ledger hooks) → LedgerM hooks α} (h : ∀ t, Calm may (f t.plain) (g t)) :
    Calm may (get >>= f) (get >>= g) :=
  ⟨.get_bind fun t => (h t).quiet, .get_bind fun w => (h (w.noted [])).within⟩

theorem ite {c : Prop} [Decidable c] {x x' : StateM (World H) α}
    {y y' : LedgerM hooks α} (h : Calm may x y) (h' : Calm may x' y') :
    Calm may (if c then x else x') (if c then y else y') := by
  split
  · exact h
  · exact h'

theorem discard (record slot : Nat) :
    Calm may (hooks.discard record slot) (hooks.noting.discard record slot) :=
  ⟨.unnoted _, fun _ h => h.discard record slot⟩

theorem busy (connection attempt : Nat) :
    Calm may (hooks.busy connection attempt) (hooks.noting.busy connection attempt) :=
  ⟨.unnoted _, fun _ h => h.busy connection attempt⟩

theorem orderly {x : StateM (World H) α} {y : LedgerM hooks α} (h : Calm may x y)
    (fault? : α → Option Fault) : Orderly may fault? x y :=
  ⟨h.quiet.faithful fault?, h.within⟩

end Calm

namespace Resigns

variable {fault : Fault}

theorem pure {fault? : α → Option Fault} {a : α} (h : fault? a = some fault) :
    Resigns may fault fault? (Pure.pure a : StateM (World H) α)
      (Pure.pure a : LedgerM hooks α) :=
  ⟨.pure h, .pure a⟩

theorem throw :
    Resigns may fault failure? (MonadExcept.throw fault : Run H α).run
      (MonadExcept.throw fault : Run (Ledger hooks) α).run :=
  .pure (a := Except.error fault) rfl

theorem orderly {x : StateM (World H) α} {y : LedgerM hooks α} {fault? : α → Option Fault}
    (h : Resigns may fault fault? x y) : Orderly may fault? x y :=
  ⟨h.givesUp.faithful, h.within⟩

/-- After something calm. -/
theorem calm_bind {x : StateM (World H) α} {y : LedgerM hooks α} {fault? : β → Option Fault}
    {f : α → StateM (World H) β} {g : α → LedgerM hooks β} (hx : Calm may x y)
    (hf : ∀ a, Resigns may fault fault? (f a) (g a)) :
    Resigns may fault fault? (x >>= f) (y >>= g) :=
  ⟨.quiet_bind hx.quiet fun a => (hf a).givesUp, hx.within.bind fun a => (hf a).within⟩

end Resigns

/-- What is calm and ends with a given failure gives up. -/
theorem Calm.resigns {x : StateM (World H) α} {y : LedgerM hooks α} {fault : Fault}
    {fault? : α → Option Fault} (h : Calm may x y) (hfault : Returns (fault? · = some fault) y) :
    Resigns may fault fault? x y :=
  ⟨⟨h.quiet, hfault⟩, h.within⟩

namespace Orderly

variable {x : StateM (World H) α} {y : LedgerM hooks α}

theorem pure (fault? : α → Option Fault) (a : α) :
    Orderly may fault? (Pure.pure a : StateM (World H) α) (Pure.pure a : LedgerM hooks α) :=
  (Calm.pure a).orderly fault?

/-- After a good end what follows must be orderly; after a failure it must give up. -/
theorem bind {fault? : α → Option Fault} {fault?' : β → Option Fault}
    {f : α → StateM (World H) β} {g : α → LedgerM hooks β} (hx : Orderly may fault? x y)
    (hok : ∀ a, fault? a = none → Orderly may fault?' (f a) (g a))
    (hfail : ∀ a fault, fault? a = some fault → Resigns may fault fault?' (f a) (g a)) :
    Orderly may fault?' (x >>= f) (y >>= g) := by
  refine ⟨hx.faithful.bind (fun a h => (hok a h).faithful) fun a fault h => (hfail a fault h).givesUp,
    hx.within.bind fun a => ?_⟩
  cases hfault : fault? a with
  | none => exact (hok a hfault).within
  | some fault => exact (hfail a fault hfault).within

/-- After something calm. -/
theorem calm_bind {fault?' : β → Option Fault} {f : α → StateM (World H) β}
    {g : α → LedgerM hooks β} (hx : Calm may x y)
    (hf : ∀ a, Orderly may fault?' (f a) (g a)) :
    Orderly may fault?' (x >>= f) (y >>= g) :=
  ⟨.quiet_bind hx.quiet fun a => (hf a).faithful, hx.within.bind fun a => (hf a).within⟩

/-- What reads the world reads the same with the ledger. -/
theorem get_bind {fault? : α → Option Fault} {f : World H → StateM (World H) α}
    {g : World (Ledger hooks) → LedgerM hooks α}
    (h : ∀ t, Orderly may fault? (f t.plain) (g t)) :
    Orderly may fault? (get >>= f) (get >>= g) :=
  ⟨.get_bind fun t => (h t).faithful, .get_bind fun w => (h (w.noted [])).within⟩

/-- What only reads off the result of a computation. -/
theorem map {fault? : α → Option Fault} {fault?' : β → Option Fault}
    (hx : Orderly may fault? x y) (f : α → β) (h : ∀ a, fault?' (f a) = fault? a) :
    Orderly may fault?' (x >>= fun a => Pure.pure (f a)) (y >>= fun a => Pure.pure (f a)) :=
  ⟨hx.faithful.map f h, hx.within.bind fun a => .pure (f a)⟩

/-- A request after which a failed reply is the failure. -/
theorem ask_bind {fault? : α → Option Fault} (hooks : Hooks H) (request : HostRequest)
    {f : Reply → StateM (World H) α} {g : Reply → LedgerM hooks α}
    (hok : ∀ reply d, reply.result = .ok d → Orderly may fault? (f reply) (g reply))
    (herror : ∀ reply message, reply.result = .error message →
      Resigns may (.general message) fault? (f reply) (g reply)) :
    Orderly may fault? (hooks.answer request >>= f) (hooks.note request >>= g) := by
  refine ⟨.ask_bind hooks request (fun reply d h => (hok reply d h).faithful)
    fun reply message h => (herror reply message h).givesUp,
    (Within.answer request).bind fun reply => ?_⟩
  cases hresult : reply.result with
  | ok d => exact (hok reply d hresult).within
  | error message => exact (herror reply message hresult).within

end Orderly

/-! ## The conduct of computations that may fail -/

/-- A computation that may fail, asks for nothing and stays within the engine's changes. -/
def CalmRun (may : Licence) (x : Run H α) (y : Run (Ledger hooks) α) : Prop :=
  Calm may x.run y.run

/-- A computation whose requests explain its failure and that stays within the engine's changes. -/
def OrderlyRun (may : Licence) (x : Run H α) (y : Run (Ledger hooks) α) : Prop :=
  Orderly may failure? x.run y.run

namespace CalmRun

theorem pure (a : α) :
    CalmRun may (Pure.pure a : Run H α) (Pure.pure a : Run (Ledger hooks) α) :=
  ⟨QuietRun.pure a, .pure (Except.ok a)⟩

theorem throw (fault : Fault) :
    CalmRun may (throw fault : Run H α) (throw fault : Run (Ledger hooks) α) :=
  ⟨QuietRun.throw fault, .pure (Except.error fault)⟩

theorem bind {x : Run H α} {y : Run (Ledger hooks) α} {f : α → Run H β}
    {g : α → Run (Ledger hooks) β} (hx : CalmRun may x y)
    (hf : ∀ a, CalmRun may (f a) (g a)) : CalmRun may (x >>= f) (y >>= g) :=
  ⟨QuietRun.bind hx.quiet fun a => (hf a).quiet, .run_bind hx.within fun a => (hf a).within⟩

theorem get_bind {f : World H → Run H α} {g : World (Ledger hooks) → Run (Ledger hooks) α}
    (h : ∀ t, CalmRun may (f t.plain) (g t)) : CalmRun may (get >>= f) (get >>= g) :=
  ⟨QuietRun.get_bind fun t => (h t).quiet,
    fun I hI => .get_bind (f := fun w => (f w).run) fun w => (h (w.noted [])).within I hI w⟩

theorem ite {c : Prop} [Decidable c] {x x' : Run H α} {y y' : Run (Ledger hooks) α}
    (h : CalmRun may x y) (h' : CalmRun may x' y') :
    CalmRun may (if c then x else x') (if c then y else y') := by
  split
  · exact h
  · exact h'

/-- A check before a computation. -/
theorem guard {c : Prop} [Decidable c] (fault : Fault) {x : Run H α} {y : Run (Ledger hooks) α}
    (h : CalmRun may x y) :
    CalmRun may
      (do
        if c then MonadExcept.throw fault
        x)
      (do
        if c then MonadExcept.throw fault
        y) :=
  .ite ((CalmRun.throw fault).bind fun _ => h) h

theorem lift {x : StateM (World H) α} {y : LedgerM hooks α} (h : Calm may x y) :
    CalmRun may (liftM x : Run H α) (liftM y : Run (Ledger hooks) α) :=
  h.bind fun a => Calm.pure (Except.ok a)

/-- A failure that is looked at as a value. -/
theorem attempt {x : Run H α} {y : Run (Ledger hooks) α} (h : CalmRun may x y) :
    CalmRun may (attempt x) (attempt y) :=
  Calm.bind h fun result => Calm.pure (Except.ok result)

theorem ofExcept (x : Except Fault α) :
    CalmRun may (liftM x : Run H α) (liftM x : Run (Ledger hooks) α) := by
  cases x with
  | ok a => exact pure a
  | error fault => exact throw fault

theorem orderly {x : Run H α} {y : Run (Ledger hooks) α} (h : CalmRun may x y) :
    OrderlyRun may x y :=
  Calm.orderly h failure?

end CalmRun

namespace OrderlyRun

theorem pure (a : α) :
    OrderlyRun may (Pure.pure a : Run H α) (Pure.pure a : Run (Ledger hooks) α) :=
  (CalmRun.pure a).orderly

theorem throw (fault : Fault) :
    OrderlyRun may (throw fault : Run H α) (throw fault : Run (Ledger hooks) α) :=
  (CalmRun.throw fault).orderly

theorem bind {x : Run H α} {y : Run (Ledger hooks) α} {f : α → Run H β}
    {g : α → Run (Ledger hooks) β} (hx : OrderlyRun may x y)
    (hf : ∀ a, OrderlyRun may (f a) (g a)) : OrderlyRun may (x >>= f) (y >>= g) :=
  ⟨FaithfulRun.bind hx.faithful fun a => (hf a).faithful,
    .run_bind hx.within fun a => (hf a).within⟩

theorem ite {c : Prop} [Decidable c] {x x' : Run H α} {y y' : Run (Ledger hooks) α}
    (h : OrderlyRun may x y) (h' : OrderlyRun may x' y') :
    OrderlyRun may (if c then x else x') (if c then y else y') := by
  split
  · exact h
  · exact h'

theorem mapM {f : β → Run H α} {g : β → Run (Ledger hooks) α}
    (h : ∀ b, OrderlyRun may (f b) (g b)) (bs : List β) :
    OrderlyRun may (bs.mapM f) (bs.mapM g) := by
  induction bs with
  | nil =>
    rw [List.mapM_nil, List.mapM_nil]
    exact .pure []
  | cons b bs ih =>
    rw [List.mapM_cons, List.mapM_cons]
    exact (h b).bind fun a => ih.bind fun as => .pure (a :: as)

/-- A request after which a failed reply is thrown. -/
theorem ask_bind (hooks : Hooks H) (request : HostRequest) {f : Reply → Run H β}
    {g : Reply → Run (Ledger hooks) β}
    (hok : ∀ reply d, reply.result = .ok d → OrderlyRun may (f reply) (g reply))
    (herror : ∀ reply message, reply.result = .error message →
      f reply = MonadExcept.throw (.general message) ∧
        g reply = MonadExcept.throw (.general message)) :
    OrderlyRun may ((liftM (hooks.answer request) : Run H Reply) >>= f)
      ((liftM (hooks.note request) : Run (Ledger hooks) Reply) >>= g) := by
  show Orderly may failure? (hooks.answer request >>= fun reply => (f reply).run)
    (hooks.note request >>= fun reply => (g reply).run)
  refine Orderly.ask_bind hooks request hok fun reply message h => ?_
  obtain ⟨hf, hg⟩ := herror reply message h
  rw [hf, hg]
  exact Resigns.pure (a := Except.error (Fault.general message)) rfl

/-- A request of whose reply only the result is looked at. -/
theorem ask_result_bind (hooks : Hooks H) (request : HostRequest)
    {f : Except String Datum → Run H β} {g : Except String Datum → Run (Ledger hooks) β}
    (hok : ∀ d, OrderlyRun may (f (.ok d)) (g (.ok d)))
    (herror : ∀ message, f (.error message) = MonadExcept.throw (.general message) ∧
      g (.error message) = MonadExcept.throw (.general message)) :
    OrderlyRun may
      ((liftM (hooks.answer request) : Run H Reply) >>= fun reply => Pure.pure reply.result >>= f)
      ((liftM (hooks.note request) : Run (Ledger hooks) Reply) >>= fun reply =>
        Pure.pure reply.result >>= g) := by
  refine ask_bind hooks request (f := fun reply => f reply.result) (g := fun reply => g reply.result)
    (fun reply d h => ?_) fun reply message h => ?_
  · rw [h]
    exact hok d
  · rw [h]
    exact herror message

/-- A computation that hands its failure on beside its result. -/
theorem lift_bind {fault? : α → Option Fault} {x : StateM (World H) α}
    {y : LedgerM hooks α} {f : α → Run H β} {g : α → Run (Ledger hooks) β}
    (hx : Orderly may fault? x y) (hok : ∀ a, fault? a = none → OrderlyRun may (f a) (g a))
    (hfail : ∀ a fault, fault? a = some fault →
      Resigns may fault failure? (f a).run (g a).run) :
    OrderlyRun may ((liftM x : Run H α) >>= f) ((liftM y : Run (Ledger hooks) α) >>= g) := by
  show Orderly may failure? (x >>= fun a => (f a).run) (y >>= fun a => (g a).run)
  exact hx.bind hok hfail

/-- A computation whose failure is looked at, and in the end passed on. -/
theorem attempt_bind {x : Run H α} {y : Run (Ledger hooks) α} {f : Except Fault α → Run H β}
    {g : Except Fault α → Run (Ledger hooks) β} (hx : OrderlyRun may x y)
    (hok : ∀ a, OrderlyRun may (f (.ok a)) (g (.ok a)))
    (herror : ∀ fault, Resigns may fault failure? (f (.error fault)).run
      (g (.error fault)).run) :
    OrderlyRun may (attempt x >>= f) (attempt y >>= g) := by
  show Orderly may failure? (x.run >>= fun result => (f result).run)
    (y.run >>= fun result => (g result).run)
  refine Orderly.bind hx (fun result h => ?_) fun result fault h => ?_
  · cases result with
    | ok a => exact hok a
    | error fault => exact nomatch h
  · cases result with
    | ok a => exact nomatch h
    | error _ =>
      cases h
      exact herror _

end OrderlyRun

/-- After a calm computation whose failure is looked at. -/
theorem Resigns.attempt_bind {x : Run H α} {y : Run (Ledger hooks) α} {fault : Fault}
    {f : Except Fault α → Run H β} {g : Except Fault α → Run (Ledger hooks) β}
    (hx : CalmRun may x y)
    (hf : ∀ result, Resigns may fault failure? (f result).run (g result).run) :
    Resigns may fault failure? (attempt x >>= f).run (attempt y >>= g).run := by
  show Resigns may fault failure? (x.run >>= fun result => (f result).run)
    (y.run >>= fun result => (g result).run)
  exact Resigns.calm_bind hx hf

end HostSql.Engine
