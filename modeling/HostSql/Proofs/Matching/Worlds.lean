import HostSql.Engine.Eval
import HostSql.Proofs.Matching.Linked
import HostSql.Proofs.Matching.Numbers

/-!
# Matched worlds

Two worlds are matched when what one of them holds of some connections, the other holds as well, but for
numbers. A `Matching` says which numbers stand for each other: some that had been given out before, and
those given out since, in the order in which they came. What else the worlds hold is their rest, which
does not refer to anything that is matched.

The engine works on one connection at a time, so what it does to matched connections is the same, and
leaves the rests as they are. Here this is shown of the elementary changes of a world. What it needs of
the hosts is `Hooks.Linked`.
-/

namespace HostSql.Engine

/-- What is held of connections that are not matched. -/
structure Rest where
  volumes : Assoc Nat Volume
  connections : Assoc Nat Connection
  statements : Assoc Nat Statement

/-- Which things of two worlds stand for each other. -/
structure Matching where
  /-- Numbers given out before that stand for each other. -/
  kept : Nat → Nat → Prop
  kept_oneToOne : OneToOne kept
  /-- The first numbers given out since, in each of the worlds. -/
  first : Nat
  first' : Nat
  rest : Rest
  rest' : Rest
  /-- Whether matched volumes may be files; otherwise they are private memory. -/
  files : Prop

namespace Matching

variable (M : Matching)

/-- Numbers that stand for each other. -/
def Same (k l : Nat) : Prop :=
  (M.kept k l ∧ k < M.first ∧ l < M.first') ∨ ∃ i, k = M.first + i ∧ l = M.first' + i

/-- Numbers that have not been given out yet and will stand for each other. -/
def Next (k l : Nat) : Prop := ∃ i, k = M.first + i ∧ l = M.first' + i

/-- Volumes that are the same, and private memory unless files are matched. -/
def SameVolume (v v' : Volume) : Prop := v = v' ∧ (v.path.isSome → M.files)

/-- The rests do not refer to anything that is matched; where files are matched, all files are. -/
structure Apart : Prop where
  volume : ∀ e ∈ M.rest.connections, ∀ l, ¬M.Same e.2.volume l
  volume' : ∀ e ∈ M.rest'.connections, ∀ k, ¬M.Same k e.2.volume
  connection : ∀ e ∈ M.rest.statements, ∀ l, ¬M.Same e.2.connection l
  connection' : ∀ e ∈ M.rest'.statements, ∀ k, ¬M.Same k e.2.connection
  path : M.files → ∀ e ∈ M.rest.volumes, e.2.path = none
  path' : M.files → ∀ e ∈ M.rest'.volumes, e.2.path = none

variable {M}

theorem oneToOne : OneToOne M.Same := by
  constructor
  · rintro k l l' (⟨hkept, hk, -⟩ | ⟨i, rfl, rfl⟩) (⟨hkept', hk', -⟩ | ⟨j, hj, rfl⟩)
    · exact M.kept_oneToOne.right hkept hkept'
    · omega
    · omega
    · omega
  · rintro k k' l (⟨hkept, -, hl⟩ | ⟨i, rfl, rfl⟩) (⟨hkept', -, hl'⟩ | ⟨j, rfl, hj⟩)
    · exact M.kept_oneToOne.left hkept hkept'
    · omega
    · omega
    · omega

theorem Next.same {k l : Nat} (h : M.Next k l) : M.Same k l := .inr h

theorem Next.succ {k l : Nat} (h : M.Next k l) : M.Next (k + 1) (l + 1) := by
  obtain ⟨i, rfl, rfl⟩ := h
  exact ⟨i + 1, rfl, rfl⟩

end Matching

variable {H H' : Type}

/-- Worlds in which what is matched is the same but for numbers. -/
structure Matched (M : Matching) (G : H → H' → Prop) (w : World H) (w' : World H') : Prop where
  volumes : Aligned M.Same M.SameVolume M.rest.volumes M.rest'.volumes w.volumes w'.volumes
  connections : Aligned M.Same (Connection.Same M.Same) M.rest.connections M.rest'.connections
    w.connections w'.connections
  statements : Aligned M.Same (Statement.Same M.Same) M.rest.statements M.rest'.statements
    w.statements w'.statements
  next : M.Next w.nextId w'.nextId
  host : G w.host w'.host

variable {M : Matching} {G : H → H' → Prop} {k l : Nat}

/-! ## Connections -/

theorem connection?_linked (h : M.Same k l) :
    Linked (Matched M G) (Option.Rel (Connection.Same M.Same)) (World.connection? k)
      (World.connection? l) := by
  unfold World.connection?
  exact .get_bind fun w w' hw => .pure (hw.connections.get? M.oneToOne h)

theorem connectionOf_linked (h : M.Same k l) :
    LinkedRun (Matched M G) (Connection.Same M.Same) (connectionOf k) (connectionOf l) := by
  unfold connectionOf
  refine .get_bind fun w w' hw => ?_
  have hfound := hw.connections.get? M.oneToOne h
  revert hfound
  generalize w.connections.get? k = x
  generalize w'.connections.get? l = y
  intro hfound
  cases hfound with
  | some hc => exact .pure hc
  | none => exact .throw _

theorem modifyConnection_linked (h : M.Same k l) {f g : Connection → Connection}
    (hfg : ∀ c c', c.Same M.Same c' → (f c).Same M.Same (g c')) :
    Linked (Matched M G) Eq (World.modifyConnection k f) (World.modifyConnection l g) :=
  .change fun _ _ hw => { hw with connections := hw.connections.update M.oneToOne h hfg }

/-- A change of a connection that leaves its volume and its functions. -/
theorem changeConnection_linked (h : M.Same k l) {f : Connection → Connection}
    (hf : ∀ (c : Connection) v fs,
      f { c with volume := v, functions := fs } = { f c with volume := v, functions := fs }) :
    Linked (Matched M G) Eq (World.modifyConnection k f) (World.modifyConnection l f) := by
  refine modifyConnection_linked h fun c c' hc => ?_
  cases hc with
  | @mk c v v' fs fs' hv hfs =>
    rw [hf c v fs, hf c v' fs']
    exact .mk (f c) hv hfs

/-- What is read off matched connections, apart from their volumes and their functions. -/
theorem map_same {α : Type} {same : Nat → Nat → Prop} {c? c?' : Option Connection}
    (hc : Option.Rel (Connection.Same same) c? c?') {f : Connection → α}
    (hf : ∀ (c : Connection) v fs, f { c with volume := v, functions := fs } = f c) :
    c?.map f = c?'.map f := by
  cases hc with
  | none => rfl
  | some hc =>
    cases hc with
    | mk c _ _ => exact congrArg some ((hf c _ _).trans (hf c _ _).symm)

/-! ## Statements -/

theorem statement?_linked (h : M.Same k l) {w : World H} {w' : World H'} (hw : Matched M G w w') :
    Option.Rel (Statement.Same M.Same) (w.statements.get? k) (w'.statements.get? l) :=
  hw.statements.get? M.oneToOne h

theorem modifyStatement_linked (h : M.Same k l) {f g : Statement → Statement}
    (hfg : ∀ s s', s.Same M.Same s' → (f s).Same M.Same (g s')) :
    Linked (Matched M G) Eq (World.modifyStatement k f) (World.modifyStatement l g) :=
  .change fun _ _ hw => { hw with statements := hw.statements.update M.oneToOne h hfg }

/-- Whether statements belong to matched connections is told alike. -/
theorem Statement.Same.connection_iff {s s' : Statement} (hs : s.Same M.Same s') (h : M.Same k l) :
    (s.connection = k) = (s'.connection = l) := by
  cases hs with
  | @mk s c c' _ _ _ _ hc _ _ =>
    refine propext ⟨fun heq => ?_, fun heq => ?_⟩
    · have hk : c = k := heq
      exact M.oneToOne.right (hk ▸ hc) h
    · have hl : c' = l := heq
      exact M.oneToOne.left (hl ▸ hc) h

/-- A change of all statements of a connection. -/
theorem modifyStatements_linked (hapart : M.Apart) (h : M.Same k l)
    {f g : Nat → Statement → Statement}
    (hfg : ∀ n n' s s', M.Same n n' → s.Same M.Same s' → (f n s).Same M.Same (g n' s'))
    (hf : ∀ n s, s.connection ≠ k → f n s = s) (hg : ∀ n s, s.connection ≠ l → g n s = s) :
    Linked (Matched M G) Eq
      (modify fun w : World H =>
        { w with statements := w.statements.map fun p => (p.1, f p.1 p.2) })
      (modify fun w : World H' =>
        { w with statements := w.statements.map fun p => (p.1, g p.1 p.2) }) := by
  refine .change fun w w' hw => { hw with statements := hw.statements.map ?_ ?_ ?_ }
  · exact fun n n' s s' hn hs => hfg n n' s s' hn hs
  · exact fun e he => hf _ _ fun heq => hapart.connection e he l (heq ▸ h)
  · exact fun e he => hg _ _ fun heq => hapart.connection' e he k (heq ▸ h)

/-- Matched connections execute the same statements. -/
theorem active_same (hapart : M.Apart) (h : M.Same k l) {w : World H} {w' : World H'}
    (hw : Matched M G w w') :
    List.Forall₂ (fun e e' => M.Same e.1 e'.1 ∧ e.2.Same M.Same e'.2) (w.active k) (w'.active l) := by
  refine hw.statements.select (fun n n' s s' _ hs => ?_) (fun e he => ?_) fun e he => ?_
  · have hphase : s.phase = s'.phase := by
      cases hs
      rfl
    simp only [hs.connection_iff h, hphase]
  · have hne : e.2.connection ≠ k := fun heq => hapart.connection e he l (heq ▸ h)
    simp [hne]
  · have hne : e.2.connection ≠ l := fun heq => hapart.connection' e he k (heq ▸ h)
    simp [hne]

theorem isActive_same (hapart : M.Apart) (h : M.Same k l) {w : World H} {w' : World H'}
    (hw : Matched M G w w') : w.isActive k = w'.isActive l :=
  congrArg not (forall₂_isEmpty (active_same hapart h hw))

/-! ## Numbers -/

/-- The next numbers stand for each other. -/
theorem fresh_linked :
    Linked (Matched M G) M.Same (World.fresh (H := H)) (World.fresh (H := H')) :=
  fun _ _ hw => ⟨hw.next.same, { hw with next := hw.next.succ }⟩

/-! ## Hosts -/

/-- Hosts that answer alike and leave worlds matched. -/
structure Hooks.Linked (M : Matching) (G : H → H' → Prop) (hooks : Hooks H) (hooks' : Hooks H') :
    Prop where
  call : ∀ {r r'}, M.Same r r' → ∀ slot args,
    HostSql.Linked (Matched M G) Eq (hooks.call r slot args) (hooks'.call r' slot args)
  finish : ∀ {r r'}, M.Same r r' → ∀ slot,
    HostSql.Linked (Matched M G) Eq (hooks.finish r slot) (hooks'.finish r' slot)
  discard : ∀ {r r'}, M.Same r r' → ∀ slot,
    HostSql.Linked (Matched M G) Eq (hooks.discard r slot) (hooks'.discard r' slot)
  busy : ∀ {c c'}, M.Same c c' → ∀ attempt,
    HostSql.Linked (Matched M G) Eq (hooks.busy c attempt) (hooks'.busy c' attempt)

/-- Scopes of matched connections whose hosts answer alike. -/
structure Scope.Linked (M : Matching) (G : H → H' → Prop) (scope : Scope H) (scope' : Scope H') :
    Prop where
  connection : M.Same scope.connection scope'.connection
  hooks : scope.hooks.Linked M G scope'.hooks
  apart : M.Apart

end HostSql.Engine
