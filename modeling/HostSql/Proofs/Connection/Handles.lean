import HostSql.Proofs.Connection.Calls

/-!
# Connections are released exactly once

> `host_lawful`: every action of a host is as expected. A closed connection refuses every call and
> changes nothing, and every connection that the engine made has been released once or is held by
> one value that is neither closed nor dropped.

What holds of the pool after some actions (`PoolAt`) goes through an action that leaves it
(`PoolAt.keep`), adds a value (`PoolAt.add`) or changes one (`PoolAt.change`). Each turn is one of
these (`take_spec`), and the rest is an induction on the turns. The connections are counted with
their multiplicity, since the engine may use a number again once it has been released.
-/

namespace HostSql

variable {σ : Type}

/-! ## Pools -/

namespace Pool

variable {pool : Pool} {i : Nat} {c : Connection}

theorem lt_of_value (h : pool.value? i = some c) : i < pool.length := by
  refine Nat.lt_of_not_le fun hge => ?_
  unfold value? at h
  rw [List.getElem?_eq_none hge] at h
  exact nomatch h

theorem value?_set_self (h : i < pool.length) (v : Option Connection) :
    Pool.value? (pool.set i v) i = v := by
  unfold value?
  rw [List.getElem?_set_self h]
  rfl

theorem value?_set_ne {j : Nat} (h : i ≠ j) (v : Option Connection) :
    Pool.value? (pool.set i v) j = pool.value? j := by
  unfold value?
  rw [List.getElem?_set_ne h]

theorem value?_append_self : Pool.value? (pool ++ [some c]) pool.length = some c := by
  unfold value?
  rw [List.getElem?_concat_length]
  rfl

theorem value?_append_lt (h : i < pool.length) :
    Pool.value? (pool ++ [some c]) i = pool.value? i := by
  unfold value?
  rw [List.getElem?_append_left h]

theorem handles_append (a b : Pool) : Pool.handles (a ++ b) = handles a ++ handles b :=
  List.filterMap_append

theorem handles_singleton (c : Connection) : Pool.handles [some c] = c.native?.toList := by
  obtain ⟨native?, path, functions⟩ := c
  cases native? <;> rfl

/-- The handle at a place goes before the others. -/
theorem handles_set_perm (h : i < pool.length) (v : Option Connection) :
    (Pool.handles (pool.set i v)).Perm
      ((v.bind (·.native?)).toList ++ Pool.handles (pool.set i none)) := by
  have hsplit : ∀ v, Pool.handles (pool.set i v) =
      handles (pool.take i) ++ ((v.bind (·.native?)).toList ++ handles (pool.drop (i + 1))) := by
    intro v
    rw [List.set_eq_take_append_cons_drop, if_pos h, handles_append]
    unfold handles
    rw [List.filterMap_cons]
    cases v.bind (·.native?) <;> rfl
  rw [hsplit v, hsplit none]
  exact List.perm_append_comm_assoc _ _ _

/-- The handle of a value goes before the others. -/
theorem handles_perm (h : pool.value? i = some c) :
    pool.handles.Perm (c.native?.toList ++ Pool.handles (pool.set i none)) := by
  have hlt := lt_of_value h
  have hsame : pool.set i (some c) = pool := by
    have hget : pool[i] = some c := by
      unfold value? at h
      rw [List.getElem?_eq_getElem hlt] at h
      exact h
    rw [← hget]
    exact List.set_getElem_self hlt
  have hperm := handles_set_perm hlt (some c)
  rw [hsame] at hperm
  exact hperm

end Pool

theorem openedIn_append (a b : List HandleNote) :
    openedIn (a ++ b) = openedIn a ++ openedIn b :=
  List.filterMap_append

theorem releasedIn_append (a b : List HandleNote) :
    releasedIn (a ++ b) = releasedIn a ++ releasedIn b :=
  List.filterMap_append

/-- What holds of a pool after certain actions. -/
structure PoolAt (earlier : List (HostEntry σ)) (pool : Pool) : Prop where
  closed : ∀ i c, pool.value? i = some c → c.isClosed = earlier.any (·.closes i)
  /-- What has not been opened yet has not been closed. -/
  fresh : ∀ i, pool.length ≤ i → earlier.any (·.closes i) = false
  length : (earlier.filterMap (·.openedPath?)).length = pool.length
  path : ∀ i c, pool.value? i = some c → (earlier.filterMap (·.openedPath?))[i]? = some c.path
  handles : (openedIn (earlier.flatMap (·.notes))).Perm
    (releasedIn (earlier.flatMap (·.notes)) ++ pool.handles)

namespace PoolAt

variable {earlier : List (HostEntry σ)} {pool : Pool} {e : HostEntry σ}

theorem nil : PoolAt ([] : List (HostEntry σ)) [] :=
  ⟨nofun, fun _ _ => rfl, rfl, nofun, .nil⟩

theorem any_closes_append (i : Nat) :
    (earlier ++ [e]).any (·.closes i) = (earlier.any (·.closes i) || e.closes i) := by
  rw [List.any_append, List.any_cons, List.any_nil, Bool.or_false]

theorem notes_append :
    (earlier ++ [e]).flatMap (·.notes) = earlier.flatMap (·.notes) ++ e.notes := by
  rw [List.flatMap_append, List.flatMap_cons, List.flatMap_nil, List.append_nil]

theorem paths_append : (earlier ++ [e]).filterMap (·.openedPath?) =
    earlier.filterMap (·.openedPath?) ++ e.openedPath?.toList := by
  rw [List.filterMap_append, List.filterMap_cons]
  cases e.openedPath? <;> rfl

/-- An action that leaves the pool, and releases what it makes. -/
theorem keep (h : PoolAt earlier pool) (hcloses : ∀ i, e.closes i = false)
    (hpath : e.openedPath? = none) (hnotes : openedIn e.notes = releasedIn e.notes) :
    PoolAt (earlier ++ [e]) pool := by
  have hpaths : (earlier ++ [e]).filterMap (·.openedPath?) =
      earlier.filterMap (·.openedPath?) := by
    rw [paths_append, hpath]
    exact List.append_nil _
  refine ⟨?closed, ?fresh, ?length, ?path, ?handles⟩
  case closed =>
    intro i c hc
    rw [any_closes_append, hcloses, Bool.or_false]
    exact h.closed i c hc
  case fresh =>
    intro i hi
    rw [any_closes_append, hcloses, Bool.or_false]
    exact h.fresh i hi
  case length =>
    rw [hpaths]
    exact h.length
  case path =>
    rw [hpaths]
    exact h.path
  case handles =>
    rw [notes_append, openedIn_append, releasedIn_append, hnotes]
    refine (h.handles.append_right _).trans ?_
    rw [List.append_assoc, List.append_assoc]
    exact List.perm_append_comm.append_left _

/-- An action that opens a value. -/
theorem add (h : PoolAt earlier pool) {c : Connection} {k : Nat} (hcloses : ∀ i, e.closes i = false)
    (hpath : e.openedPath? = some c.path) (hopen : c.native? = some k)
    (hnotes : e.notes = [.opened k]) : PoolAt (earlier ++ [e]) (pool ++ [some c]) := by
  have hpaths : (earlier ++ [e]).filterMap (·.openedPath?) =
      earlier.filterMap (·.openedPath?) ++ [c.path] := by
    rw [paths_append, hpath]
    rfl
  have hcases : ∀ i c', Pool.value? (pool ++ [some c]) i = some c' →
      pool.value? i = some c' ∨ i = pool.length ∧ c' = c := by
    intro i c' hc'
    have hlt := Pool.lt_of_value hc'
    rw [List.length_append, List.length_singleton] at hlt
    rcases Nat.lt_succ_iff_lt_or_eq.mp hlt with hlt | rfl
    · rw [Pool.value?_append_lt hlt] at hc'
      exact .inl hc'
    · rw [Pool.value?_append_self] at hc'
      exact .inr ⟨rfl, (Option.some.inj hc').symm⟩
  refine ⟨?closed, ?fresh, ?length, ?path, ?handles⟩
  case closed =>
    intro i c' hc'
    rw [any_closes_append, hcloses, Bool.or_false]
    rcases hcases i c' hc' with hc' | ⟨rfl, rfl⟩
    · exact h.closed i c' hc'
    · rw [h.fresh pool.length (Nat.le_refl _)]
      unfold Connection.isClosed
      rw [hopen]
      rfl
  case fresh =>
    intro i hi
    rw [any_closes_append, hcloses, Bool.or_false]
    rw [List.length_append] at hi
    exact h.fresh i (Nat.le_of_add_right_le hi)
  case length =>
    rw [hpaths, List.length_append, List.length_append, h.length]
    rfl
  case path =>
    intro i c' hc'
    rw [hpaths]
    rcases hcases i c' hc' with hc' | ⟨rfl, rfl⟩
    · rw [List.getElem?_append_left (h.length ▸ Pool.lt_of_value hc')]
      exact h.path i c' hc'
    · rw [← h.length]
      exact List.getElem?_concat_length
  case handles =>
    have hhandles : Pool.handles (pool ++ [some c]) = pool.handles ++ [k] := by
      rw [Pool.handles_append, Pool.handles_singleton, hopen]
      rfl
    rw [notes_append, openedIn_append, releasedIn_append, hnotes, hhandles]
    show (_ ++ [k]).Perm (_ ++ [] ++ (pool.handles ++ [k]))
    rw [List.append_nil, ← List.append_assoc]
    exact h.handles.append_right [k]

/-- An action that changes a value, or drops it. What the value held and no longer holds has been
released. -/
theorem change (h : PoolAt earlier pool) {i : Nat} {c : Connection} (hc : pool.value? i = some c)
    (next? : Option Connection)
    (hclosed : ∀ c', next? = some c' → c'.isClosed = (c.isClosed || e.closes i))
    (hother : ∀ j, j ≠ i → e.closes j = false) (hsame : ∀ c', next? = some c' → c'.path = c.path)
    (hpath : e.openedPath? = none) (hopened : openedIn e.notes = [])
    (hreleased : c.native?.toList = releasedIn e.notes ++ (next?.bind (·.native?)).toList) :
    PoolAt (earlier ++ [e]) (pool.set i next?) := by
  have hlt := Pool.lt_of_value hc
  have hpaths : (earlier ++ [e]).filterMap (·.openedPath?) =
      earlier.filterMap (·.openedPath?) := by
    rw [paths_append, hpath]
    exact List.append_nil _
  refine ⟨?closed, ?fresh, ?length, ?path, ?handles⟩
  case closed =>
    intro j c' hc'
    rw [any_closes_append]
    by_cases hj : i = j
    · subst hj
      rw [Pool.value?_set_self hlt] at hc'
      rw [hclosed c' hc', h.closed i c hc]
    · rw [Pool.value?_set_ne hj] at hc'
      rw [hother j (Ne.symm hj), Bool.or_false]
      exact h.closed j c' hc'
  case fresh =>
    intro j hj
    rw [List.length_set] at hj
    have hne : j ≠ i := by omega
    rw [any_closes_append, hother j hne, Bool.or_false]
    exact h.fresh j hj
  case length =>
    rw [hpaths, List.length_set]
    exact h.length
  case path =>
    intro j c' hc'
    rw [hpaths]
    by_cases hj : i = j
    · subst hj
      rw [Pool.value?_set_self hlt] at hc'
      rw [hsame c' hc']
      exact h.path i c hc
    · rw [Pool.value?_set_ne hj] at hc'
      exact h.path j c' hc'
  case handles =>
    rw [notes_append, openedIn_append, releasedIn_append, hopened, List.append_nil]
    -- what the value held is what was released now and what it still holds
    have hheld : pool.handles.Perm (releasedIn e.notes ++ Pool.handles (pool.set i next?)) := by
      refine (Pool.handles_perm hc).trans ?_
      rw [hreleased, List.append_assoc]
      exact (Pool.handles_set_perm hlt next?).symm.append_left _
    refine h.handles.trans ?_
    rw [List.append_assoc]
    exact hheld.append_left _

end PoolAt

/-! ## One turn -/

section Turn

variable (n : Native σ)

/-- What there is to tell of an action. -/
def HostAction.entry (pool : Pool) (action : HostAction) (b : σ) : HostEntry σ :=
  let p := (action.act n pool).run b
  let i := action.place pool
  ⟨action, b, action.notes n pool b, p.1.1, p.2, pool.value? i, p.1.2.value? i⟩

/-- What an action leads to. -/
def HostAction.next (pool : Pool) (action : HostAction) (b : σ) : Pool :=
  ((action.act n pool).run b).1.2

variable {earlier : List (HostEntry σ)} {pool : Pool} {b after : σ}

theorem entry_of_act {action : HostAction} {answer : HostAnswer} {pool' : Pool}
    (h : (action.act n pool).run b = ((answer, pool'), after)) :
    action.entry n pool b = ⟨action, b, action.notes n pool b, answer, after,
        pool.value? (action.place pool), pool'.value? (action.place pool)⟩ ∧
      action.next n pool b = pool' := by
  unfold HostAction.entry HostAction.next
  rw [h]
  exact ⟨rfl, rfl⟩

/-- Opening a database is as expected. -/
theorem open_spec (hpool : PoolAt earlier pool) (how : Opening) (b : σ) :
    ((HostAction.openNew how).entry n pool b).Lawful earlier ∧
      PoolAt (earlier ++ [(HostAction.openNew how).entry n pool b])
        ((HostAction.openNew how).next n pool b) := by
  have hown : (HostAction.openNew how).notes n pool b =
      ((how.run n.tracking).run ⟨b, []⟩).2.own := by
    unfold HostAction.notes HostAction.act
    rw [run_bind]
    cases ((how.run n.tracking).run ⟨b, []⟩).1 <;> rfl
  have hnotes := how.run_notes n b
  cases hrun : (how.run n).run b with
  | mk answer after =>
    rw [hrun, ← hown] at hnotes
    cases answer with
    | ok c =>
      obtain ⟨k, hnotes, rfl⟩ := hnotes
      have hact : ((HostAction.openNew how).act n pool).run b =
          ((.opened (.ok ⟨some k, how.path, []⟩), pool ++ [some ⟨some k, how.path, []⟩]),
            after) := by
        unfold HostAction.act
        rw [run_bind, hrun]
        rfl
      obtain ⟨hentry, hnext⟩ := entry_of_act n hact
      rw [hentry, hnext]
      refine ⟨⟨_, rfl, ?_, nofun⟩, hpool.add (fun _ => rfl) rfl rfl hnotes⟩
      rintro _ ⟨⟩
      exact ⟨k, hnotes, rfl, Pool.value?_append_self⟩
    | error error =>
      have hact : ((HostAction.openNew how).act n pool).run b =
          ((.opened (.error error), pool), after) := by
        unfold HostAction.act
        rw [run_bind, hrun]
        rfl
      obtain ⟨hentry, hnext⟩ := entry_of_act n hact
      have hnone : pool.value? pool.length = none := by
        unfold Pool.value?
        rw [List.getElem?_eq_none (Nat.le_refl _)]
        rfl
      rw [hentry, hnext]
      refine ⟨⟨_, rfl, nofun, fun _ _ => ⟨hnone, hnotes⟩⟩, hpool.keep (fun _ => rfl) rfl ?_⟩
      show openedIn _ = releasedIn _
      rcases hnotes with hnotes | ⟨k, failure?, hnotes⟩
      · rw [hnotes]
        rfl
      · rw [hnotes]
        rfl

/-- An action on a value that is not there does nothing. -/
theorem absent_entry (action : HostAction) (hvalue : pool.value? (action.place pool) = none)
    (hact : ∀ {τ : Type} (m : Native τ) (w : τ),
      (action.act m pool).run w = ((.absent, pool), w)) :
    action.entry n pool b = ⟨action, b, [], .absent, b, none, none⟩ ∧
      action.next n pool b = pool := by
  have hown : action.notes n pool b = [] := by
    unfold HostAction.notes
    rw [hact]
  obtain ⟨hentry, hnext⟩ := entry_of_act n (hact n b)
  rw [hown, hvalue] at hentry
  exact ⟨hentry, hnext⟩

/-- A call of a value is as expected. -/
theorem call_spec (hpool : PoolAt earlier pool) (i : Nat) (call : ConnectionCall) (b : σ) :
    ((HostAction.call i call).entry n pool b).Lawful earlier ∧
      PoolAt (earlier ++ [(HostAction.call i call).entry n pool b])
        ((HostAction.call i call).next n pool b) := by
  cases hvalue : pool.value? i with
  | none =>
    obtain ⟨hentry, hnext⟩ := absent_entry n (b := b) (.call i call) hvalue
      (by intro τ m w; unfold HostAction.act; simp only [hvalue]; rfl)
    rw [hentry, hnext]
    exact ⟨⟨rfl, rfl, rfl, rfl⟩, hpool.keep (fun _ => rfl) rfl rfl⟩
  | some c =>
    have hact : ((HostAction.call i call).act n pool).run b =
        let p := (c.perform n call).run b
        ((.called p.1.1, pool.set i (some p.1.2)), p.2) := by
      unfold HostAction.act
      simp only [hvalue]
      rfl
    have hown : (HostAction.call i call).notes n pool b =
        ((c.perform n.tracking call).run ⟨b, []⟩).2.own := by
      unfold HostAction.notes HostAction.act
      simp only [hvalue]
      rfl
    have heffect := perform_effect n c call b
    obtain ⟨hentry, hnext⟩ := entry_of_act n hact
    rw [hnext, hentry, hown]
    show HostEntry.Lawful earlier (HostEntry.mk _ _ _ _ _ (pool.value? i)
      (Pool.value? (pool.set i _) i)) ∧ _
    rw [Pool.value?_set_self (Pool.lt_of_value hvalue), hvalue]
    constructor
    · show CallLawful (earlier.any (·.closes i)) call c _
      rw [← hpool.closed i c hvalue]
      exact heffect.lawful rfl
    · refine hpool.change hvalue (some _) ?_ ?_ ?_ rfl heffect.opened heffect.held
      · rintro _ ⟨⟩
        show _ = (c.isClosed || (decide (i = i) && call.isClose))
        rw [decide_eq_true rfl, Bool.true_and]
        exact heffect.isClosed
      · intro j hj
        show (decide (i = j) && call.isClose) = false
        rw [decide_eq_false (Ne.symm hj), Bool.false_and]
      · rintro _ ⟨⟩
        exact heffect.path

/-- Dropping a value is as expected. -/
theorem drop_spec (hpool : PoolAt earlier pool) (i : Nat) (b : σ) :
    ((HostAction.drop i).entry n pool b).Lawful earlier ∧
      PoolAt (earlier ++ [(HostAction.drop i).entry n pool b])
        ((HostAction.drop i).next n pool b) := by
  cases hvalue : pool.value? i with
  | none =>
    obtain ⟨hentry, hnext⟩ := absent_entry n (b := b) (.drop i) hvalue
      (by intro τ m w; unfold HostAction.act; simp only [hvalue]; rfl)
    rw [hentry, hnext]
    exact ⟨⟨rfl, rfl, rfl, rfl⟩, hpool.keep (fun _ => rfl) rfl rfl⟩
  | some c =>
    have hact : ((HostAction.drop i).act n pool).run b =
        ((.dropped, pool.set i none), ((c.drop n).run b).2) := by
      unfold HostAction.act
      simp only [hvalue]
      rfl
    have hown : (HostAction.drop i).notes n pool b =
        ((c.drop n.tracking).run ⟨b, []⟩).2.own := by
      unfold HostAction.notes HostAction.act
      simp only [hvalue]
      rfl
    obtain ⟨hentry, hnext⟩ := entry_of_act n hact
    have hclosed := hpool.closed i c hvalue
    have hplace : Pool.value? (pool.set i none) i = none :=
      Pool.value?_set_self (Pool.lt_of_value hvalue) _
    rw [hentry, hnext, hown]
    show HostEntry.Lawful earlier (HostEntry.mk _ _ _ _ _ (pool.value? i)
      (Pool.value? (pool.set i none) i)) ∧ _
    rw [hvalue, hplace]
    show DropLawful (earlier.any (·.closes i)) c _ ∧ _
    rw [← hclosed]
    cases hnative : c.native? with
    | none =>
      rw [drop_closed n.tracking hnative, drop_closed n hnative, isClosed_of_none hnative]
      refine ⟨⟨rfl, fun _ => ⟨rfl, rfl⟩, nofun⟩, ?_⟩
      refine hpool.change hvalue none nofun (fun _ _ => rfl) nofun rfl rfl ?_
      rw [hnative]
      rfl
    | some k =>
      rw [drop_open n hnative, isClosed_of_some hnative]
      refine ⟨⟨rfl, nofun, fun _ => ⟨k, _, hnative, rfl⟩⟩, ?_⟩
      refine hpool.change hvalue none nofun (fun _ _ => rfl) nofun rfl rfl ?_
      rw [hnative]
      rfl

/-- Every turn is as expected. -/
theorem take_spec (hpool : PoolAt earlier pool) (t : HostTurn σ) (w : σ) :
    let p := ((t.take n pool).run w).1
    p.1.Lawful earlier ∧ PoolAt (earlier ++ [p.1]) p.2 := by
  obtain ⟨meanwhile, action⟩ := t
  cases action with
  | openNew how => exact open_spec n hpool how (meanwhile w)
  | call i call => exact call_spec n hpool i call (meanwhile w)
  | drop i => exact drop_spec n hpool i (meanwhile w)

end Turn

/-! ## All turns -/

/-- All turns are as expected, given the actions before them. -/
theorem takeTurns_spec (n : Native σ) (turns : List (HostTurn σ)) :
    ∀ {earlier : List (HostEntry σ)} {pool : Pool}, PoolAt earlier pool → ∀ w,
      let p := ((takeTurns n pool turns).run w).1
      PoolAt (earlier ++ p.1) p.2 ∧
        ∀ before e after, p.1 = before ++ e :: after → e.Lawful (earlier ++ before) := by
  induction turns with
  | nil =>
    intro earlier pool hpool w
    refine ⟨?_, ?_⟩
    · show PoolAt (earlier ++ []) pool
      rw [List.append_nil]
      exact hpool
    · intro before e after h
      exact absurd h.symm (List.append_ne_nil_of_right_ne_nil _ (List.cons_ne_nil _ _))
  | cons t rest ih =>
    intro earlier pool hpool w
    let p := (t.take n pool).run w
    obtain ⟨hlawful, hnext⟩ : p.1.1.Lawful earlier ∧ PoolAt (earlier ++ [p.1.1]) p.1.2 :=
      take_spec n hpool t w
    obtain ⟨hlast, hrest⟩ := ih hnext p.2
    refine ⟨?_, ?_⟩
    · rw [List.append_assoc] at hlast
      exact hlast
    · intro before e after h
      have h : p.1.1 :: ((takeTurns n p.1.2 rest).run p.2).1.1 = before ++ e :: after := h
      cases before with
      | nil =>
        obtain ⟨rfl, -⟩ := List.cons.inj h
        rw [List.append_nil]
        exact hlawful
      | cons first before =>
        obtain ⟨rfl, htail⟩ := List.cons.inj h
        have hlater := hrest before e after htail
        rw [List.append_assoc] at hlater
        exact hlater

/-- Whatever a host does with connections, and whatever the engine answers: a connection that has
been closed refuses every call without effect, and every connection that the engine made is
released exactly once or still held by one value. -/
theorem host_lawful (n : Native σ) (turns : List (HostTurn σ)) (w : σ) :
    let p := ((takeTurns n [] turns).run w).1
    LawfulHost p.1 p.2 := by
  obtain ⟨hpool, hactions⟩ := takeTurns_spec n turns PoolAt.nil w
  exact ⟨hactions, hpool.closed, hpool.path, hpool.handles⟩

end HostSql
