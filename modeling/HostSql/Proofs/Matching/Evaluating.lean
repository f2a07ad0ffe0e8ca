import HostSql.Engine.Cursor
import HostSql.Proofs.Matching.Worlds

/-!
# Terms and plans are evaluated alike

In matched worlds, related terms have the same value and related plans deliver the same rows, whatever
the functions of the host do on the way: `Term.eval_linked`, `Cursor.next_linked`. The proofs follow the
evaluators, with a case for each constructor.
-/

namespace HostSql.Engine

variable {H H' : Type} {M : Matching} {G : H → H' → Prop}

/-! ## Databases -/

theorem currentDatabase_linked {k l : Nat} (h : M.Same k l) :
    LinkedRun (Matched M G) Eq (currentDatabase k) (currentDatabase l) := by
  unfold currentDatabase
  refine (connectionOf_linked h).bind fun c c' hc => ?_
  cases hc with
  | mk c hv _ =>
    dsimp only
    cases c.draft with
    | some db => exact .same db
    | none =>
      refine .get_bind fun w w' hw => ?_
      have hfound := hw.volumes.get? M.oneToOne hv
      revert hfound
      generalize w.volumes.get? _ = x
      generalize w'.volumes.get? _ = y
      intro hfound
      cases hfound with
      | some hvolume =>
        obtain ⟨heq, _⟩ := hvolume
        subst heq
        exact .ofExcept (.same _)
      | none => exact .same _

/-! ## Terms -/

section Terms

variable {scope : Scope H} {scope' : Scope H'} (h : scope.Linked M G scope')

include h

theorem callHost_linked {r r' : Nat} (hr : M.Same r r') (args : List Datum) :
    LinkedRun (Matched M G) Eq (callHost scope r args) (callHost scope' r' args) := by
  unfold callHost
  refine (LinkedRun.lift (h.hooks.call hr none args)).bind_same fun reply => ?_
  split
  · exact .same _
  · exact .throw _

end Terms

mutual

/-- Related terms have the same value. -/
theorem Term.eval_linked {scope : Scope H} {scope' : Scope H'} (h : scope.Linked M G scope')
    (row : Row) : ∀ (t : Term) {t' : Term}, t.Same M.Same t' →
      LinkedRun (Matched M G) Eq (t.eval scope row) (t'.eval scope' row)
  | .value d, _, .value _ => by
    simp only [Term.eval]
    exact .same d
  | .column i, _, .column _ => by
    simp only [Term.eval]
    exact .same _
  | .negate e, _, .negate he => by
    simp only [Term.eval]
    exact (e.eval_linked h row he).bind_same fun d => .same _
  | .bitNot e, _, .bitNot he => by
    simp only [Term.eval]
    exact (e.eval_linked h row he).bind_same fun d => .same _
  | .not e, _, .not he => by
    simp only [Term.eval]
    exact (e.eval_linked h row he).bind_same fun d => .same _
  | .isNull e, _, .isNull he => by
    simp only [Term.eval]
    exact (e.eval_linked h row he).bind_same fun d => .same _
  | .and l r, _, .and hl hr => by
    simp only [Term.eval]
    exact (l.eval_linked h row hl).bind_same fun a => (r.eval_linked h row hr).bind_same fun b => .same _
  | .or l r, _, .or hl hr => by
    simp only [Term.eval]
    exact (l.eval_linked h row hl).bind_same fun a => (r.eval_linked h row hr).bind_same fun b => .same _
  | .arithmetic op l r, _, .arithmetic _ hl hr => by
    simp only [Term.eval]
    exact (l.eval_linked h row hl).bind_same fun a => (r.eval_linked h row hr).bind_same fun b => .same _
  | .compare op rule l r, _, .compare _ _ hl hr => by
    simp only [Term.eval]
    exact (l.eval_linked h row hl).bind_same fun a => (r.eval_linked h row hr).bind_same fun b => .same _
  | .same negated rule l r, _, .same _ _ hl hr => by
    simp only [Term.eval]
    exact (l.eval_linked h row hl).bind_same fun a => (r.eval_linked h row hr).bind_same fun b => .same _
  | .between low high e l u, _, .between _ _ he hl hu => by
    simp only [Term.eval]
    exact (e.eval_linked h row he).bind_same fun d => (l.eval_linked h row hl).bind_same fun a =>
      (u.eval_linked h row hu).bind_same fun b => .same _
  | .among rule e items, _, .among _ he hitems => by
    simp only [Term.eval]
    exact (e.eval_linked h row he).bind_same fun d =>
      (Term.evalAll_linked h row items hitems).bind_same fun ds => .same _
  | .choice items, _, .choice hitems => by
    simp only [Term.eval]
    exact Term.evalChoice_linked h row items hitems
  | .select rule operand items, _, .select _ he hitems => by
    simp only [Term.eval]
    exact (operand.eval_linked h row he).bind_same fun d =>
      Term.evalSelect_linked h row rule d items hitems
  | .coalesce items, _, .coalesce hitems => by
    simp only [Term.eval]
    exact Term.evalFirst_linked h row items hitems
  | .cast a e, _, .cast _ he => by
    simp only [Term.eval]
    exact (e.eval_linked h row he).bind_same fun d => .same _
  | .scalar f args, _, .scalar _ hargs => by
    simp only [Term.eval]
    refine (Term.evalAll_linked h row args hargs).bind_same fun ds => ?_
    refine (connectionOf_linked h.connection).bind fun c c' hc => ?_
    cases hc with
    | mk c _ _ =>
      dsimp only
      cases f.eval c.counters ds with
      | ok d => exact .same d
      | error message => exact .throw _
  | .host record args, _, .host hr hargs => by
    simp only [Term.eval]
    exact (Term.evalAll_linked h row args hargs).bind_same fun ds => callHost_linked h hr ds

theorem Term.evalAll_linked {scope : Scope H} {scope' : Scope H'} (h : scope.Linked M G scope')
    (row : Row) : ∀ (ts : List Term) {ts' : List Term}, List.Forall₂ (Term.Same M.Same) ts ts' →
      LinkedRun (Matched M G) Eq (Term.evalAll scope row ts) (Term.evalAll scope' row ts')
  | [], _, .nil => by
    simp only [Term.evalAll]
    exact .same []
  | t :: ts, _, .cons ht hts => by
    simp only [Term.evalAll]
    exact (t.eval_linked h row ht).bind_same fun d =>
      (Term.evalAll_linked h row ts hts).bind_same fun ds => .same _

theorem Term.evalChoice_linked {scope : Scope H} {scope' : Scope H'} (h : scope.Linked M G scope')
    (row : Row) : ∀ (ts : List Term) {ts' : List Term}, List.Forall₂ (Term.Same M.Same) ts ts' →
      LinkedRun (Matched M G) Eq (Term.evalChoice scope row ts) (Term.evalChoice scope' row ts')
  | [], _, .nil => by
    simp only [Term.evalChoice]
    exact .same _
  | [other], _, .cons hother .nil => by
    simp only [Term.evalChoice]
    exact other.eval_linked h row hother
  | c :: v :: rest, _, .cons hc (.cons hv hrest) => by
    simp only [Term.evalChoice]
    refine (c.eval_linked h row hc).bind_same fun d => ?_
    split
    · exact v.eval_linked h row hv
    · exact Term.evalChoice_linked h row rest hrest

theorem Term.evalSelect_linked {scope : Scope H} {scope' : Scope H'} (h : scope.Linked M G scope')
    (row : Row) (rule : CompareRule) (operand : Datum) :
    ∀ (ts : List Term) {ts' : List Term}, List.Forall₂ (Term.Same M.Same) ts ts' →
      LinkedRun (Matched M G) Eq (Term.evalSelect scope row rule operand ts)
        (Term.evalSelect scope' row rule operand ts')
  | [], _, .nil => by
    simp only [Term.evalSelect]
    exact .same _
  | [other], _, .cons hother .nil => by
    simp only [Term.evalSelect]
    exact other.eval_linked h row hother
  | c :: v :: rest, _, .cons hc (.cons hv hrest) => by
    simp only [Term.evalSelect]
    refine (c.eval_linked h row hc).bind_same fun d => ?_
    split
    · exact v.eval_linked h row hv
    · exact Term.evalSelect_linked h row rule operand rest hrest

theorem Term.evalFirst_linked {scope : Scope H} {scope' : Scope H'} (h : scope.Linked M G scope')
    (row : Row) : ∀ (ts : List Term) {ts' : List Term}, List.Forall₂ (Term.Same M.Same) ts ts' →
      LinkedRun (Matched M G) Eq (Term.evalFirst scope row ts) (Term.evalFirst scope' row ts')
  | [], _, .nil => by
    simp only [Term.evalFirst]
    exact .same _
  | t :: ts, _, .cons ht hts => by
    simp only [Term.evalFirst]
    refine (t.eval_linked h row ht).bind_same fun d => ?_
    split
    · exact Term.evalFirst_linked h row ts hts
    · exact .same d

end

/-- Related conditions are true alike. -/
theorem Term.isTrue_linked {scope : Scope H} {scope' : Scope H'} (h : scope.Linked M G scope')
    (row : Row) (t : Term) : ∀ {t' : Term}, t.Same M.Same t' →
      LinkedRun (Matched M G) Eq (t.isTrue scope row) (t'.isTrue scope' row) := by
  induction t using Term.isTrue.induct with
  | case1 l r hl hr =>
    intro t' ht
    cases ht with
    | and hsl hsr =>
      simp only [Term.isTrue]
      refine (hl hsl).bind_same fun b => ?_
      split
      · exact hr hsr
      · exact .same false
  | case2 l r hl hr =>
    intro t' ht
    cases ht with
    | or hsl hsr =>
      simp only [Term.isTrue]
      refine (hl hsl).bind_same fun b => ?_
      split
      · exact .same true
      · exact hr hsr
  | case3 t hand hor =>
    intro t' ht
    have hand' : ∀ l r, t' ≠ .and l r := by
      intro l r heq
      subst heq
      cases ht
      exact hand _ _ rfl
    have hor' : ∀ l r, t' ≠ .or l r := by
      intro l r heq
      subst heq
      cases ht
      exact hor _ _ rfl
    rw [Term.isTrue, Term.isTrue]
    · exact (t.eval_linked h row ht).bind_same fun d => .same _
    all_goals first | exact hand | exact hor | exact hand' | exact hor'

/-! ## Groups -/

/-- States of aggregate calls that are the same but for numbers. -/
inductive Total.Same (same : Nat → Nat → Prop) : Total → Total → Prop
  | builtin (a : Accumulator) : Same same (.builtin a) (.builtin a)
  | host {r r'} (hrecord : same r r') (slot : Option Nat) : Same same (.host r slot) (.host r' slot)

/-- Aggregate calls on groups that are the same but for numbers. -/
inductive Feeding.Same (same : Nat → Nat → Prop) : Feeding → Feeding → Prop
  | mk {c c' t t'} (hcall : c.Same same c') (htotal : t.Same same t') (seen : List (List Datum)) :
      Same same ⟨c, t, seen⟩ ⟨c', t', seen⟩

/-- Results that are the same but for numbers, with the same failure or none. -/
def WithFault {α : Type} (A : α → α → Prop) (p p' : α × Option Fault) : Prop :=
  A p.1 p'.1 ∧ p.2 = p'.2

theorem Feeding.begin_same {same : Nat → Nat → Prop} {c c' : AggregateCall} (h : c.Same same c') :
    (begin c).Same same (begin c') := by
  cases h with
  | mk htarget hargs distinct =>
    refine .mk (.mk htarget hargs distinct) ?_ []
    cases htarget with
    | builtin f => exact .builtin _
    | host hr => exact .host hr none

/-- Groups begin alike. -/
theorem Feeding.beginAll_same {same : Nat → Nat → Prop} {cs cs' : List AggregateCall}
    (h : List.Forall₂ (AggregateCall.Same same) cs cs') :
    List.Forall₂ (Feeding.Same same) (cs.map begin) (cs'.map begin) :=
  List.rel_map (fun _ _ hc => begin_same hc) h

section Groups

variable {scope : Scope H} {scope' : Scope H'} (h : scope.Linked M G scope')

include h

theorem Feeding.take_linked {f f' : Feeding} (hf : f.Same M.Same f') (ds : List Datum) :
    Linked (Matched M G) (WithFault (Feeding.Same M.Same)) (f.take scope ds) (f'.take scope' ds) := by
  cases hf with
  | mk hcall htotal seen =>
    unfold Feeding.take
    cases htotal with
    | builtin a => exact .pure ⟨.mk hcall (.builtin _) seen, rfl⟩
    | host hr slot =>
      refine (h.hooks.call hr slot ds).bind_same fun reply => ?_
      have hfed := Feeding.Same.mk hcall (.host hr reply.slot) seen
      dsimp only
      split
      · exact .pure ⟨hfed, rfl⟩
      · exact .pure ⟨hfed, rfl⟩

theorem Feeding.feed_linked (row : Row) {f f' : Feeding} (hf : f.Same M.Same f') :
    Linked (Matched M G) (WithFault (Feeding.Same M.Same)) (f.feed scope row)
      (f'.feed scope' row) := by
  cases hf with
  | mk hcall htotal seen =>
    have hfeeding := Feeding.Same.mk hcall htotal seen
    cases hcall with
    | mk htarget hargs distinct =>
      unfold Feeding.feed
      refine Linked.bind (Term.evalAll_linked h row _ hargs) fun result result' hresult => ?_
      cases hresult with
      | error fault => exact .pure ⟨hfeeding, rfl⟩
      | ok heq =>
        subst heq
        dsimp only
        split
        · exact take_linked h hfeeding _
        · split
          · exact .pure ⟨hfeeding, rfl⟩
          · exact take_linked h (.mk (.mk htarget hargs distinct) htotal _) _

theorem Feeding.feedAll_linked (row : Row) {fs fs' : List Feeding}
    (hfs : List.Forall₂ (Feeding.Same M.Same) fs fs') :
    Linked (Matched M G) (WithFault (List.Forall₂ (Feeding.Same M.Same))) (feedAll scope row fs)
      (feedAll scope' row fs') := by
  induction hfs with
  | nil => exact .pure ⟨.nil, rfl⟩
  | cons hf hrest ih =>
    unfold Feeding.feedAll
    refine (feed_linked h row hf).bind fun r r' hr => ?_
    obtain ⟨f, fault⟩ := r
    obtain ⟨f', fault'⟩ := r'
    obtain ⟨hfed, heq⟩ := hr
    cases heq
    refine .ite (.pure ⟨.cons hfed hrest, rfl⟩) (ih.bind fun r r' hr => ?_)
    exact .pure ⟨.cons hfed hr.1, hr.2⟩

theorem Feeding.abandon_linked {fs fs' : List Feeding}
    (hfs : List.Forall₂ (Feeding.Same M.Same) fs fs') :
    Linked (Matched M G) Eq (abandon scope fs) (abandon scope' fs') := by
  induction hfs with
  | nil => exact .same ()
  | cons hf _ ih =>
    unfold Feeding.abandon
    cases hf with
    | mk _ htotal _ =>
      cases htotal with
      | builtin a => exact (Linked.same ()).bind_same fun _ => ih
      | host hr slot =>
        cases slot with
        | none => exact (Linked.same ()).bind_same fun _ => ih
        | some id => exact (h.hooks.discard hr id).bind_same fun _ => ih

theorem Feeding.conclude_linked {f f' : Feeding} (hf : f.Same M.Same f') :
    LinkedRun (Matched M G) Eq (f.conclude scope) (f'.conclude scope') := by
  cases hf with
  | mk _ htotal _ =>
    unfold Feeding.conclude
    cases htotal with
    | builtin a =>
      refine (LinkedRun.same _).bind_same fun result => ?_
      cases result with
      | ok d => exact .same d
      | error message => exact .throw _
    | host hr slot =>
      refine (LinkedRun.lift (h.hooks.finish hr slot)).bind_same fun reply => ?_
      refine (LinkedRun.same _).bind_same fun result => ?_
      cases result with
      | ok d => exact .same d
      | error message => exact .throw _

theorem Feeding.concludeAll_linked {fs fs' : List Feeding}
    (hfs : List.Forall₂ (Feeding.Same M.Same) fs fs') :
    LinkedRun (Matched M G) Eq (concludeAll scope fs) (concludeAll scope' fs') := by
  induction hfs with
  | nil => exact .same []
  | cons hf hrest ih =>
    unfold Feeding.concludeAll
    refine (conclude_linked h hf).attempt.bind fun result result' hresult => ?_
    cases hresult with
    | error fault => exact (LinkedRun.lift (abandon_linked h hrest)).bind_same fun _ => .throw fault
    | ok heq =>
      subst heq
      exact ih.bind_same fun ds => .same _

theorem checkInterrupt_linked :
    LinkedRun (Matched M G) Eq (checkInterrupt scope) (checkInterrupt scope') := by
  unfold checkInterrupt
  refine (connectionOf_linked h.connection).bind fun c c' hc => ?_
  cases hc with
  | mk c _ _ => exact .ite (.throw _) (.same ())

theorem runGroup_linked (rows : List Row) {fs fs' : List Feeding}
    (hfs : List.Forall₂ (Feeding.Same M.Same) fs fs') :
    LinkedRun (Matched M G) Eq (runGroup scope fs rows) (runGroup scope' fs' rows) := by
  induction rows generalizing fs fs' with
  | nil =>
    unfold runGroup
    exact Feeding.concludeAll_linked h hfs
  | cons row rest ih =>
    unfold runGroup
    refine (LinkedRun.lift (Feeding.feedAll_linked h row hfs)).bind fun r r' hr => ?_
    obtain ⟨fs, fault⟩ := r
    obtain ⟨fs', fault'⟩ := r'
    obtain ⟨hfed, heq⟩ := hr
    cases heq
    refine (checkInterrupt_linked h).attempt.bind fun result result' hresult => ?_
    cases hresult.eq
    dsimp only
    split
    next fault _ =>
      exact (LinkedRun.lift (Feeding.abandon_linked h hfed)).bind_same fun _ => .throw fault
    next => exact ih hfed

end Groups

/-! ## Plans -/

/-- Rows that are delivered alike, with related cursors after them, or none. -/
def DeliveredAlike (same : Nat → Nat → Prop) :
    Option (Row × Cursor) → Option (Row × Cursor) → Prop :=
  Option.Rel fun p p' => p.1 = p'.1 ∧ p.2.Same same p'.2

theorem DeliveredAlike.some {same : Nat → Nat → Prop} (r : Row) {c c' : Cursor}
    (h : c.Same same c') : DeliveredAlike same (.some (r, c)) (.some (r, c')) :=
  Option.Rel.some ⟨rfl, h⟩

theorem Plan.withWorking_same {same : Nat → Nat → Prop} (row : Row) {p p' : Plan}
    (h : p.Same same p') : (p.withWorking row).Same same (p'.withWorking row) := by
  induction h with
  | rows rows => exact .rows rows
  | working => exact .rows [row]
  | values h => exact .values h
  | scan root width => exact .scan root width
  | loop _ ih => exact .loop ih
  | join _ _ ihl ihr => exact .join ihl ihr
  | filter ht _ ih => exact .filter ht ih
  | project hts _ ih => exact .project hts ih
  | total width hcs _ ih => exact .total width hcs ih
  | group hks hcs _ ih => exact .group hks hcs ih
  | sort keys _ ih => exact .sort keys ih
  | distinct _ ih => exact .distinct ih
  | limit ht ho _ ih => exact .limit ht ho ih
  | append _ _ ihl ihr => exact .append ihl ihr
  | combine op _ _ ihl ihr => exact .combine op ihl ihr
  | recursive all hl hr _ _ => exact .recursive all hl hr

section Plans

variable {scope : Scope H} {scope' : Scope H'} (h : scope.Linked M G scope')
  (hs : M.Same scope.statement scope'.statement)

include hs in
theorem checkTripped_linked :
    LinkedRun (Matched M G) Eq (checkTripped scope) (checkTripped scope') := by
  unfold checkTripped
  refine .get_bind fun w w' hw => ?_
  have hfound := statement?_linked hs hw
  revert hfound
  generalize w.statements.get? _ = x
  generalize w'.statements.get? _ = y
  intro hfound
  cases hfound with
  | none => exact .same ()
  | some hstatement =>
    cases hstatement with
    | mk s _ _ _ => exact .ite (.throw _) (.same ())

include h

theorem rowCount_linked {t t' : Term} (ht : t.Same M.Same t') :
    LinkedRun (Matched M G) Eq (rowCount scope t) (rowCount scope' t') := by
  unfold rowCount
  refine (t.eval_linked h [] ht).bind_same fun d => ?_
  split
  · exact .same _
  · exact .throw _

include hs in
theorem nextOfTable_linked (root width : Nat) (after : Option Int64) :
    LinkedRun (Matched M G) (DeliveredAlike M.Same) (nextOfTable scope root width after)
      (nextOfTable scope' root width after) := by
  unfold nextOfTable
  refine (checkTripped_linked hs).bind_same fun _ => ?_
  refine (currentDatabase_linked h.connection).bind_same fun db => ?_
  split
  · exact .pure .none
  · exact .pure (.some _ (.scan _ _ _))

omit h in
theorem Cursor.deliver_linked (all : Bool) {p p' : Plan} (hp : p.Same M.Same p')
    (queue seen : List Row) :
    LinkedRun (Matched M G) (DeliveredAlike M.Same) (Cursor.deliver all p queue seen)
      (Cursor.deliver all p' queue seen) := by
  induction queue with
  | nil => exact .pure .none
  | cons r rest ih =>
    unfold Cursor.deliver
    exact .ite ih (.pure (.some _ (.recursive _ _ _ _ hp)))

end Plans

mutual

/-- Related cursors deliver the same row. -/
theorem Cursor.next_linked {scope : Scope H} {scope' : Scope H'} (h : scope.Linked M G scope')
    (hs : M.Same scope.statement scope'.statement) : ∀ (fuel : Nat) {c c' : Cursor},
      c.Same M.Same c' → LinkedRun (Matched M G) (DeliveredAlike M.Same) (c.next scope fuel)
        (c'.next scope' fuel)
  | 0, _, _, _ => by
    simp only [Cursor.next]
    exact .throw _
  | fuel + 1, _, _, hc => by
    have hnext {c c' : Cursor} (hc : c.Same M.Same c') := Cursor.next_linked h hs fuel hc
    cases hc with
    | idle hp =>
      simp only [Cursor.next]
      exact Cursor.start_linked h hs fuel hp
    | done =>
      simp only [Cursor.next]
      exact .pure .none
    | rows rest =>
      cases rest with
      | nil =>
        simp only [Cursor.next]
        exact .pure .none
      | cons r rest =>
        simp only [Cursor.next]
        exact .pure (.some r (.rows rest))
    | values hrows =>
      cases hrows with
      | nil =>
        simp only [Cursor.next]
        exact .pure .none
      | cons hts hrest =>
        simp only [Cursor.next]
        exact (Term.evalAll_linked h [] _ hts).bind_same fun r => .pure (.some r (.values hrest))
    | scan root width after =>
      simp only [Cursor.next]
      exact nextOfTable_linked h hs root width (some after)
    | loop hsource =>
      simp only [Cursor.next]
      exact (checkInterrupt_linked h).bind_same fun _ => Cursor.nextOfLoop_linked h hs fuel hsource
    | join row hl hr hp =>
      simp only [Cursor.next]
      refine (hnext hr).bind fun x x' hx => ?_
      cases hx with
      | none => exact Cursor.nextOfJoin_linked h hs fuel hl hp
      | some hrow =>
        obtain ⟨heq, hright⟩ := hrow
        dsimp only
        rw [heq]
        exact .pure (.some _ (.join row hl hright hp))
    | filter ht hsource =>
      simp only [Cursor.next]
      refine (hnext hsource).bind fun x x' hx => ?_
      cases hx with
      | none => exact .pure .none
      | some hrow =>
        obtain ⟨heq, hrest⟩ := hrow
        dsimp only
        rw [heq]
        refine (Term.isTrue_linked h _ _ ht).bind_same fun b => ?_
        exact .ite (.pure (.some _ (.filter ht hrest))) (hnext (.filter ht hrest))
    | project hts hsource =>
      simp only [Cursor.next]
      refine (hnext hsource).bind fun x x' hx => ?_
      cases hx with
      | none => exact .pure .none
      | some hrow =>
        obtain ⟨heq, hrest⟩ := hrow
        dsimp only
        rw [heq]
        exact (Term.evalAll_linked h _ _ hts).bind_same fun r => .pure (.some r (.project hts hrest))
    | groups collations rest hcs =>
      simp only [Cursor.next]
      cases rest with
      | nil => exact .pure .none
      | cons first rest =>
        refine (runGroup_linked h _ (Feeding.beginAll_same hcs)).bind_same fun totals => ?_
        exact .pure (.some _ (.groups collations _ hcs))
    | distinct seen hsource =>
      simp only [Cursor.next]
      refine (hnext hsource).bind fun x x' hx => ?_
      cases hx with
      | none => exact .pure .none
      | some hrow =>
        obtain ⟨heq, hrest⟩ := hrow
        dsimp only
        rw [heq]
        exact .ite (hnext (.distinct seen hrest)) (.pure (.some _ (.distinct _ hrest)))
    | limit left hsource =>
      simp only [Cursor.next]
      refine .ite (.pure .none) ((hnext hsource).bind fun x x' hx => ?_)
      cases hx with
      | none => exact .pure .none
      | some hrow =>
        obtain ⟨heq, hrest⟩ := hrow
        dsimp only
        rw [heq]
        exact .pure (.some _ (.limit _ hrest))
    | append hfirst hp =>
      simp only [Cursor.next]
      refine (hnext hfirst).bind fun x x' hx => ?_
      cases hx with
      | none => exact hnext (.idle hp)
      | some hrow =>
        obtain ⟨heq, hrest⟩ := hrow
        dsimp only
        rw [heq]
        exact .pure (.some _ (.append hrest hp))
    | recursive all queue seen current hp =>
      simp only [Cursor.next]
      refine (checkInterrupt_linked h).bind_same fun _ => ?_
      refine (Cursor.drain_linked h hs fuel (.idle (Plan.withWorking_same current hp))).bind_same
        fun found => ?_
      exact Cursor.deliver_linked all hp _ _

theorem Cursor.start_linked {scope : Scope H} {scope' : Scope H'} (h : scope.Linked M G scope')
    (hs : M.Same scope.statement scope'.statement) : ∀ (fuel : Nat) {p p' : Plan},
      p.Same M.Same p' → LinkedRun (Matched M G) (DeliveredAlike M.Same)
        (Cursor.start scope fuel p) (Cursor.start scope' fuel p')
  | 0, _, _, _ => by
    simp only [Cursor.start]
    exact .throw _
  | fuel + 1, _, _, hp => by
    have hnext {c c' : Cursor} (hc : c.Same M.Same c') := Cursor.next_linked h hs fuel hc
    have hdrain {p p' : Plan} (hp : p.Same M.Same p') := Cursor.drain_linked h hs fuel (.idle hp)
    cases hp with
    | rows rows =>
      simp only [Cursor.start]
      exact hnext (.rows rows)
    | working =>
      simp only [Cursor.start]
      exact .pure .none
    | values hrows =>
      simp only [Cursor.start]
      exact hnext (.values hrows)
    | scan root width =>
      simp only [Cursor.start]
      exact nextOfTable_linked h hs root width none
    | loop hsource =>
      simp only [Cursor.start]
      exact Cursor.nextOfLoop_linked h hs fuel (.idle hsource)
    | join hl hr =>
      simp only [Cursor.start]
      exact Cursor.nextOfJoin_linked h hs fuel (.idle hl) hr
    | filter ht hsource =>
      simp only [Cursor.start]
      exact hnext (.filter ht (.idle hsource))
    | project hts hsource =>
      simp only [Cursor.start]
      exact hnext (.project hts (.idle hsource))
    | total width hcs hsource =>
      simp only [Cursor.start]
      refine (Cursor.feedTotal_linked h hs fuel (Feeding.beginAll_same hcs) none
        (.idle hsource)).bind_same fun r => ?_
      exact .pure (.some _ .done)
    | @group ks ks' _ _ _ _ hks hcs hsource =>
      have hkeys : List.Forall₂ (Term.Same M.Same) (ks.map (·.1)) (ks'.map (·.1)) :=
        List.rel_map (fun k k' hk => hk.1) hks
      have hcollations : ks.map (·.2) = ks'.map (·.2) := forall₂_map_eq hks fun k k' hk => hk.2
      simp only [Cursor.start]
      rw [hcollations]
      refine (Cursor.drainKeyed_linked h hs fuel hkeys (.idle hsource)).bind_same fun rows => ?_
      exact hnext (.groups _ _ hcs)
    | sort keys hsource =>
      simp only [Cursor.start]
      refine (hdrain hsource).bind_same fun rows => ?_
      exact Cursor.nextOfLoop_linked h hs fuel (.rows _)
    | distinct hsource =>
      simp only [Cursor.start]
      exact hnext (.distinct [] (.idle hsource))
    | @limit _ _ _ _ p p' ht ho hsource =>
      have hrest (n skip : Int) : LinkedRun (Matched M G) (DeliveredAlike M.Same)
          (do
            if n = 0 then return none
            let source ← Cursor.skip scope fuel skip.toNat (.idle p)
            if n < 0 then Cursor.next scope fuel source
            else Cursor.next scope fuel (.limit n.toNat source))
          (do
            if n = 0 then return none
            let source ← Cursor.skip scope' fuel skip.toNat (.idle p')
            if n < 0 then Cursor.next scope' fuel source
            else Cursor.next scope' fuel (.limit n.toNat source)) := by
        refine .ite (.pure .none) ?_
        refine (Cursor.skip_linked h hs fuel _ (.idle hsource)).bind fun c c' hc => ?_
        exact .ite (hnext hc) (hnext (.limit _ hc))
      simp only [Cursor.start]
      refine (rowCount_linked h ht).bind_same fun n => ?_
      cases ho with
      | none => exact (LinkedRun.same _).bind_same (hrest n)
      | some ho => exact (rowCount_linked h ho).bind_same (hrest n)
    | append hl hr =>
      simp only [Cursor.start]
      exact hnext (.append (.idle hl) hr)
    | combine op hl hr =>
      simp only [Cursor.start]
      refine (hdrain hl).bind_same fun l => (hdrain hr).bind_same fun r => ?_
      exact Cursor.nextOfLoop_linked h hs fuel (.rows _)
    | recursive all hl hr =>
      simp only [Cursor.start]
      exact (hdrain hl).bind_same fun found => Cursor.deliver_linked all hr _ _

theorem Cursor.nextOfLoop_linked {scope : Scope H} {scope' : Scope H'} (h : scope.Linked M G scope')
    (hs : M.Same scope.statement scope'.statement) : ∀ (fuel : Nat) {c c' : Cursor},
      c.Same M.Same c' → LinkedRun (Matched M G) (DeliveredAlike M.Same)
        (Cursor.nextOfLoop scope fuel c) (Cursor.nextOfLoop scope' fuel c')
  | 0, _, _, _ => by
    simp only [Cursor.nextOfLoop]
    exact .throw _
  | fuel + 1, _, _, hc => by
    simp only [Cursor.nextOfLoop]
    refine (Cursor.next_linked h hs fuel hc).bind fun x x' hx => ?_
    cases hx with
    | none => exact .pure .none
    | some hrow =>
      obtain ⟨heq, hrest⟩ := hrow
      dsimp only
      rw [heq]
      exact .pure (.some _ (.loop hrest))

theorem Cursor.nextOfJoin_linked {scope : Scope H} {scope' : Scope H'} (h : scope.Linked M G scope')
    (hs : M.Same scope.statement scope'.statement) : ∀ (fuel : Nat) {c c' : Cursor},
      c.Same M.Same c' → ∀ {p p' : Plan}, p.Same M.Same p' →
        LinkedRun (Matched M G) (DeliveredAlike M.Same) (Cursor.nextOfJoin scope fuel c p)
          (Cursor.nextOfJoin scope' fuel c' p')
  | 0, _, _, _, _, _, _ => by
    simp only [Cursor.nextOfJoin]
    exact .throw _
  | fuel + 1, _, _, hc, _, _, hp => by
    simp only [Cursor.nextOfJoin]
    refine (Cursor.next_linked h hs fuel hc).bind fun x x' hx => ?_
    cases hx with
    | none => exact .pure .none
    | some hrow =>
      obtain ⟨heq, hrest⟩ := hrow
      dsimp only
      rw [heq]
      exact Cursor.next_linked h hs fuel (.join _ hrest (.idle hp) hp)

theorem Cursor.drain_linked {scope : Scope H} {scope' : Scope H'} (h : scope.Linked M G scope')
    (hs : M.Same scope.statement scope'.statement) : ∀ (fuel : Nat) {c c' : Cursor},
      c.Same M.Same c' → LinkedRun (Matched M G) Eq (Cursor.drain scope fuel c)
        (Cursor.drain scope' fuel c')
  | 0, _, _, _ => by
    simp only [Cursor.drain]
    exact .throw _
  | fuel + 1, _, _, hc => by
    simp only [Cursor.drain]
    refine (Cursor.next_linked h hs fuel hc).bind fun x x' hx => ?_
    cases hx with
    | none => exact .same []
    | some hrow =>
      obtain ⟨heq, hrest⟩ := hrow
      dsimp only
      rw [heq]
      exact (Cursor.drain_linked h hs fuel hrest).bind_same fun rows => .same _

theorem Cursor.drainKeyed_linked {scope : Scope H} {scope' : Scope H'} (h : scope.Linked M G scope')
    (hs : M.Same scope.statement scope'.statement) : ∀ (fuel : Nat) {ks ks' : List Term},
      List.Forall₂ (Term.Same M.Same) ks ks' → ∀ {c c' : Cursor}, c.Same M.Same c' →
        LinkedRun (Matched M G) Eq (Cursor.drainKeyed scope fuel ks c)
          (Cursor.drainKeyed scope' fuel ks' c')
  | 0, _, _, _, _, _, _ => by
    simp only [Cursor.drainKeyed]
    exact .throw _
  | fuel + 1, _, _, hks, _, _, hc => by
    simp only [Cursor.drainKeyed]
    refine (Cursor.next_linked h hs fuel hc).bind fun x x' hx => ?_
    cases hx with
    | none => exact .same []
    | some hrow =>
      obtain ⟨heq, hrest⟩ := hrow
      dsimp only
      rw [heq]
      refine (Term.evalAll_linked h _ _ hks).bind_same fun key => ?_
      exact (Cursor.drainKeyed_linked h hs fuel hks hrest).bind_same fun rows => .same _

theorem Cursor.skip_linked {scope : Scope H} {scope' : Scope H'} (h : scope.Linked M G scope')
    (hs : M.Same scope.statement scope'.statement) : ∀ (fuel n : Nat) {c c' : Cursor},
      c.Same M.Same c' → LinkedRun (Matched M G) (Cursor.Same M.Same) (Cursor.skip scope fuel n c)
        (Cursor.skip scope' fuel n c')
  | 0, _, _, _, _ => by
    simp only [Cursor.skip]
    exact .throw _
  | _ + 1, 0, _, _, hc => by
    simp only [Cursor.skip]
    exact .pure hc
  | fuel + 1, n + 1, _, _, hc => by
    simp only [Cursor.skip]
    refine (Cursor.next_linked h hs fuel hc).bind fun x x' hx => ?_
    cases hx with
    | none => exact .pure .done
    | some hrow => exact Cursor.skip_linked h hs fuel n hrow.2

theorem Cursor.feedTotal_linked {scope : Scope H} {scope' : Scope H'} (h : scope.Linked M G scope')
    (hs : M.Same scope.statement scope'.statement) : ∀ (fuel : Nat) {fs fs' : List Feeding},
      List.Forall₂ (Feeding.Same M.Same) fs fs' → ∀ (first : Option Row) {c c' : Cursor},
        c.Same M.Same c' → LinkedRun (Matched M G) Eq (Cursor.feedTotal scope fuel fs first c)
          (Cursor.feedTotal scope' fuel fs' first c')
  | 0, _, _, _, _, _, _, _ => by
    simp only [Cursor.feedTotal]
    exact .throw _
  | fuel + 1, _, _, hfs, first, _, _, hc => by
    simp only [Cursor.feedTotal]
    refine (Cursor.next_linked h hs fuel hc).attempt.bind fun result result' hresult => ?_
    cases hresult with
    | error fault => exact (LinkedRun.lift (Feeding.abandon_linked h hfs)).bind_same fun _ => .throw fault
    | ok hx =>
      cases hx with
      | none => exact (Feeding.concludeAll_linked h hfs).bind_same fun ds => .same _
      | some hrow =>
        obtain ⟨heq, hrest⟩ := hrow
        dsimp only
        rw [heq]
        refine (LinkedRun.lift (Feeding.feedAll_linked h _ hfs)).bind fun r r' hr => ?_
        obtain ⟨fs, fault⟩ := r
        obtain ⟨fs', fault'⟩ := r'
        obtain ⟨hfed, heq⟩ := hr
        cases heq
        cases fault with
        | none => exact Cursor.feedTotal_linked h hs fuel hfed _ hrest
        | some fault =>
          exact (LinkedRun.lift (Feeding.abandon_linked h hfed)).bind_same fun _ => .throw fault

end

end HostSql.Engine
