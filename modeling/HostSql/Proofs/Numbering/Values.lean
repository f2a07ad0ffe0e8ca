import HostSql.Engine.Cursor
import HostSql.Proofs.Engine.Ledger
import HostSql.Proofs.Matching.Numbers

/-!
# The numbers in values

That all numbers in a value have some property is said by relating the value to itself: `Below n` relates
the numbers below `n` to themselves. What two relations say of a value is one relation (`confine`), so
what is related to a value whose numbers are known is related through known numbers only.

> `Cursor.next_numbers`: what a cursor becomes holds no number that it did not hold.
-/

namespace HostSql

/-- The numbers below `n`, which stand for themselves. -/
def Below (n k l : Nat) : Prop := k = l ∧ k < n

theorem Below.mono {m n k l : Nat} (hmn : m ≤ n) (h : Below m k l) : Below n k l :=
  ⟨h.1, Nat.lt_of_lt_of_le h.2 hmn⟩

theorem Below.self {n k : Nat} (h : k < n) : Below n k k := ⟨rfl, h⟩

section Lists

variable {α β : Type} {R T : α → β → Prop} {S : β → β → Prop}

/-- Where entries of the second list are related to themselves as well. -/
theorem forall₂_confine {l : List α} {l' : List β} (h : List.Forall₂ R l l')
    (h' : List.Forall₂ S l' l') (hT : ∀ a b, R a b → S b b → T a b) : List.Forall₂ T l l' := by
  induction h with
  | nil => exact .nil
  | cons hR _ ih =>
    cases h' with
    | cons hS h' => exact .cons (hT _ _ hR hS) (ih h')

theorem rel_confine {o : Option α} {o' : Option β} (h : Option.Rel R o o') (h' : Option.Rel S o' o')
    (hT : ∀ a b, R a b → S b b → T a b) : Option.Rel T o o' := by
  cases h with
  | none => exact .none
  | some hR =>
    cases h' with
    | some hS => exact .some (hT _ _ hR hS)

end Lists

namespace Engine

/-! ## Two relations at once -/

section Confining

variable {R S T : Nat → Nat → Prop}

mutual

theorem Term.Same.confine (hT : ∀ k l, R k l → S l l → T k l) :
    ∀ {t u : Term}, t.Same R u → u.Same S u → t.Same T u
  | .value d, _, .value _, _ => .value d
  | .column i, _, .column _, _ => .column i
  | .negate _, _, .negate he, .negate he' => .negate (he.confine hT he')
  | .bitNot _, _, .bitNot he, .bitNot he' => .bitNot (he.confine hT he')
  | .not _, _, .not he, .not he' => .not (he.confine hT he')
  | .isNull _, _, .isNull he, .isNull he' => .isNull (he.confine hT he')
  | .and _ _, _, .and hl hr, .and hl' hr' => .and (hl.confine hT hl') (hr.confine hT hr')
  | .or _ _, _, .or hl hr, .or hl' hr' => .or (hl.confine hT hl') (hr.confine hT hr')
  | .arithmetic op _ _, _, .arithmetic _ hl hr, .arithmetic _ hl' hr' =>
    .arithmetic op (hl.confine hT hl') (hr.confine hT hr')
  | .compare op rule _ _, _, .compare _ _ hl hr, .compare _ _ hl' hr' =>
    .compare op rule (hl.confine hT hl') (hr.confine hT hr')
  | .same negated rule _ _, _, .same _ _ hl hr, .same _ _ hl' hr' =>
    .same negated rule (hl.confine hT hl') (hr.confine hT hr')
  | .between low high _ _ _, _, .between _ _ he hl hh, .between _ _ he' hl' hh' =>
    .between low high (he.confine hT he') (hl.confine hT hl') (hh.confine hT hh')
  | .among rule _ _, _, .among _ he hts, .among _ he' hts' =>
    .among rule (he.confine hT he') (confineAll hT hts hts')
  | .choice _, _, .choice hts, .choice hts' => .choice (confineAll hT hts hts')
  | .select rule _ _, _, .select _ he hts, .select _ he' hts' =>
    .select rule (he.confine hT he') (confineAll hT hts hts')
  | .coalesce _, _, .coalesce hts, .coalesce hts' => .coalesce (confineAll hT hts hts')
  | .cast a _, _, .cast _ he, .cast _ he' => .cast a (he.confine hT he')
  | .scalar f _, _, .scalar _ hts, .scalar _ hts' => .scalar f (confineAll hT hts hts')
  | .host _ _, _, .host hr hts, .host hr' hts' => .host (hT _ _ hr hr') (confineAll hT hts hts')

theorem Term.Same.confineAll (hT : ∀ k l, R k l → S l l → T k l) :
    ∀ {ts us : List Term}, List.Forall₂ (Term.Same R) ts us →
      List.Forall₂ (Term.Same S) us us → List.Forall₂ (Term.Same T) ts us
  | [], _, .nil, _ => .nil
  | _ :: _, _, .cons ht hts, .cons ht' hts' => .cons (ht.confine hT ht') (confineAll hT hts hts')

end

variable (hT : ∀ k l, R k l → S l l → T k l)

include hT

theorem AggregateCall.Same.confine {c d : AggregateCall} (h : c.Same R d) (h' : d.Same S d) :
    c.Same T d := by
  cases h with
  | mk htarget hargs distinct =>
    cases h' with
    | mk htarget' hargs' _ =>
      refine .mk ?_ (Term.Same.confineAll hT hargs hargs') distinct
      cases htarget with
      | builtin f => exact .builtin f
      | host hr =>
        cases htarget' with
        | host hr' => exact .host (hT _ _ hr hr')

theorem Plan.Same.confine {p q : Plan} (h : p.Same R q) (h' : q.Same S q) : p.Same T q := by
  have hcalls {cs ds : List AggregateCall} (hcs : List.Forall₂ (AggregateCall.Same R) cs ds)
      (hds : List.Forall₂ (AggregateCall.Same S) ds ds) :
      List.Forall₂ (AggregateCall.Same T) cs ds :=
    forall₂_confine hcs hds fun _ _ hc hd => hc.confine hT hd
  induction h with
  | rows rows => exact .rows rows
  | working => exact .working
  | values hrows =>
    cases h' with
    | values hrows' =>
      exact .values (forall₂_confine hrows hrows' fun _ _ hts hts' => Term.Same.confineAll hT hts hts')
  | scan root width => exact .scan root width
  | loop _ ih =>
    cases h' with
    | loop h' => exact .loop (ih h')
  | join _ _ ihl ihr =>
    cases h' with
    | join hl' hr' => exact .join (ihl hl') (ihr hr')
  | filter ht _ ih =>
    cases h' with
    | filter ht' h' => exact .filter (ht.confine hT ht') (ih h')
  | project hts _ ih =>
    cases h' with
    | project hts' h' => exact .project (Term.Same.confineAll hT hts hts') (ih h')
  | total width hcs _ ih =>
    cases h' with
    | total _ hcs' h' => exact .total width (hcalls hcs hcs') (ih h')
  | group hks hcs _ ih =>
    cases h' with
    | group hks' hcs' h' =>
      refine .group (forall₂_confine hks hks' ?_) (hcalls hcs hcs') (ih h')
      exact fun _ _ hk hk' => ⟨hk.1.confine hT hk'.1, hk.2⟩
  | sort keys _ ih =>
    cases h' with
    | sort _ h' => exact .sort keys (ih h')
  | distinct _ ih =>
    cases h' with
    | distinct h' => exact .distinct (ih h')
  | limit ht ho _ ih =>
    cases h' with
    | limit ht' ho' h' =>
      exact .limit (ht.confine hT ht') (rel_confine ho ho' fun _ _ h h' => h.confine hT h') (ih h')
  | append _ _ ihl ihr =>
    cases h' with
    | append hl' hr' => exact .append (ihl hl') (ihr hr')
  | combine op _ _ ihl ihr =>
    cases h' with
    | combine _ hl' hr' => exact .combine op (ihl hl') (ihr hr')
  | recursive all _ _ ihl ihr =>
    cases h' with
    | recursive _ hl' hr' => exact .recursive all (ihl hl') (ihr hr')

theorem Cursor.Same.confine {c d : Cursor} (h : c.Same R d) (h' : d.Same S d) : c.Same T d := by
  induction h with
  | idle hp =>
    cases h' with
    | idle hp' => exact .idle (hp.confine hT hp')
  | done => exact .done
  | rows rest => exact .rows rest
  | values hrows =>
    cases h' with
    | values hrows' =>
      exact .values (forall₂_confine hrows hrows' fun _ _ hts hts' => Term.Same.confineAll hT hts hts')
  | scan root width after => exact .scan root width after
  | loop _ ih =>
    cases h' with
    | loop h' => exact .loop (ih h')
  | join row _ _ hp ihl ihr =>
    cases h' with
    | join _ hl' hr' hp' => exact .join row (ihl hl') (ihr hr') (hp.confine hT hp')
  | filter ht _ ih =>
    cases h' with
    | filter ht' h' => exact .filter (ht.confine hT ht') (ih h')
  | project hts _ ih =>
    cases h' with
    | project hts' h' => exact .project (Term.Same.confineAll hT hts hts') (ih h')
  | groups collations rest hcs =>
    cases h' with
    | groups _ _ hcs' =>
      exact .groups collations rest (forall₂_confine hcs hcs' fun _ _ hc hc' => hc.confine hT hc')
  | distinct seen _ ih =>
    cases h' with
    | distinct _ h' => exact .distinct seen (ih h')
  | limit left _ ih =>
    cases h' with
    | limit _ h' => exact .limit left (ih h')
  | append _ hp ih =>
    cases h' with
    | append h' hp' => exact .append (ih h') (hp.confine hT hp')
  | recursive all queue seen current hp =>
    cases h' with
    | recursive _ _ _ _ hp' => exact .recursive all queue seen current (hp.confine hT hp')

theorem Target.Same.confine {t u : Target} (h : t.Same R u) (h' : u.Same S u) : t.Same T u := by
  cases h with
  | mk table hcs hds conflict =>
    cases h' with
    | mk _ hcs' hds' _ =>
      refine .mk table (forall₂_confine hcs hcs' ?_) (Term.Same.confineAll hT hds hds') conflict
      exact fun _ _ hc hc' => ⟨hc.1, hc.2.confine hT hc'.2⟩

theorem RowChange.Same.confine {c d : RowChange} (h : c.Same R d) (h' : d.Same S d) :
    c.Same T d := by
  have hoption {o o' : Option Term} (ho : Option.Rel (Term.Same R) o o')
      (ho' : Option.Rel (Term.Same S) o' o') : Option.Rel (Term.Same T) o o' :=
    rel_confine ho ho' fun _ _ h h' => h.confine hT h'
  cases h with
  | insert hp hcs hn =>
    cases h' with
    | insert hp' hcs' hn' =>
      exact .insert (hp.confine hT hp') (Term.Same.confineAll hT hcs hcs') (hoption hn hn')
  | update hss hn hc =>
    cases h' with
    | update hss' hn' hc' =>
      refine .update (forall₂_confine hss hss' ?_) (hoption hn hn') (hoption hc hc')
      exact fun _ _ hs hs' => ⟨hs.1, hs.2.confine hT hs'.2⟩
  | delete hc =>
    cases h' with
    | delete hc' => exact .delete (hoption hc hc')

theorem Action.Same.confine {a b : Action} (h : a.Same R b) (h' : b.Same S b) : a.Same T b := by
  cases h with
  | query hp =>
    cases h' with
    | query hp' => exact .query (hp.confine hT hp')
  | changeRows ht hc =>
    cases h' with
    | changeRows ht' hc' => exact .changeRows (ht.confine hT ht') (hc.confine hT hc')
  | changeTables change => exact .changeTables change
  | begin mode => exact .begin mode
  | commit => exact .commit
  | rollback => exact .rollback
  | savepoint name => exact .savepoint name
  | release name => exact .release name
  | rollbackTo name => exact .rollbackTo name
  | nothing => exact .nothing

end Confining

/-! ## Records -/

section Records

variable {same : Nat → Nat → Prop}

theorem Program.Same.action {p q : Program} (h : p.Same same q) : p.action.Same same q.action := by
  cases h with
  | mk p h => exact h

theorem Program.same_self {p : Program} (h : p.action.Same same p.action) : p.Same same p :=
  .mk p h

theorem HostFunction.Same.record {f g : HostFunction} (h : f.Same same g) :
    same f.record g.record := by
  cases h with
  | mk f h => exact h

theorem Connection.Same.parts {c d : Connection} (h : c.Same same d) :
    same c.volume d.volume ∧ List.Forall₂ (HostFunction.Same same) c.functions d.functions := by
  cases h with
  | mk c hv hfs => exact ⟨hv, hfs⟩

theorem Connection.same_self {c : Connection} (hv : same c.volume c.volume)
    (hfs : List.Forall₂ (HostFunction.Same same) c.functions c.functions) : c.Same same c :=
  .mk c hv hfs

theorem Statement.Same.parts {s t : Statement} (h : s.Same same t) :
    same s.connection t.connection ∧ s.program.Same same t.program ∧ s.cursor.Same same t.cursor := by
  cases h with
  | mk s hc hp hu => exact ⟨hc, hp, hu⟩

theorem Statement.same_self {s : Statement} (hc : same s.connection s.connection)
    (hp : s.program.Same same s.program) (hu : s.cursor.Same same s.cursor) : s.Same same s :=
  .mk s hc hp hu

end Records

section Confining

variable {R S T : Nat → Nat → Prop} (hT : ∀ k l, R k l → S l l → T k l)

include hT

theorem Program.Same.confine {p q : Program} (h : p.Same R q) (h' : q.Same S q) : p.Same T q := by
  have haction := h.action.confine hT h'.action
  cases h with
  | mk p _ => exact .mk p haction

theorem HostFunction.Same.confine {f g : HostFunction} (h : f.Same R g) (h' : g.Same S g) :
    f.Same T g := by
  have hrecord := hT _ _ h.record h'.record
  cases h with
  | mk f _ => exact .mk f hrecord

theorem Connection.Same.confine {c d : Connection} (h : c.Same R d) (h' : d.Same S d) :
    c.Same T d := by
  have hvolume := hT _ _ h.parts.1 h'.parts.1
  have hfunctions := forall₂_confine h.parts.2 h'.parts.2 fun _ _ hf hf' => hf.confine hT hf'
  cases h with
  | mk c _ _ => exact .mk c hvolume hfunctions

theorem Statement.Same.confine {s t : Statement} (h : s.Same R t) (h' : t.Same S t) :
    s.Same T t := by
  obtain ⟨hc', hp', hu'⟩ := h'.parts
  have hconnection := hT _ _ h.parts.1 hc'
  have hprogram := h.parts.2.1.confine hT hp'
  have hcursor := h.parts.2.2.confine hT hu'
  cases h with
  | mk s _ _ _ => exact .mk s hconnection hprogram hcursor

end Confining

/-! ## What cursors become -/

section Yielding

variable {H α β : Type} {same : Nat → Nat → Prop}

/-- A computation whose result, if it ends well, has a property in whatever world it runs. -/
def Produces (P : α → Prop) (x : Run H α) : Prop := Returns (fun r => ∀ a, r = .ok a → P a) x.run

namespace Produces

variable {P : α → Prop} {Q : β → Prop}

theorem pure {a : α} (h : P a) : Produces P (Pure.pure a : Run H α) := by
  rintro w _ ⟨⟩
  exact h

theorem throw (fault : Fault) : Produces P (throw fault : Run H α) := fun _ _ h => nomatch h

theorem bind_of {x : Run H α} {f : α → Run H β} (hx : Produces P x) (hf : ∀ a, P a → Produces Q (f a)) :
    Produces Q (x >>= f) := by
  show Returns _ (x.run >>= ExceptT.bindCont f)
  refine Returns.bind_of hx fun result hresult => ?_
  cases result with
  | ok a => exact hf a (hresult a rfl)
  | error fault => exact fun _ _ h => nomatch h

theorem bind {x : Run H α} {f : α → Run H β} (hf : ∀ a, Produces Q (f a)) : Produces Q (x >>= f) :=
  bind_of (P := fun _ => True) (fun _ _ _ => trivial) fun a _ => hf a

theorem ite {c : Prop} [Decidable c] {x y : Run H α} (hx : Produces P x) (hy : Produces P y) :
    Produces P (if c then x else y) := by
  split
  · exact hx
  · exact hy

end Produces

/-- A row, if there is one, with a cursor after it that is related to itself. -/
def LeavesSame (same : Nat → Nat → Prop) (found : Option (Row × Cursor)) : Prop :=
  ∀ row c, found = some (row, c) → c.Same same c

theorem LeavesSame.none : LeavesSame same none := nofun

theorem LeavesSame.some (row : Row) {c : Cursor} (h : c.Same same c) :
    LeavesSame same (some (row, c)) := by
  rintro _ _ ⟨⟩
  exact h

/-- After the next row of a source. -/
theorem produces_after {x : Run H (Option (Row × Cursor))}
    (hx : Produces (LeavesSame same) x) {P : β → Prop} {f : Option (Row × Cursor) → Run H β}
    (hnone : Produces P (f none)) (hsome : ∀ row c, c.Same same c → Produces P (f (some (row, c)))) :
    Produces P (x >>= f) := by
  refine hx.bind_of fun found hfound => ?_
  cases found with
  | none => exact hnone
  | some found => exact hsome _ _ (hfound _ _ rfl)

theorem nextOfTable_numbers (scope : Scope H) (root width : Nat) (after : Option Int64) :
    Produces (LeavesSame same) (nextOfTable scope root width after) := by
  unfold nextOfTable
  refine .bind fun _ => .bind fun db => ?_
  split
  · exact .pure .none
  · exact .pure (.some _ (.scan _ _ _))

theorem Cursor.deliver_numbers (all : Bool) {step : Plan} (hstep : step.Same same step)
    (queue seen : List Row) :
    Produces (H := H) (LeavesSame same) (Cursor.deliver all step queue seen) := by
  induction queue with
  | nil => exact .pure .none
  | cons r rest ih =>
    unfold Cursor.deliver
    exact .ite ih (.pure (.some _ (.recursive _ _ _ _ hstep)))

mutual

/-- What a cursor becomes holds no number that it did not hold. -/
theorem Cursor.next_numbers (scope : Scope H) : ∀ (fuel : Nat) {c : Cursor}, c.Same same c →
    Produces (LeavesSame same) (c.next scope fuel)
  | 0, _, _ => by
    simp only [Cursor.next]
    exact .throw _
  | fuel + 1, _, hc => by
    have hnext {c : Cursor} (hc : c.Same same c) := Cursor.next_numbers scope fuel hc
    cases hc with
    | idle hp =>
      simp only [Cursor.next]
      exact Cursor.start_numbers scope fuel hp
    | done =>
      simp only [Cursor.next]
      exact .pure .none
    | rows rest =>
      cases rest with
      | nil =>
        simp only [Cursor.next]
        exact .pure .none
      | cons r rest =>
        simp only [Cursor.next]
        exact .pure (.some r (.rows rest))
    | values hrows =>
      cases hrows with
      | nil =>
        simp only [Cursor.next]
        exact .pure .none
      | cons hts hrest =>
        simp only [Cursor.next]
        exact .bind fun r => .pure (.some r (.values hrest))
    | scan root width after =>
      simp only [Cursor.next]
      exact nextOfTable_numbers scope root width (some after)
    | loop hsource =>
      simp only [Cursor.next]
      exact .bind fun _ => Cursor.nextOfLoop_numbers scope fuel hsource
    | join row hl hr hp =>
      simp only [Cursor.next]
      exact produces_after (hnext hr) (Cursor.nextOfJoin_numbers scope fuel hl hp)
        fun r right hright => .pure (.some _ (.join row hl hright hp))
    | filter ht hsource =>
      simp only [Cursor.next]
      refine produces_after (hnext hsource) (.pure .none) fun r source hrest => .bind fun b => ?_
      exact .ite (.pure (.some _ (.filter ht hrest))) (hnext (.filter ht hrest))
    | project hts hsource =>
      simp only [Cursor.next]
      exact produces_after (hnext hsource) (.pure .none) fun r source hrest =>
        .bind fun r => .pure (.some r (.project hts hrest))
    | groups collations rest hcs =>
      simp only [Cursor.next]
      cases rest with
      | nil => exact .pure .none
      | cons first rest => exact .bind fun totals => .pure (.some _ (.groups collations _ hcs))
    | distinct seen hsource =>
      simp only [Cursor.next]
      exact produces_after (hnext hsource) (.pure .none) fun r source hrest =>
        .ite (hnext (.distinct seen hrest)) (.pure (.some _ (.distinct _ hrest)))
    | limit left hsource =>
      simp only [Cursor.next]
      exact .ite (.pure .none) (produces_after (hnext hsource) (.pure .none) fun r source hrest =>
        .pure (.some _ (.limit _ hrest)))
    | append hfirst hp =>
      simp only [Cursor.next]
      exact produces_after (hnext hfirst) (hnext (.idle hp)) fun r first hrest =>
        .pure (.some _ (.append hrest hp))
    | recursive all queue seen current hp =>
      simp only [Cursor.next]
      exact .bind fun _ => .bind fun found => Cursor.deliver_numbers all hp _ _

theorem Cursor.start_numbers (scope : Scope H) : ∀ (fuel : Nat) {p : Plan}, p.Same same p →
    Produces (LeavesSame same) (Cursor.start scope fuel p)
  | 0, _, _ => by
    simp only [Cursor.start]
    exact .throw _
  | fuel + 1, _, hp => by
    have hnext {c : Cursor} (hc : c.Same same c) := Cursor.next_numbers scope fuel hc
    cases hp with
    | rows rows =>
      simp only [Cursor.start]
      exact hnext (.rows rows)
    | working =>
      simp only [Cursor.start]
      exact .pure .none
    | values hrows =>
      simp only [Cursor.start]
      exact hnext (.values hrows)
    | scan root width =>
      simp only [Cursor.start]
      exact nextOfTable_numbers scope root width none
    | loop hsource =>
      simp only [Cursor.start]
      exact Cursor.nextOfLoop_numbers scope fuel (.idle hsource)
    | join hl hr =>
      simp only [Cursor.start]
      exact Cursor.nextOfJoin_numbers scope fuel (.idle hl) hr
    | filter ht hsource =>
      simp only [Cursor.start]
      exact hnext (.filter ht (.idle hsource))
    | project hts hsource =>
      simp only [Cursor.start]
      exact hnext (.project hts (.idle hsource))
    | total width hcs hsource =>
      simp only [Cursor.start]
      exact .bind fun r => .pure (.some _ .done)
    | group hks hcs hsource =>
      simp only [Cursor.start]
      exact .bind fun rows => hnext (.groups _ _ hcs)
    | sort keys hsource =>
      simp only [Cursor.start]
      exact .bind fun rows => Cursor.nextOfLoop_numbers scope fuel (.rows _)
    | distinct hsource =>
      simp only [Cursor.start]
      exact hnext (.distinct [] (.idle hsource))
    | limit ht ho hsource =>
      simp only [Cursor.start]
      refine .bind fun n => ?_
      -- what follows whether or not rows are left out
      have hrest (skip : Int) : Produces (LeavesSame same) (do
          if n = 0 then return none
          let source ← Cursor.skip scope fuel skip.toNat (.idle _)
          if n < 0 then Cursor.next scope fuel source
          else Cursor.next scope fuel (.limit n.toNat source)) :=
        .ite (.pure .none) ((Cursor.skip_numbers scope fuel _ (.idle hsource)).bind_of
          fun source hsource => .ite (hnext hsource) (hnext (.limit _ hsource)))
      cases ho with
      | none => exact .bind hrest
      | some _ => exact .bind hrest
    | append hl hr =>
      simp only [Cursor.start]
      exact hnext (.append (.idle hl) hr)
    | combine op hl hr =>
      simp only [Cursor.start]
      exact .bind fun l => .bind fun r => Cursor.nextOfLoop_numbers scope fuel (.rows _)
    | recursive all hl hr =>
      simp only [Cursor.start]
      exact .bind fun found => Cursor.deliver_numbers all hr _ _

theorem Cursor.nextOfLoop_numbers (scope : Scope H) : ∀ (fuel : Nat) {c : Cursor}, c.Same same c →
    Produces (LeavesSame same) (Cursor.nextOfLoop scope fuel c)
  | 0, _, _ => by
    simp only [Cursor.nextOfLoop]
    exact .throw _
  | fuel + 1, _, hc => by
    simp only [Cursor.nextOfLoop]
    exact produces_after (Cursor.next_numbers scope fuel hc) (.pure .none) fun r source hsource =>
      .pure (.some r (.loop hsource))

theorem Cursor.nextOfJoin_numbers (scope : Scope H) : ∀ (fuel : Nat) {c : Cursor} {p : Plan},
    c.Same same c → p.Same same p → Produces (LeavesSame same) (Cursor.nextOfJoin scope fuel c p)
  | 0, _, _, _, _ => by
    simp only [Cursor.nextOfJoin]
    exact .throw _
  | fuel + 1, _, _, hc, hp => by
    simp only [Cursor.nextOfJoin]
    exact produces_after (Cursor.next_numbers scope fuel hc) (.pure .none) fun r left hleft =>
      Cursor.next_numbers scope fuel (.join r hleft (.idle hp) hp)

theorem Cursor.skip_numbers (scope : Scope H) : ∀ (fuel n : Nat) {c : Cursor}, c.Same same c →
    Produces (fun c => c.Same same c) (Cursor.skip scope fuel n c)
  | 0, _, _, _ => by
    simp only [Cursor.skip]
    exact .throw _
  | _ + 1, 0, _, hc => by
    simp only [Cursor.skip]
    exact .pure hc
  | fuel + 1, n + 1, _, hc => by
    simp only [Cursor.skip]
    exact produces_after (Cursor.next_numbers scope fuel hc) (.pure .done) fun r c hc =>
      Cursor.skip_numbers scope fuel n hc

end

end Yielding

end Engine

end HostSql
