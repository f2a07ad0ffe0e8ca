import HostSql.Engine.Resolve
import HostSql.Proofs.Matching.Linked
import HostSql.Proofs.Matching.Numbers

/-!
# Names are looked up alike

Where functions are known under other numbers, an expression stands for the same term but for these
numbers, or has the same mistake: `resolve_same`. The calls of aggregates that are collected on the way
are the same as well, since calls are equal under the one numbers exactly if they are under the others.
-/

namespace HostSql.Engine

open Sql

section

variable (same : Nat → Nat → Prop)

/-- Terms with what comparisons want to know, the same but for numbers. -/
inductive Typed.Same : Typed → Typed → Prop
  | mk (t : Typed) {e e'} (h : e.Same same e') : Same { t with term := e } { t with term := e' }

/-- Labels for terms that are the same but for numbers. -/
def SameLabel (l l' : String × Typed) : Prop := l.1 = l'.1 ∧ l.2.Same same l'.2

/-- Names with functions and labels that are the same but for numbers. -/
inductive Names.Same : Names → Names → Prop
  | mk (names : Names) {ls ls' fs fs'} (hlabels : List.Forall₂ (SameLabel same) ls ls')
      (hfunctions : List.Forall₂ (HostFunction.Same same) fs fs') :
      Same { names with labels := ls, functions := fs } { names with labels := ls', functions := fs' }

/-- Functions that calls lead to, the same but for their numbers. -/
inductive Callee.Same : Callee → Callee → Prop
  | scalar (f : Scalar) : Same (.scalar f) (.scalar f)
  | aggregate {a a'} (h : a.Same same a') : Same (.aggregate a) (.aggregate a')
  | host {r r'} (h : same r r') : Same (.host r) (.host r')
  | coalesce : Same .coalesce .coalesce
  | choose : Same .choose .choose
  | identity : Same .identity .identity

/-- From related calls so far both computations end in the same way, with related calls. -/
def ResolvedAlike {α α' : Type} (A : α → α' → Prop) (x : Resolve α) (y : Resolve α') : Prop :=
  ∀ cs cs', List.Forall₂ (AggregateCall.Same same) cs cs' →
    EndAlike (fun p p' => A p.1 p'.1 ∧ List.Forall₂ (AggregateCall.Same same) p.2 p'.2)
      (x.run cs) (y.run cs')

end

namespace ResolvedAlike

variable {same : Nat → Nat → Prop} {α α' β β' : Type} {A : α → α' → Prop} {B : β → β' → Prop}

theorem pure {a : α} {a' : α'} (h : A a a') :
    ResolvedAlike same A (Pure.pure a : Resolve α) (Pure.pure a' : Resolve α') :=
  fun _ _ hcs => .ok ⟨h, hcs⟩

theorem refuse (message : String) :
    ResolvedAlike same A (refuse message : Resolve α) (Engine.refuse message : Resolve α') :=
  fun _ _ _ => .error _

theorem bind {x : Resolve α} {y : Resolve α'} {f : α → Resolve β} {g : α' → Resolve β'}
    (hx : ResolvedAlike same A x y) (hf : ∀ a a', A a a' → ResolvedAlike same B (f a) (g a')) :
    ResolvedAlike same B (x >>= f) (y >>= g) :=
  fun cs cs' hcs => (hx cs cs' hcs).bind fun _ _ h => hf _ _ h.1 _ _ h.2

/-- After a computation with the same result. -/
theorem bind_same {x : Resolve α} {y : Resolve α} {f : α → Resolve β} {g : α → Resolve β'}
    (hx : ResolvedAlike same Eq x y) (hf : ∀ a, ResolvedAlike same B (f a) (g a)) :
    ResolvedAlike same B (x >>= f) (y >>= g) := by
  refine hx.bind fun a a' h => ?_
  subst h
  exact hf a

theorem get_bind {f : List AggregateCall → Resolve β} {g : List AggregateCall → Resolve β'}
    (h : ∀ cs cs', List.Forall₂ (AggregateCall.Same same) cs cs' →
      ResolvedAlike same B (f cs) (g cs')) : ResolvedAlike same B (get >>= f) (get >>= g) :=
  fun cs cs' hcs => h cs cs' hcs cs cs' hcs

theorem ite {c : Prop} [Decidable c] {x x' : Resolve α} {y y' : Resolve α'}
    (h : ResolvedAlike same A x y) (h' : ResolvedAlike same A x' y') :
    ResolvedAlike same A (if c then x else x') (if c then y else y') := by
  split
  · exact h
  · exact h'

/-- A check before a computation. -/
theorem guard {c : Prop} [Decidable c] (message : String) {x : Resolve α} {y : Resolve α'}
    (h : ResolvedAlike same A x y) :
    ResolvedAlike same A
      (do
        if c then Engine.refuse message
        x)
      (do
        if c then Engine.refuse message
        y) :=
  .ite ((ResolvedAlike.refuse (A := @Eq PUnit) message).bind fun _ _ _ => h) h

theorem ofExcept {x : Except Fault α} {y : Except Fault α'} (h : EndAlike A x y) :
    ResolvedAlike same A (liftM x : Resolve α) (liftM y : Resolve α') := by
  cases h with
  | ok ha => exact pure ha
  | error fault => exact fun _ _ _ => .error fault

theorem mapM {f : α → Resolve β} {g : α → Resolve β'} (h : ∀ a, ResolvedAlike same B (f a) (g a))
    (l : List α) : ResolvedAlike same (List.Forall₂ B) (l.mapM f) (l.mapM g) := by
  induction l with
  | nil => exact pure .nil
  | cons a l ih =>
    rw [List.mapM_cons, List.mapM_cons]
    exact (h a).bind fun b b' hb => ih.bind fun bs bs' hbs => pure (.cons hb hbs)

theorem mapM_option {f : α → Resolve β} {g : α → Resolve β'}
    (h : ∀ a, ResolvedAlike same B (f a) (g a)) (o : Option α) :
    ResolvedAlike same (Option.Rel B) (o.mapM f) (o.mapM g) := by
  cases o with
  | some a => exact (h a).bind fun b b' hb => .pure (.some hb)
  | none => exact .pure .none

end ResolvedAlike

variable {same : Nat → Nat → Prop}

theorem Typed.Same.plain {e e' : Term} (h : e.Same same e') : (plain e).Same same (plain e') :=
  .mk ⟨e, none, none, none⟩ h

theorem Typed.Same.term {t t' : Typed} (h : t.Same same t') : t.term.Same same t'.term := by
  cases h with
  | mk _ h => exact h

theorem Typed.Same.terms {ts ts' : List Typed} (h : List.Forall₂ (Typed.Same same) ts ts') :
    List.Forall₂ (Term.Same same) (ts.map (·.term)) (ts'.map (·.term)) :=
  List.rel_map (fun _ _ h => h.term) h

/-- Terms of columns call nothing. -/
theorem Typed.Same.column (c : SourceColumn) : c.typed.Same same c.typed :=
  .mk c.typed (.column c.position)

/-! ## Functions -/

theorem hostFunction?_same {fs fs' : List HostFunction}
    (h : List.Forall₂ (HostFunction.Same same) fs fs') (name : String) (n : Nat) :
    Option.Rel (HostFunction.Same same) (hostFunction? fs name n) (hostFunction? fs' name n) := by
  have hnamed : List.Forall₂ (HostFunction.Same same)
      (fs.filter fun f => Text.sameName f.name name) (fs'.filter fun f => Text.sameName f.name name) := by
    refine forall₂_filter h fun f f' hf => ?_
    cases hf
    rfl
  have hfind (arity : Int) := forall₂_find? (p := fun f => f.arity == arity)
    (q := fun f => f.arity == arity) hnamed fun f f' hf => by
      cases hf
      rfl
  have hexact := hfind (n : Int)
  have hany := hfind (-1)
  unfold hostFunction?
  dsimp only
  revert hexact
  generalize List.find? _ (fs.filter _) = x
  generalize List.find? _ (fs'.filter _) = y
  intro hexact
  cases hexact with
  | some hf => exact .some hf
  | none => exact hany

/-- No built-in function goes by a number. -/
theorem builtin_same {b : String × Callee × Nat × Option Nat} (h : b ∈ builtins) :
    b.2.1.Same same b.2.1 := by
  unfold builtins at h
  rcases List.mem_append.mp h with h | h
  · rcases List.mem_append.mp h with h | h
    · have hform : b.2.1 = .coalesce ∨ b.2.1 = .choose ∨ b.2.1 = .identity := by
        revert b
        decide
      obtain hform | hform | hform := hform
      all_goals
        rw [hform]
        constructor
    · obtain ⟨entry, _, rfl⟩ := List.mem_map.mp h
      exact .scalar _
  · obtain ⟨entry, _, rfl⟩ := List.mem_map.mp h
    exact .aggregate (.builtin _)

/-- A call leads to the same function. -/
theorem callee_same {fs fs' : List HostFunction}
    (h : List.Forall₂ (HostFunction.Same same) fs fs') (name : String) (n : Nat) :
    EndAlike (Callee.Same same) (callee fs name n) (callee fs' name n) := by
  have hany : fs.any (Text.sameName ·.name name) = fs'.any (Text.sameName ·.name name) :=
    forall₂_any h fun f f' hf => by
      cases hf
      rfl
  have hhost := hostFunction?_same h name n
  unfold callee
  revert hhost
  generalize hostFunction? fs name n = x
  generalize hostFunction? fs' name n = y
  intro hhost
  cases hhost with
  | some hf =>
    cases hf with
    | mk f hr =>
      refine .ok ?_
      dsimp only
      split
      · exact .aggregate (.host hr)
      · exact .host hr
  | none =>
    dsimp only
    rw [hany]
    split
    next b hfound =>
      have hmem := List.mem_of_mem_filter (List.mem_of_find?_eq_some hfound)
      exact .ok (builtin_same hmem)
    next =>
      split
      · exact .error _
      · exact .error _

/-! ## Columns -/

theorem findColumn_same {names names' : Names} (h : names.Same same names') (table : Option String)
    (name : String) :
    ResolvedAlike same (Option.Rel (Typed.Same same)) (findColumn names table name)
      (findColumn names' table name) := by
  cases h with
  | mk names _ _ =>
    unfold findColumn
    dsimp only
    split
    · exact .pure (.some (.column _))
    · exact .pure .none
    · exact .refuse _

/-! ## Expressions -/

theorem compareRule_same {l l' r r' : Typed} (hl : l.Same same l') (hr : r.Same same r') :
    compareRule l r = compareRule l' r' := by
  cases hl
  cases hr
  rfl

theorem binaryTerm_same (op : BinaryOp) {l l' r r' : Typed} (hl : l.Same same l')
    (hr : r.Same same r') : (binaryTerm op l r).Same same (binaryTerm op l' r') := by
  unfold binaryTerm
  rw [compareRule_same hl hr]
  split
  · exact .arithmetic _ hl.term hr.term
  · exact .compare _ _ hl.term hr.term
  · split
    · exact .and hl.term hr.term
    · exact .same _ _ hl.term hr.term
    · exact .same _ _ hl.term hr.term
    · exact .or hl.term hr.term

/-! ## Aggregate calls -/

/-- Lists of terms are compared term by term. -/
theorem beq_terms (ts us : List Term) : (ts == us) = Term.beqAll ts us := by
  induction ts generalizing us with
  | nil => cases us <;> rfl
  | cons t ts ih =>
    cases us with
    | nil => rfl
    | cons u us =>
      show (t.beq u && ts == us) = Term.beqAll (t :: ts) (u :: us)
      rw [ih, Term.beqAll]

theorem Accumulating.beq_same (hone : OneToOne same) {a a' b b' : Accumulating} (ha : a.Same same a') (hb : b.Same same b') :
    (a == b) = (a' == b') := by
  rw [Bool.eq_iff_iff, beq_iff_eq, beq_iff_eq]
  cases ha with
  | builtin f =>
    cases hb with
    | builtin g => exact Iff.rfl
    | host _ => exact ⟨nofun, nofun⟩
  | host hr =>
    cases hb with
    | builtin g => exact ⟨nofun, nofun⟩
    | host hr' =>
      rw [Accumulating.host.injEq, Accumulating.host.injEq]
      constructor
      · intro heq
        exact hone.right hr (heq ▸ hr')
      · intro heq
        exact hone.left hr (heq ▸ hr')

/-- Calls that are the same but for numbers are equal to others alike. -/
theorem equalCalls_same (hone : OneToOne same) {c c' d d' : AggregateCall} (hc : c.Same same c') (hd : d.Same same d') :
    (c.target == d.target && c.args == d.args && c.distinct == d.distinct)
      = (c'.target == d'.target && c'.args == d'.args && c'.distinct == d'.distinct) := by
  cases hc with
  | mk hct hca =>
    cases hd with
    | mk hdt hda =>
      have htarget := Accumulating.beq_same hone hct hdt
      have hargs := Term.beqAll_same hone _ hca hda
      simp only [beq_terms, htarget, hargs]

theorem aggregateTerm_same (hone : OneToOne same) {names names' : Names} (h : names.Same same names')
    {call call' : AggregateCall} (hcall : call.Same same call') :
    ResolvedAlike same (Term.Same same) (aggregateTerm names call) (aggregateTerm names' call') := by
  have hwidth : names.width = names'.width := by
    cases h
    rfl
  unfold aggregateTerm
  refine .get_bind fun cs cs' hcs => ?_
  have hfind := forall₂_findIdx? hcs fun c c' hc => equalCalls_same hone hc hcall
  dsimp only
  rw [hfind, hwidth, hcs.length_eq]
  split
  · exact .pure (.column _)
  · exact fun _ _ _ => .ok ⟨.column _, List.rel_append hcs (.cons hcall .nil)⟩

/-- A call of an aggregate on given arguments. -/
theorem aggregateCall_same (hone : OneToOne same) {names names' : Names} (h : names.Same same names')
    {target target' : Accumulating} (htarget : target.Same same target') {ts ts' : List Typed}
    (hts : List.Forall₂ (Typed.Same same) ts ts') (distinct : Bool) :
    ResolvedAlike same (Typed.Same same)
      (do
        if distinct && ts.length != 1 then
          refuse "DISTINCT aggregates must have exactly one argument"
        return .plain (← aggregateTerm names ⟨target, ts.map (·.term), distinct⟩))
      (do
        if distinct && ts'.length != 1 then
          refuse "DISTINCT aggregates must have exactly one argument"
        return .plain (← aggregateTerm names' ⟨target', ts'.map (·.term), distinct⟩)) := by
  rw [hts.length_eq]
  have hcall : AggregateCall.Same same _ _ := .mk htarget (Typed.Same.terms hts) distinct
  exact .guard _ ((aggregateTerm_same hone h hcall).bind fun e e' he => .pure (.plain he))

/-- Operators before anything but a numeral. -/
theorem resolve_unary (names : Names) (op : UnaryOp) (h : op ≠ .negate) {aggregates : Bool}
    {e : Expr} :
    resolve names aggregates (.unary op e) = (do
      let t ← resolve names aggregates e
      match op with
      | .negate => return .plain (.negate t.term)
      | .plus => return { t with affinity := none, column := none }
      | .not => return .plain (.not t.term)
      | .bitNot => return .plain (.bitNot t.term)) := by
  rw [resolve]
  -- what is left besides the goal are the cases of numerals, in which the operator would be a minus
  all_goals first
    | rfl
    | intros
      exact absurd ‹op = .negate› h

theorem resolve_negate (names : Names) {aggregates : Bool} {e : Expr} (hinteger : ∀ n, e ≠ .integer n)
    (hpattern : ∀ mark digits, e ≠ .pattern mark digits) (hreal : ∀ digits, e ≠ .real digits) :
    resolve names aggregates (.unary .negate e) = (do
      let t ← resolve names aggregates e
      return .plain (.negate t.term)) := by
  rw [resolve]
  all_goals
    intros
    first
      | exact hinteger _ ‹_›
      | exact hpattern _ _ ‹_›
      | exact hreal _ ‹_›

mutual

/-- An expression stands for the same term but for numbers. -/
theorem resolve_same (hone : OneToOne same) {names names' : Names} (h : names.Same same names') (aggregates : Bool) :
    ∀ e : Expr, ResolvedAlike same (Typed.Same same) (resolve names aggregates e)
      (resolve names' aggregates e)
  | .integer n => by
    simp only [resolve]
    exact .pure (.plain (.value _))
  | .pattern mark digits => by
    simp only [resolve]
    exact (ResolvedAlike.ofExcept (.same _)).bind_same fun d => .pure (.plain (.value d))
  | .real digits => by
    simp only [resolve]
    exact .pure (.plain (.value _))
  | .string s => by
    simp only [resolve]
    exact .pure (.plain (.value _))
  | .blob bytes => by
    simp only [resolve]
    exact .pure (.plain (.value _))
  | .null => by
    simp only [resolve]
    exact .pure (.plain (.value _))
  | .parameter text => by
    have hcheck : ResolvedAlike same Eq (checkParameter text) (checkParameter text) := by
      unfold checkParameter
      split
      · exact .ite (.refuse _) (.pure rfl)
      · exact .pure rfl
    simp only [resolve]
    exact hcheck.bind_same fun _ => .pure (.plain (.value _))
  | .name doubleQuoted s => by
    simp only [resolve]
    refine (findColumn_same h none s).bind fun found found' hfound => ?_
    cases hfound with
    | some ht => exact .pure ht
    | none =>
      have hlabel : Option.Rel (SameLabel same) (names.labels.find? fun l => Text.sameName l.1 s)
          (names'.labels.find? fun l => Text.sameName l.1 s) := by
        cases h with
        | mk names hlabels _ => exact forall₂_find? hlabels fun l l' hl => by rw [hl.1]
      dsimp only
      revert hlabel
      generalize names.labels.find? _ = x
      generalize names'.labels.find? _ = y
      intro hlabel
      cases hlabel with
      | some hl => exact .pure hl.2
      | none =>
        refine .ite (.pure (.plain (.value _))) (.ite (.pure (.plain (.value _))) ?_)
        exact .ite (.pure (.plain (.value _))) (.refuse _)
  | .qualified table column => by
    simp only [resolve]
    refine (findColumn_same h (some table) column).bind fun found found' hfound => ?_
    cases hfound with
    | some ht => exact .pure ht
    | none => exact .refuse _
  | .unary op e => by
    have ih := resolve_same hone h aggregates e
    cases op with
    | negate =>
      cases e with
      | integer n =>
        simp only [resolve]
        exact .pure (.plain (.value _))
      | pattern mark digits =>
        simp only [resolve]
        exact (ResolvedAlike.ofExcept (.same _)).bind_same fun d => .pure (.plain (.value d))
      | real digits =>
        simp only [resolve]
        exact .pure (.plain (.value _))
      | _ =>
        rw [resolve_negate names, resolve_negate names']
        · exact ih.bind fun t t' ht => .pure (.plain (.negate ht.term))
        all_goals exact nofun
    | plus =>
      rw [resolve_unary names .plus nofun, resolve_unary names' .plus nofun]
      refine ih.bind fun t t' ht => .pure ?_
      cases ht with
      | mk t he => exact .mk { t with affinity := none, column := none } he
    | not =>
      rw [resolve_unary names .not nofun, resolve_unary names' .not nofun]
      exact ih.bind fun t t' ht => .pure (.plain (.not ht.term))
    | bitNot =>
      rw [resolve_unary names .bitNot nofun, resolve_unary names' .bitNot nofun]
      exact ih.bind fun t t' ht => .pure (.plain (.bitNot ht.term))
  | .binary op l r => by
    simp only [resolve]
    refine (resolve_same hone h aggregates l).bind fun a a' ha => ?_
    refine (resolve_same hone h aggregates r).bind fun b b' hb => ?_
    exact .pure (.plain (binaryTerm_same op ha hb))
  | .isNull e => by
    simp only [resolve]
    exact (resolve_same hone h aggregates e).bind fun t t' ht => .pure (.plain (.isNull ht.term))
  | .between e low high => by
    simp only [resolve]
    refine (resolve_same hone h aggregates e).bind fun t t' ht => ?_
    refine (resolve_same hone h aggregates low).bind fun l l' hl => ?_
    refine (resolve_same hone h aggregates high).bind fun u u' hu => .pure ?_
    rw [compareRule_same ht hl, compareRule_same ht hu]
    exact .plain (.between _ _ ht.term hl.term hu.term)
  | .among e items => by
    simp only [resolve]
    refine (resolve_same hone h aggregates e).bind fun t t' ht => ?_
    refine (resolveAll_same hone h aggregates items).bind fun ts ts' hts => .pure ?_
    cases ht with
    | mk t he => exact .plain (.among _ he (Typed.Same.terms hts))
  | .choice hasOperand items => by
    simp only [resolve]
    refine (resolveAll_same hone h aggregates items).bind fun ts ts' hts => ?_
    cases hasOperand with
    | false => exact .pure (.plain (.choice (Typed.Same.terms hts)))
    | true =>
      cases hts with
      | nil => exact .pure (.plain (.choice .nil))
      | @cons t t' rest rest' ht hrest =>
        have hhead : (rest.headD t).Same same (rest'.headD t') := by
          cases hrest with
          | nil => exact ht
          | cons hhead _ => exact hhead
        refine .pure ?_
        rw [compareRule_same ht hhead]
        exact .plain (.select _ ht.term (Typed.Same.terms hrest))
  | .cast e typeName => by
    simp only [resolve]
    refine (resolve_same hone h aggregates e).bind fun t t' ht => .pure ?_
    cases ht with
    | mk t he => exact .mk ⟨t.term, some (Affinity.ofTypeName typeName), t.collation, none⟩ (.cast _ he)
  | .collate e name => by
    simp only [resolve]
    refine (resolve_same hone h aggregates e).bind fun t t' ht => ?_
    cases Collation.ofName? name with
    | none => exact .refuse _
    | some c =>
      refine .pure ?_
      cases ht with
      | mk t he => exact .mk { t with collation := some (true, c), column := none } he
  | .call name distinct args => by
    have hfunctions : List.Forall₂ (HostFunction.Same same) names.functions names'.functions := by
      cases h with
      | mk names _ hfunctions => exact hfunctions
    have hcallee := callee_same hfunctions name args.length
    have hall (aggregates : Bool) := resolveAll_same hone h aggregates args
    simp only [resolve]
    revert hcallee
    generalize callee names.functions name args.length = x
    generalize callee names'.functions name args.length = y
    intro hcallee
    cases hcallee with
    | error message => exact (hall aggregates).bind fun _ _ _ => .refuse message
    | ok hcallee =>
      cases hcallee with
      | aggregate htarget =>
        have hrest := (hall false).bind fun ts ts' hts =>
          aggregateCall_same hone h htarget hts distinct
        refine .ite ?_ hrest
        exact (hall false).bind fun _ _ _ =>
          (ResolvedAlike.refuse (A := @Eq PUnit) _).bind fun _ _ _ => hrest
      | scalar f =>
        exact (hall aggregates).bind fun ts ts' hts => .pure (.plain (.scalar f (Typed.Same.terms hts)))
      | host hr =>
        exact (hall aggregates).bind fun ts ts' hts => .pure (.plain (.host hr (Typed.Same.terms hts)))
      | coalesce =>
        exact (hall aggregates).bind fun ts ts' hts => .pure (.plain (.coalesce (Typed.Same.terms hts)))
      | choose =>
        exact (hall aggregates).bind fun ts ts' hts => .pure (.plain (.choice (Typed.Same.terms hts)))
      | identity =>
        exact (hall aggregates).bind fun ts ts' hts =>
          .pure (.plain (.coalesce (List.forall₂_take 1 (Typed.Same.terms hts))))
  | .callStar name => by
    have hfunctions : List.Forall₂ (HostFunction.Same same) names.functions names'.functions := by
      cases h with
      | mk names _ hfunctions => exact hfunctions
    have hcallee := callee_same hfunctions name 0
    simp only [resolve]
    revert hcallee
    generalize callee names.functions name 0 = x
    generalize callee names'.functions name 0 = y
    intro hcallee
    cases hcallee with
    | error message => exact .refuse message
    | ok hcallee =>
      cases hcallee with
      | aggregate htarget =>
        exact .guard _ ((aggregateTerm_same hone h (.mk htarget .nil false)).bind
          fun e e' he => .pure (.plain he))
      | scalar f => exact .pure (.plain (.scalar f .nil))
      | host hr => exact .pure (.plain (.host hr .nil))
      | coalesce => exact .pure (.plain (.value _))
      | choose => exact .pure (.plain (.value _))
      | identity => exact .pure (.plain (.value _))
  | .row items => by
    simp only [resolve]
    exact .refuse _

theorem resolveAll_same (hone : OneToOne same) {names names' : Names} (h : names.Same same names') (aggregates : Bool) :
    ∀ es : List Expr, ResolvedAlike same (List.Forall₂ (Typed.Same same))
      (resolveAll names aggregates es) (resolveAll names' aggregates es)
  | [] => by
    simp only [resolveAll]
    exact .pure .nil
  | e :: es => by
    simp only [resolveAll]
    exact (resolve_same hone h aggregates e).bind fun t t' ht =>
      (resolveAll_same hone h aggregates es).bind fun ts ts' hts => .pure (.cons ht hts)

end

theorem resolvePlain_same (hone : OneToOne same) {names names' : Names} (h : names.Same same names') (e : Expr) :
    EndAlike (Typed.Same same) (resolvePlain names e) (resolvePlain names' e) :=
  (resolve_same hone h false e [] [] .nil).map fun _ _ hp => hp.1

end HostSql.Engine
