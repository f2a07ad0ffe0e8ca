import HostSql.Engine.Compile
import HostSql.Proofs.Matching.Resolving

/-!
# Queries are compiled alike

A query becomes the same plan but for the numbers of the host functions in it, or has the same mistake:
`compileQuery_same`. The proof follows the compiler through the parts of a query; what it looks up in
them is related by `resolve_same`, and what it builds from related parts is related.
-/

namespace HostSql.Engine

open Sql

section

variable (same : Nat → Nat → Prop)

/-- Environments that are the same but for the numbers of functions. -/
inductive Environment.Same : Environment → Environment → Prop
  | mk (env : Environment) {fs fs'} (h : List.Forall₂ (HostFunction.Same same) fs fs') :
      Same { env with functions := fs } { env with functions := fs' }

/-- Plans that are the same but for numbers, with the same description. -/
def PlanWith {β : Type} (p p' : Plan × β) : Prop := p.1.Same same p'.1 ∧ p.2 = p'.2

/-- Columns of a result that are the same but for numbers. -/
def SameResult (r r' : Typed × Output) : Prop := r.1.Same same r'.1 ∧ r.2 = r'.2

/-- Keys of an order that are the same but for numbers. -/
inductive ResolvedKey.Same : ResolvedKey → ResolvedKey → Prop
  | position (p : Nat) (descending nullsFirst : Bool) (c : Collation) :
      Same ⟨.inl p, descending, nullsFirst, c⟩ ⟨.inl p, descending, nullsFirst, c⟩
  | term {t t'} (h : t.Same same t') (descending nullsFirst : Bool) (c : Collation) :
      Same ⟨.inr t, descending, nullsFirst, c⟩ ⟨.inr t', descending, nullsFirst, c⟩

/-- An entry of a result that stands for a column, or still has to be looked up. -/
def IsColumnar (entry : Typed ⊕ (Expr × Option String × String)) : Prop :=
  ∀ t, entry = .inl t → t.Same same t

end

variable {same : Nat → Nat → Prop}

/-! ## Parts of plans -/

theorem Typed.Same.output {t t' : Typed} (h : t.Same same t') (label : Option String)
    (text : String) : t.output label text = t'.output label text := by
  cases h
  rfl

theorem Typed.Same.order {t t' : Typed} (h : t.Same same t') : t.order = t'.order := by
  cases h
  rfl

/-- Terms that read positions in a row are related to themselves. -/
theorem columns_same (n : Nat) :
    List.Forall₂ (Term.Same same) ((List.range n).map Term.column) ((List.range n).map Term.column) :=
  List.rel_map (fun i _ h => h ▸ .column i) (forall₂_eq (List.range n))

theorem SameResult.terms {rs rs' : List (Typed × Output)} (h : List.Forall₂ (SameResult same) rs rs') :
    List.Forall₂ (Term.Same same) (rs.map (·.1.term)) (rs'.map (·.1.term)) :=
  List.rel_map (fun _ _ h => h.1.term) h

theorem orderedPlan_same {ts ts' : List Term} (hts : List.Forall₂ (Term.Same same) ts ts')
    {ks ks' : List ResolvedKey} (hks : List.Forall₂ (ResolvedKey.Same same) ks ks')
    {wrap : Plan → Plan} (hwrap : ∀ p p', p.Same same p' → (wrap p).Same same (wrap p'))
    {p p' : Plan} (hp : p.Same same p') :
    (orderedPlan ts ks wrap p).Same same (orderedPlan ts' ks' wrap p') := by
  have hextra : List.Forall₂ (Term.Same same) (ks.filterMap fun k => k.place.getRight?)
      (ks'.filterMap fun k => k.place.getRight?) := by
    refine List.rel_filterMap (fun k k' hk => ?_) hks
    cases hk with
    | position => exact .none
    | term h => exact .some h
  have hsort : ∀ {qs qs'}, List.Forall₂ (Term.Same same) qs qs' →
      (wrap (.project qs p)).Same same (wrap (.project qs' p')) :=
    fun hqs => hwrap _ _ (.project hqs hp)
  unfold orderedPlan
  rw [forall₂_isEmpty hks]
  split
  · exact hsort hts
  · -- the positions to sort by do not depend on the terms that are added for the sorting
    dsimp only
    rw [forall₂_isEmpty hextra, hts.length_eq, forall₂_foldl_eq hks (fun acc k k' hk => by
      cases hk <;> rfl)]
    split
    · exact .sort _ (hsort (List.rel_append hts hextra))
    · exact .project (columns_same _) (.sort _ (hsort (List.rel_append hts hextra)))

theorem combinePlans_same (op : CompoundOp) {l l' r r' : Plan} (hl : l.Same same l')
    (hr : r.Same same r') : (combinePlans op l r).Same same (combinePlans op l' r') := by
  cases op with
  | unionAll => exact .append hl hr
  | union => exact .combine _ hl hr
  | intersect => exact .combine _ hl hr
  | except => exact .combine _ hl hr

mutual

/-- Columns are read alike. -/
theorem Term.readsFrom_same (first : Nat) : ∀ (t : Term) {t' : Term}, t.Same same t' →
    t.readsFrom first = t'.readsFrom first
  | .value _, _, .value _ => rfl
  | .column _, _, .column _ => rfl
  | .negate e, _, .negate he => by
    rw [Term.readsFrom, Term.readsFrom, readsFrom_same first e he]
  | .bitNot e, _, .bitNot he => by
    rw [Term.readsFrom, Term.readsFrom, readsFrom_same first e he]
  | .not e, _, .not he => by
    rw [Term.readsFrom, Term.readsFrom, readsFrom_same first e he]
  | .isNull e, _, .isNull he => by
    rw [Term.readsFrom, Term.readsFrom, readsFrom_same first e he]
  | .and l r, _, .and hl hr => by
    rw [Term.readsFrom, Term.readsFrom, readsFrom_same first l hl, readsFrom_same first r hr]
  | .or l r, _, .or hl hr => by
    rw [Term.readsFrom, Term.readsFrom, readsFrom_same first l hl, readsFrom_same first r hr]
  | .arithmetic _ l r, _, .arithmetic _ hl hr => by
    rw [Term.readsFrom, Term.readsFrom, readsFrom_same first l hl, readsFrom_same first r hr]
  | .compare _ _ l r, _, .compare _ _ hl hr => by
    rw [Term.readsFrom, Term.readsFrom, readsFrom_same first l hl, readsFrom_same first r hr]
  | .same _ _ l r, _, .same _ _ hl hr => by
    rw [Term.readsFrom, Term.readsFrom, readsFrom_same first l hl, readsFrom_same first r hr]
  | .between _ _ e l u, _, .between _ _ he hl hu => by
    rw [Term.readsFrom, Term.readsFrom, readsFrom_same first e he, readsFrom_same first l hl,
      readsFrom_same first u hu]
  | .among _ e items, _, .among _ he hitems => by
    rw [Term.readsFrom, Term.readsFrom, readsFrom_same first e he, anyReadsFrom_same first items hitems]
  | .choice items, _, .choice hitems => by
    rw [Term.readsFrom, Term.readsFrom, anyReadsFrom_same first items hitems]
  | .select _ e items, _, .select _ he hitems => by
    rw [Term.readsFrom, Term.readsFrom, readsFrom_same first e he, anyReadsFrom_same first items hitems]
  | .coalesce items, _, .coalesce hitems => by
    rw [Term.readsFrom, Term.readsFrom, anyReadsFrom_same first items hitems]
  | .cast _ e, _, .cast _ he => by
    rw [Term.readsFrom, Term.readsFrom, readsFrom_same first e he]
  | .scalar _ items, _, .scalar _ hitems => by
    rw [Term.readsFrom, Term.readsFrom, anyReadsFrom_same first items hitems]
  | .host _ items, _, .host _ hitems => by
    rw [Term.readsFrom, Term.readsFrom, anyReadsFrom_same first items hitems]

theorem Term.anyReadsFrom_same (first : Nat) : ∀ (ts : List Term) {ts' : List Term},
    List.Forall₂ (Term.Same same) ts ts' → Term.anyReadsFrom first ts = Term.anyReadsFrom first ts'
  | [], _, .nil => rfl
  | t :: ts, _, .cons ht hts => by
    rw [Term.anyReadsFrom, Term.anyReadsFrom, readsFrom_same first t ht, anyReadsFrom_same first ts hts]

end

/-! ## Names of a core -/

theorem expandStars_columnar (columns : List SourceColumn) (noSource : Bool)
    (cs : List ResultColumn) :
    EndAlike (fun es es' => es = es' ∧ ∀ e ∈ es, IsColumnar same e)
      (expandStars columns noSource cs) (expandStars columns noSource cs) := by
  have hfound (found : List SourceColumn) :
      ∀ e ∈ found.map fun c => (.inl c.typed : Typed ⊕ (Expr × Option String × String)),
        IsColumnar same e := by
    intro e he t heq
    obtain ⟨c, _, rfl⟩ := List.mem_map.mp he
    cases heq
    exact .column c
  unfold expandStars
  dsimp only
  refine EndAlike.bind (EndAlike.mapM_same
    (B := fun es es' => es = es' ∧ ∀ e ∈ es, IsColumnar same e) (fun c => ?_) cs)
    fun parts parts' hparts => .ok ?_
  · cases c with
    | all =>
      dsimp only
      split
      · exact .error _
      · exact .ok ⟨rfl, hfound _⟩
    | allOf t =>
      dsimp only
      split
      · exact .error _
      · exact .ok ⟨rfl, hfound _⟩
    | expr e label text =>
      refine .ok ⟨rfl, fun e he t heq => ?_⟩
      rw [List.mem_singleton.mp he] at heq
      exact nomatch heq
  · induction hparts with
    | nil => exact ⟨rfl, fun _ he => absurd he List.not_mem_nil⟩
    | cons hhead _ ih =>
      obtain ⟨rfl, hcolumnar⟩ := hhead
      obtain ⟨htail, hrest⟩ := ih
      rw [List.flatten_cons, List.flatten_cons, htail]
      exact ⟨rfl, List.forall_mem_append.mpr ⟨hcolumnar, htail ▸ hrest⟩⟩

section

variable (hone : OneToOne same) {names names' : Names} (h : names.Same same names')

include hone h

omit hone in
/-- Names with other labels. -/
theorem Names.Same.relabel {ls ls' : List (String × Typed)}
    (hls : List.Forall₂ (SameLabel same) ls ls') :
    Names.Same same { names with labels := ls } { names' with labels := ls' } := by
  cases h with
  | mk names _ hfunctions => exact .mk names hls hfunctions

theorem resolveResult_same {entries : List (Typed ⊕ (Expr × Option String × String))}
    (hentries : ∀ e ∈ entries, IsColumnar same e) :
    ResolvedAlike same (List.Forall₂ (SameResult same)) (resolveResult names entries)
      (resolveResult names' entries) := by
  induction entries with
  | nil => exact .pure .nil
  | cons entry rest ih =>
    obtain ⟨hentry, hrest⟩ := List.forall_mem_cons.mp hentries
    rcases entry with t | ⟨e, label, text⟩
    · have ht := hentry t rfl
      exact (ih hrest).bind fun rs rs' hrs => .pure (.cons ⟨ht, rfl⟩ hrs)
    · refine (resolve_same hone h true e).bind fun t t' ht => ?_
      exact (ih hrest).bind fun rs rs' hrs => .pure (.cons ⟨ht, ht.output label text⟩ hrs)

theorem resolveGroup_same {result result' : List (Typed × Output)}
    (hresult : List.Forall₂ (SameResult same) result result') (keys : List Expr) :
    ResolvedAlike same (List.Forall₂ (SameKey same)) (resolveGroup names result keys)
      (resolveGroup names' result' keys) := by
  have hwidth : names.width = names'.width := by
    cases h
    rfl
  unfold resolveGroup
  refine .mapM (fun k => ?_) _
  obtain ⟨e, i⟩ := k
  have hrest : ∀ t t' : Typed, t.Same same t' → ResolvedAlike same (SameKey same)
      (do
        if t.term.readsFrom names.width then
          refuse "aggregate functions are not allowed in the GROUP BY clause"
        return (t.term, t.order))
      (do
        if t'.term.readsFrom names'.width then
          refuse "aggregate functions are not allowed in the GROUP BY clause"
        return (t'.term, t'.order)) := by
    intro t t' ht
    rw [hwidth, Term.readsFrom_same _ _ ht.term]
    exact .guard _ (.pure ⟨ht.term, ht.order⟩)
  dsimp only
  split
  next k =>
    rw [hresult.length_eq]
    refine (ResolvedAlike.ofExcept (.same _)).bind_same fun p => ?_
    refine (ResolvedAlike.pure ?_).bind hrest
    have htyped : List.Forall₂ (Typed.Same same) (result.map (·.1)) (result'.map (·.1)) :=
      List.rel_map (fun _ _ hr => hr.1) hresult
    rw [List.getD_eq_getElem?_getD, List.getD_eq_getElem?_getD]
    exact rel_getD (forall₂_getElem? htyped p) (.mk default (.value _))
  next => exact (resolve_same hone h true _).bind hrest

/-- A key of an order is looked up alike: as a position, a label, or a term that the result may
hold already. -/
theorem resolveOrder_same (aggregates : Bool) {result result' : List (Typed × Output)}
    (hresult : List.Forall₂ (SameResult same) result result') (labels : List String)
    (order : List OrderTerm) :
    ResolvedAlike same (List.Forall₂ (ResolvedKey.Same same))
      (resolveOrder names aggregates result labels order)
      (resolveOrder names' aggregates result' labels order) := by
  have horders : result.map (·.1.order) = result'.map (·.1.order) :=
    forall₂_map_eq hresult fun r r' hr => hr.1.order
  unfold resolveOrder
  refine .mapM (fun k => ?_) _
  obtain ⟨o, i⟩ := k
  rw [horders, hresult.length_eq]
  dsimp only
  split
  next k => exact (ResolvedAlike.ofExcept (.same _)).bind_same fun p => .pure (.position _ _ _ _)
  next =>
    split
    next p _ => exact .pure (.position _ _ _ _)
    next =>
      refine (resolve_same hone h aggregates _).bind fun t t' ht => ?_
      have hfind := forall₂_findIdx? (p := fun r => r.1.term == t.term)
        (q := fun r => r.1.term == t'.term) hresult fun r r' hr =>
          Term.beq_same hone _ hr.1.term ht.term
      rw [hfind, ht.order]
      split
      · exact .pure (.position _ _ _ _)
      · exact .pure (.term ht.term _ _ _)

end

/-! ## Limits and values -/

section

variable (hone : OneToOne same) {fs fs' : List HostFunction}
  (hfs : List.Forall₂ (HostFunction.Same same) fs fs')

include hfs

omit hone in
/-- Names without columns. -/
theorem noNames_same : Names.Same same { (default : Names) with functions := fs }
    { (default : Names) with functions := fs' } :=
  .mk default .nil hfs

include hone

theorem limitedPlan_same (limit offset : Option Expr) {p p' : Plan} (hp : p.Same same p') :
    EndAlike (Plan.Same same) (limitedPlan fs limit offset p) (limitedPlan fs' limit offset p') := by
  have hplain := resolvePlain_same hone (noNames_same hfs)
  unfold limitedPlan
  cases limit with
  | none => exact .ok hp
  | some e =>
    refine (hplain e).bind fun count count' hcount => ?_
    refine (EndAlike.mapM_option hplain offset).bind fun skip skip' hskip => ?_
    exact .ok (.limit hcount.term (rel_map hskip fun _ _ ht => ht.term) hp)

omit hone hfs in
/-- The plan of one of several value lists, some of which call aggregates. -/
theorem singleRow_same {r r' : List Typed × List AggregateCall}
    (hr : List.Forall₂ (Typed.Same same) r.1 r'.1 ∧ List.Forall₂ (AggregateCall.Same same) r.2 r'.2) :
    Plan.Same same
      (if r.2.isEmpty then .values [r.1.map (·.term)]
        else .project (r.1.map (·.term)) (.total r.2 0 (.rows [[]])))
      (if r'.2.isEmpty then .values [r'.1.map (·.term)]
        else .project (r'.1.map (·.term)) (.total r'.2 0 (.rows [[]]))) := by
  rw [forall₂_isEmpty hr.2]
  split
  · exact .values (.cons (Typed.Same.terms hr.1) .nil)
  · exact .project (Typed.Same.terms hr.1) (.total 0 hr.2 (.rows _))

theorem compileValues_same (rows : List (List Expr)) :
    EndAlike (PlanWith same) (compileValues fs rows) (compileValues fs' rows) := by
  unfold compileValues
  have hall (r : List Expr) := resolveAll_same hone (noNames_same hfs) true r [] [] .nil
  refine (EndAlike.mapM_same hall rows).bind fun resolved resolved' hresolved => ?_
  have hempty : (resolved.all fun r => r.2.isEmpty) = resolved'.all fun r => r.2.isEmpty :=
    forall₂_all hresolved fun r r' hr => forall₂_isEmpty hr.2
  refine .ite (.error _) ?_
  dsimp only
  rw [hempty]
  refine .ite (.ok ⟨.values ?_, rfl⟩) (.ok ⟨?_, rfl⟩)
  · exact List.rel_map (fun r r' hr => Typed.Same.terms hr.1) hresolved
  · have hreverse := List.forall₂_reverse_iff.mpr hresolved
    revert hreverse
    generalize resolved.reverse = rs
    generalize resolved'.reverse = rs'
    intro hreverse
    cases hreverse with
    | nil => exact .rows _
    | cons hlast hbefore =>
      exact List.rel_foldl (fun p p' hp r r' hr => .append (singleRow_same hr) hp)
        (singleRow_same hlast)
        hbefore

end

/-! ## Queries -/

/-- What is looked up in a core, once its sources are known. -/
theorem resolveCore_same (hone : OneToOne same) {names names' : Names} (h : names.Same same names')
    {entries : List (Typed ⊕ (Expr × Option String × String))}
    (hentries : ∀ e ∈ entries, IsColumnar same e) (order : List OrderTerm) (condition : Option Expr)
    (groupBy : List Expr) (having : Option Expr) :
    ResolvedAlike same
      (fun r r' => List.Forall₂ (SameResult same) r.1 r'.1 ∧ Option.Rel (Typed.Same same) r.2.1 r'.2.1
        ∧ Option.Rel (Typed.Same same) r.2.2.1 r'.2.2.1
        ∧ List.Forall₂ (ResolvedKey.Same same) r.2.2.2.1 r'.2.2.2.1
        ∧ List.Forall₂ (SameKey same) r.2.2.2.2 r'.2.2.2.2)
      (do
        let result ← resolveResult names entries
        let aggregates := !groupBy.isEmpty || !(← get).isEmpty
        let labels := entries.zip result |>.filterMap fun (e, r) =>
          match e with
          | .inr (_, some label, _) => some (label, r.1)
          | _ => none
        let names := { names with labels := labels }
        let havingTerm ← having.mapM fun e => do
          if !aggregates then refuse "HAVING clause on a non-aggregate query"
          resolve names true e
        let conditionTerm ← condition.mapM (resolve names false)
        let labelNames := entries.map fun
          | .inr (_, some label, _) => label
          | _ => ""
        let keys ← resolveOrder names aggregates result labelNames order
        let groupKeys ← resolveGroup names result groupBy
        return (result, havingTerm, conditionTerm, keys, groupKeys))
      (do
        let result ← resolveResult names' entries
        let aggregates := !groupBy.isEmpty || !(← get).isEmpty
        let labels := entries.zip result |>.filterMap fun (e, r) =>
          match e with
          | .inr (_, some label, _) => some (label, r.1)
          | _ => none
        let names := { names' with labels := labels }
        let havingTerm ← having.mapM fun e => do
          if !aggregates then refuse "HAVING clause on a non-aggregate query"
          resolve names true e
        let conditionTerm ← condition.mapM (resolve names false)
        let labelNames := entries.map fun
          | .inr (_, some label, _) => label
          | _ => ""
        let keys ← resolveOrder names aggregates result labelNames order
        let groupKeys ← resolveGroup names result groupBy
        return (result, havingTerm, conditionTerm, keys, groupKeys)) := by
  refine (resolveResult_same hone h hentries).bind fun result result' hresult => ?_
  refine .get_bind fun cs cs' hcs => ?_
  -- what follows may refer to the labels that the result gives to its columns
  have hlabels : List.Forall₂ (SameLabel same)
      (entries.zip result |>.filterMap fun (e, r) =>
        match e with
        | .inr (_, some label, _) => some (label, r.1)
        | _ => none)
      (entries.zip result' |>.filterMap fun (e, r) =>
        match e with
        | .inr (_, some label, _) => some (label, r.1)
        | _ => none) := by
    refine List.rel_filterMap (fun p p' hp => ?_) (forall₂_zip (forall₂_eq entries) hresult)
    obtain ⟨entry, r⟩ := p
    obtain ⟨entry', r'⟩ := p'
    obtain ⟨rfl, hr⟩ := hp
    dsimp only
    split
    · exact .some ⟨rfl, hr.1⟩
    · exact .none
  have h' := h.relabel hlabels
  dsimp only
  rw [forall₂_isEmpty hcs]
  refine (ResolvedAlike.mapM_option (fun e => .guard _ (resolve_same hone h' true e)) having).bind
    fun having having' hhaving => ?_
  refine (ResolvedAlike.mapM_option (fun e => resolve_same hone h' false e) condition).bind
    fun condition condition' hcondition => ?_
  refine (resolveOrder_same hone h' _ hresult _ order).bind fun keys keys' hkeys => ?_
  refine (resolveGroup_same hone h' hresult groupBy).bind fun groups groups' hgroups => ?_
  exact .pure ⟨hresult, hhaving, hcondition, hkeys, hgroups⟩

theorem Environment.Same.functions {env env' : Environment} (h : env.Same same env') :
    List.Forall₂ (HostFunction.Same same) env.functions env'.functions := by
  cases h with
  | mk env h => exact h

/-- Environments with other named queries. -/
theorem Environment.Same.rename {env env' : Environment} (h : env.Same same env')
    (f : List Named → List Named) :
    Environment.Same same { env with named := f env.named } { env' with named := f env'.named } := by
  cases h with
  | mk env h => exact .mk { env with named := f env.named } h

theorem Environment.Same.table {env env' : Environment} (h : env.Same same env') (t : TableName) :
    env.table t = env'.table t := by
  cases h
  rfl

/-- A filter for a condition, if there is one. -/
theorem filtered_same {p p' : Plan} (hp : p.Same same p') {t t' : Option Typed} :
    Option.Rel (Typed.Same same) t t' → Plan.Same same
      (match t with
        | some t => .filter t.term p
        | none => p)
      (match t' with
        | some t => .filter t.term p'
        | none => p') := by
  intro ht
  cases ht with
  | some ht => exact .filter ht.term hp
  | none => exact hp

mutual

/-- A query becomes the same plan but for numbers. -/
theorem compileQuery_same (hone : OneToOne same) {env env' : Environment} (h : env.Same same env') :
    ∀ (fuel : Nat) (q : Query),
      EndAlike (PlanWith same) (compileQuery env fuel q) (compileQuery env' fuel q)
  | 0, _ => by
    simp only [compileQuery]
    exact .error _
  | fuel + 1, .mk named first rest misplaced order limit offset => by
    have henv := h.rename fun ns => named.map Named.query ++ ns
    have hcore (order : List OrderTerm) := compileCore_same hone henv order fuel first
    have hlimited {p p' : Plan} (hp : p.Same same p') :=
      limitedPlan_same hone henv.functions limit offset hp
    simp only [compileQuery]
    refine .ite (.error _) ?_
    cases misplaced with
    | some part => exact .error _
    | none =>
      cases rest with
      | nil =>
        refine (hcore order).bind fun c c' hc => (hlimited hc.1).bind fun p p' hp => .ok ⟨hp, hc.2⟩
      | cons part rest =>
        refine (hcore []).bind fun c c' hc => ?_
        obtain ⟨plan, outs⟩ := c
        obtain ⟨plan', outs'⟩ := c'
        obtain ⟨hplan, rfl⟩ := hc
        refine (compileRest_same hone henv fuel hplan outs (part :: rest)).bind fun c c' hc => ?_
        obtain ⟨plan, outs⟩ := c
        obtain ⟨plan', outs'⟩ := c'
        obtain ⟨hplan, rfl⟩ := hc
        refine (EndAlike.same _).bind fun keys keys' hkeys => ?_
        subst hkeys
        refine (hlimited ?_).bind fun p p' hp => .ok ⟨hp, rfl⟩
        split
        · exact hplan
        · refine orderedPlan_same (columns_same _) ?_ (fun _ _ hp => hp) hplan
          exact List.forall₂_map_left_iff.mpr (List.forall₂_map_right_iff.mpr
            (List.forall₂_same.mpr fun _ _ => .position _ _ _ _))

theorem compileRest_same (hone : OneToOne same) {env env' : Environment} (h : env.Same same env') :
    ∀ (fuel : Nat) {plan plan' : Plan}, plan.Same same plan' → ∀ (outs : List Output)
      (rest : List (CompoundOp × Core)), EndAlike (PlanWith same)
        (compileRest env fuel plan outs rest) (compileRest env' fuel plan' outs rest)
  | 0, _, _, _, _, _ => by
    simp only [compileRest]
    exact .error _
  | _ + 1, _, _, hplan, outs, [] => by
    simp only [compileRest]
    exact .ok ⟨hplan, rfl⟩
  | fuel + 1, _, _, hplan, outs, (op, core) :: rest => by
    simp only [compileRest]
    refine (compileCore_same hone h [] fuel core).bind fun c c' hc => ?_
    obtain ⟨next, nextOuts⟩ := c
    obtain ⟨next', nextOuts'⟩ := c'
    obtain ⟨hnext, rfl⟩ := hc
    refine (EndAlike.same _).bind fun _ _ _ => ?_
    exact compileRest_same hone h fuel (combinePlans_same op hplan hnext) _ rest

theorem compileCore_same (hone : OneToOne same) {env env' : Environment} (h : env.Same same env')
    (order : List OrderTerm) : ∀ (fuel : Nat) (core : Core),
      EndAlike (PlanWith same) (compileCore env order fuel core) (compileCore env' order fuel core)
  | 0, _ => by
    simp only [compileCore]
    exact .error _
  | _ + 1, .values rows => by
    simp only [compileCore]
    exact compileValues_same hone h.functions rows
  | fuel + 1, .select distinct columns sources condition groupBy having => by
    simp only [compileCore]
    refine (compileSources_same hone h fuel sources).bind fun c c' hc => ?_
    obtain ⟨source, sourceColumns, width⟩ := c
    obtain ⟨source', sourceColumns', width'⟩ := c'
    obtain ⟨hsource, heq⟩ := hc
    cases heq
    refine (@expandStars_columnar same sourceColumns sources.isEmpty columns).bind
      fun entries entries' hentries => ?_
    obtain ⟨rfl, hcolumnar⟩ := hentries
    have hnames : Names.Same same ⟨sourceColumns, width, [], env.functions⟩
        ⟨sourceColumns, width, [], env'.functions⟩ :=
      .mk ⟨sourceColumns, width, [], []⟩ .nil h.functions
    refine (resolveCore_same hone hnames hcolumnar order condition groupBy having [] [] .nil).bind
      fun r r' hr => ?_
    obtain ⟨⟨result, havingTerm, conditionTerm, keys, groupKeys⟩, calls⟩ := r
    obtain ⟨⟨result', havingTerm', conditionTerm', keys', groupKeys'⟩, calls'⟩ := r'
    obtain ⟨⟨hresult, hhaving, hcondition, hkeys, hgroups⟩, hcalls⟩ := hr
    refine .ok ⟨?_, forall₂_map_eq hresult fun r r' hr => hr.2⟩
    dsimp only at hsource hresult hhaving hcondition hkeys hgroups hcalls ⊢
    have hfiltered := filtered_same hsource hcondition
    rw [forall₂_isEmpty hgroups, forall₂_isEmpty hcalls]
    refine orderedPlan_same (SameResult.terms hresult) hkeys (fun p p' hp => ?_)
      (filtered_same ?_ hhaving)
    · split
      · exact .distinct hp
      · exact hp
    · split
      · exact .group hgroups hcalls hfiltered
      · split
        · exact .total width hcalls hfiltered
        · exact hfiltered

theorem compileSources_same (hone : OneToOne same) {env env' : Environment} (h : env.Same same env') :
    ∀ (fuel : Nat) (sources : List Source), EndAlike (PlanWith same)
      (compileSources env fuel sources) (compileSources env' fuel sources)
  | 0, _ => by
    simp only [compileSources]
    exact .error _
  | _ + 1, [] => by
    simp only [compileSources]
    exact .ok ⟨.rows _, rfl⟩
  | fuel + 1, first :: rest => by
    simp only [compileSources]
    refine (compileSource_same hone h fuel first 0).bind fun c c' hc => ?_
    obtain ⟨plan, columns, width⟩ := c
    obtain ⟨plan', columns', width'⟩ := c'
    obtain ⟨hplan, heq⟩ := hc
    cases heq
    exact compileJoins_same hone h fuel hplan columns width rest

theorem compileJoins_same (hone : OneToOne same) {env env' : Environment} (h : env.Same same env') :
    ∀ (fuel : Nat) {plan plan' : Plan}, plan.Same same plan' → ∀ (columns : List SourceColumn)
      (width : Nat) (sources : List Source), EndAlike (PlanWith same)
        (compileJoins env fuel plan columns width sources)
        (compileJoins env' fuel plan' columns width sources)
  | 0, _, _, _, _, _, _ => by
    simp only [compileJoins]
    exact .error _
  | _ + 1, _, _, hplan, _, _, [] => by
    simp only [compileJoins]
    exact .ok ⟨hplan, rfl⟩
  | fuel + 1, _, _, hplan, columns, width, source :: rest => by
    simp only [compileJoins]
    refine (compileSource_same hone h fuel source width).bind fun c c' hc => ?_
    obtain ⟨next, nextColumns, nextWidth⟩ := c
    obtain ⟨next', nextColumns', nextWidth'⟩ := c'
    obtain ⟨hnext, heq⟩ := hc
    cases heq
    exact compileJoins_same hone h fuel (.join hplan hnext) _ _ rest

theorem compileSource_same (hone : OneToOne same) {env env' : Environment} (h : env.Same same env') :
    ∀ (fuel : Nat) (source : Source) (first : Nat), EndAlike (PlanWith same)
      (compileSource env fuel source first) (compileSource env' fuel source first)
  | 0, _, _ => by
    simp only [compileSource]
    exact .error _
  | fuel + 1, .query q label, first => by
    simp only [compileSource]
    refine (compileQuery_same hone h fuel q).bind fun c c' hc => ?_
    obtain ⟨plan, outs⟩ := c
    obtain ⟨plan', outs'⟩ := c'
    obtain ⟨hplan, rfl⟩ := hc
    exact .ok ⟨.loop hplan, rfl⟩
  | fuel + 1, .table name label, first => by
    have hnamed : env'.named = env.named := by
      cases h
      rfl
    simp only [compileSource]
    rw [hnamed, h.table name]
    generalize (if name.schema.isSome = true then none else _) = named?
    rcases named? with _ | q | ⟨name, outs⟩ | name
    · refine (EndAlike.same _).bind fun t t' ht => ?_
      subst ht
      exact .ok ⟨.loop (.scan _ _), rfl⟩
    · refine (compileNamed_same hone h fuel q).bind fun c c' hc => ?_
      obtain ⟨plan, outs⟩ := c
      obtain ⟨plan', outs'⟩ := c'
      obtain ⟨hplan, rfl⟩ := hc
      exact .ok ⟨.loop hplan, rfl⟩
    · exact .ok ⟨.loop .working, rfl⟩
    · exact .error _

theorem compileNamed_same (hone : OneToOne same) {env env' : Environment} (h : env.Same same env') :
    ∀ (fuel : Nat) (q : NamedQuery), EndAlike (PlanWith same)
      (compileNamed env fuel q) (compileNamed env' fuel q)
  | 0, _ => by
    simp only [compileNamed]
    exact .error _
  | fuel + 1, .mk name columns (.mk named first rest misplaced order limit offset) => by
    have hclosed := h.rename fun ns => .unfinished name :: ns
    have hquery (q : Query) := compileQuery_same hone hclosed fuel q
    simp only [compileNamed]
    split
    · refine (hquery _).bind fun c c' hc => ?_
      obtain ⟨plan, outs⟩ := c
      obtain ⟨plan', outs'⟩ := c'
      obtain ⟨hplan, rfl⟩ := hc
      refine (EndAlike.same _).bind fun outs outs' houts => ?_
      exact .ok ⟨hplan, houts⟩
    · refine (hquery _).bind fun c c' hc => ?_
      obtain ⟨base, outs⟩ := c
      obtain ⟨base', outs'⟩ := c'
      obtain ⟨hbase, rfl⟩ := hc
      refine (EndAlike.same _).bind fun outs outs' houts => ?_
      subst houts
      have hinner := h.rename fun ns => .running name outs :: (named.map Named.query ++ ns)
      refine (EndAlike.mapM_same (B := Plan.Same same) (fun part => ?_) _).bind
        fun parts parts' hparts => ?_
      · refine (compileCore_same hone hinner [] fuel part.2).bind fun c c' hc => ?_
        obtain ⟨plan, outs⟩ := c
        obtain ⟨plan', outs'⟩ := c'
        obtain ⟨hplan, rfl⟩ := hc
        exact (EndAlike.same _).bind fun _ _ _ => .ok hplan
      · refine (limitedPlan_same hone h.functions limit offset (.recursive _ hbase ?_)).bind
          fun p p' hp => .ok ⟨hp, rfl⟩
        cases hparts with
        | nil => exact .rows _
        | cons hhead htail =>
          exact List.rel_foldl (fun p p' hp q q' hq => .append hp hq) hhead htail

end

end HostSql.Engine
