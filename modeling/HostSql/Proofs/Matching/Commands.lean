import HostSql.Engine.CompileCommand
import HostSql.Proofs.Matching.Compiling

/-!
# Commands are compiled alike

A command becomes the same program but for the numbers of host functions, or has the same mistake:
`compileCommand_same`. What is checked of a definition does not depend on these numbers at all.
-/

namespace HostSql.Engine

open Sql

/-- Settings that are the same but for the numbers of functions. -/
inductive Settings.Same (same : Nat → Nat → Prop) : Settings → Settings → Prop
  | mk (s : Settings) {fs fs'} (h : List.Forall₂ (HostFunction.Same same) fs fs') :
      Same same { s with functions := fs } { s with functions := fs' }

variable {same : Nat → Nat → Prop}

namespace Settings.Same

variable {s s' : Settings} (h : s.Same same s')

include h

theorem functions : List.Forall₂ (HostFunction.Same same) s.functions s'.functions := by
  cases h with
  | mk s h => exact h

theorem environment : s.environment.Same same s'.environment := by
  cases h with
  | mk s h => exact .mk ⟨s.catalog, [], []⟩ h

theorem tableNames (t : Table) : (tableNames s t).Same same (Engine.tableNames s' t) := by
  cases h with
  | mk s h => exact .mk ⟨tableColumns t t.name 0, t.width + 1, [], []⟩ .nil h

theorem silent (access : Access) {a a' : Action} (ha : a.Same same a') :
    (silent s access a).Same same (Engine.silent s' access a') := by
  cases h with
  | mk s _ =>
    exact .mk ⟨.nothing, [], access, if access = .none then none else s.catalog.map (·.cookie)⟩ ha

end Settings.Same

/-! ## What a plan reads -/

/-- Tables are read alike. -/
theorem Plan.readsRoot_same (root : Nat) {p p' : Plan} (h : p.Same same p') :
    p.readsRoot root = p'.readsRoot root := by
  induction h with
  | rows | working | values | scan => rfl
  | loop _ ih | filter _ _ ih | project _ _ ih | total _ _ _ ih | group _ _ _ ih | sort _ _ ih
  | distinct _ ih | limit _ _ _ ih => exact ih
  | join _ _ ihl ihr | append _ _ ihl ihr | combine _ _ _ ihl ihr | recursive _ _ _ ihl ihr =>
    simp only [Plan.readsRoot, ihl, ihr]

theorem Plan.readsTable_same {p p' : Plan} (h : p.Same same p') : p.readsTable = p'.readsTable := by
  induction h with
  | rows | working | values | scan => rfl
  | loop _ ih | filter _ _ ih | project _ _ ih | total _ _ _ ih | group _ _ _ ih | sort _ _ ih
  | distinct _ ih | limit _ _ _ ih => exact ih
  | join _ _ ihl ihr | append _ _ ihl ihr | combine _ _ _ ihl ihr | recursive _ _ _ ihl ihr =>
    simp only [Plan.readsTable, ihl, ihr]

/-! ## Definitions -/

theorem Settings.Same.table {s s' : Settings} (h : s.Same same s') (name : TableName) :
    s.environment.table name = s'.environment.table name :=
  h.environment.table name

theorem targetTable_same {s s' : Settings} (h : s.Same same s') (name : TableName) :
    targetTable s name = targetTable s' name := by
  cases h
  rfl

section

variable (hone : OneToOne same) {s s' : Settings} (h : s.Same same s')

include hone h

/-- What is checked of a definition does not depend on numbers. -/
theorem checkDefinition_same (name : String) (d : TableDef) :
    checkDefinition s name d = checkDefinition s' name d := by
  have hcheck (t : Table) (e : Expr) :
      (resolvePlain (tableNames s t) e >>= fun _ =>
          (pure (.yield ⟨⟩) : Except Fault (ForInStep PUnit)))
        = resolvePlain (tableNames s' t) e >>= fun _ => pure (.yield ⟨⟩) :=
    ((resolvePlain_same hone (h.tableNames t) e).bind fun _ _ _ => .same _).eq
  unfold checkDefinition
  simp only [hcheck]

theorem checkChanged_same (t : Table) (when' text : String) :
    checkChanged s t when' text = checkChanged s' t when' text := by
  unfold checkChanged
  simp only [checkDefinition_same hone h]

/-! ## Changes of rows -/

theorem defaultTerms_same (t : Table) :
    EndAlike (List.Forall₂ (Term.Same same)) (defaultTerms s t) (defaultTerms s' t) := by
  unfold defaultTerms
  refine EndAlike.mapM_same (fun c => ?_) t.columns
  split
  · exact (resolvePlain_same hone (noNames_same h.functions) _).bind fun e e' he => .ok he.term
  · exact .ok (.value _)

theorem targetOf_same (t : Table) (conflict : Option Conflict) :
    EndAlike (Target.Same same) (targetOf s t conflict) (targetOf s' t conflict) := by
  unfold targetOf
  refine (EndAlike.mapM_same (B := SameCheck same) (fun c => ?_) t.checks).bind
    fun cs cs' hcs => ?_
  · exact (resolvePlain_same hone (h.tableNames t) c.2).bind fun e e' he => .ok ⟨rfl, he.term⟩
  · exact (defaultTerms_same hone h t).bind fun ds ds' hds => .ok (.mk t hcs hds conflict)

omit hone h in
/-- Terms are put in their places alike. -/
theorem placeColumns_same (t : Table) (listed : Option (List String)) {given given' ds ds' : List Term}
    (hgiven : List.Forall₂ (Term.Same same) given given')
    (hds : List.Forall₂ (Term.Same same) ds ds') :
    List.Forall₂ (Term.Same same) (placeColumns t listed given ds).1
        (placeColumns t listed given' ds').1
      ∧ Option.Rel (Term.Same same) (placeColumns t listed given ds).2
        (placeColumns t listed given' ds').2 := by
  have hterms : List.Forall₂ (Term.Same same) (placeColumns t listed given ds).1
      (placeColumns t listed given' ds').1 := by
    refine List.rel_map (fun p p' hp => ?_)
      (forall₂_zipIdx (forall₂_zip (forall₂_eq t.columns) hds) 0)
    obtain ⟨⟨c, d⟩, i⟩ := p
    obtain ⟨⟨c', d'⟩, i'⟩ := p'
    obtain ⟨⟨hc, hd⟩, hi⟩ := hp
    cases hc
    cases hi
    exact rel_getD (rel_bind (forall₂_getElem? hgiven) _) hd
  refine ⟨hterms, ?_⟩
  unfold placeColumns at hterms ⊢
  dsimp only at hterms ⊢
  split
  · exact forall₂_getElem? hterms _
  · cases listed with
    | none => exact .none
    | some names =>
      exact rel_bind (forall₂_getElem? hgiven) _

theorem compileInsert_same (conflict : Option Conflict) (name : TableName)
    (listed : Option (List String)) (source : Option Query) :
    EndAlike (Program.Same same) (compileInsert s conflict name listed source)
      (compileInsert s' conflict name listed source) := by
  unfold compileInsert
  rw [targetTable_same h]
  refine (EndAlike.same _).bind fun t t' ht => ?_
  subst ht
  refine (EndAlike.same _).bind fun _ _ _ => ?_
  refine (targetOf_same hone h t conflict).bind fun target target' htarget => ?_
  have hinsertion {p p' : Plan} (hp : p.Same same p') {ts ts' : List Term}
      (hts : List.Forall₂ (Term.Same same) ts ts') :
      (silent s .write (.changeRows target (.insert p (placeColumns t listed ts target.defaults).1
          (placeColumns t listed ts target.defaults).2))).Same same
        (silent s' .write (.changeRows target' (.insert p'
          (placeColumns t listed ts' target'.defaults).1
          (placeColumns t listed ts' target'.defaults).2))) := by
    have hplaced := placeColumns_same t listed hts (show List.Forall₂ (Term.Same same)
      target.defaults target'.defaults by
        cases htarget with
        | mk _ _ hds _ => exact hds)
    exact h.silent .write (.changeRows htarget (.insert hp hplaced.1 hplaced.2))
  cases source with
  | none => exact .ok (hinsertion (.rows _) .nil)
  | some q =>
    refine (compileQuery_same hone h.environment queryDepth q).bind fun c c' hc => ?_
    obtain ⟨plan, outs⟩ := c
    obtain ⟨plan', outs'⟩ := c'
    obtain ⟨hplan, heq⟩ := hc
    cases heq
    refine (EndAlike.same _).bind fun _ _ _ => ?_
    -- a single list of values takes the place of its plan
    have hrest : ∀ {p p' : Plan}, p.Same same p' →
        (if p.readsRoot t.root then Plan.sort [] p else .loop p).Same same
          (if p'.readsRoot t.root then Plan.sort [] p' else .loop p') := by
      intro p p' hp
      rw [Plan.readsRoot_same t.root hp]
      split
      · exact .sort [] hp
      · exact .loop hp
    have hplain := hinsertion (hrest hplan) (columns_same outs.length)
    cases hplan with
    | values hrows =>
      cases hrows with
      | nil => exact .ok hplain
      | cons hts hmore =>
        cases hmore with
        | nil => exact .ok (hinsertion (.rows _) hts)
        | cons _ _ => exact .ok hplain
    | _ => exact .ok hplain

theorem compileUpdate_same (conflict : Option Conflict) (name : TableName)
    (sets : List (String × Expr)) (condition : Option Expr) :
    EndAlike (Program.Same same) (compileUpdate s conflict name sets condition)
      (compileUpdate s' conflict name sets condition) := by
  unfold compileUpdate
  rw [targetTable_same h]
  refine (EndAlike.same _).bind fun t t' ht => ?_
  subst ht
  have hplain := resolvePlain_same hone (h.tableNames t)
  refine (EndAlike.mapM_same (B := fun r r' => r.1 = r'.1 ∧ r.2.Same same r'.2)
    (fun p => ?_) sets).bind fun resolved resolved' hresolved => ?_
  · obtain ⟨column, e⟩ := p
    have hplaced (place : Option Nat) :=
      (hplain e).bind (B := fun r r' => r.1 = r'.1 ∧ r.2.Same same r'.2)
        fun e e' he => show EndAlike _ (.ok (place, e.term)) (.ok (place, e'.term)) from
          .ok ⟨rfl, he.term⟩
    dsimp only
    split
    · exact hplaced _
    · split
      · exact hplaced none
      · exact .error _
  · refine (EndAlike.mapM_option hplain condition).bind fun c c' hc => ?_
    refine (targetOf_same hone h t conflict).bind fun target target' htarget => .ok ?_
    refine h.silent .write (.changeRows htarget (.update ?_ ?_ ?_))
    · refine List.rel_filterMap (fun r r' hr => ?_) hresolved
      obtain ⟨place, e⟩ := r
      obtain ⟨place', e'⟩ := r'
      obtain ⟨rfl, he⟩ := hr
      cases place with
      | none => exact .none
      | some i => exact .some ⟨rfl, he⟩
    · refine rel_map (forall₂_find? hresolved fun r r' hr => ?_) fun r r' hr => hr.2
      rw [hr.1]
    · exact rel_map hc fun _ _ ht => ht.term

theorem compileDelete_same (name : TableName) (condition : Option Expr) :
    EndAlike (Program.Same same) (compileDelete s name condition) (compileDelete s' name condition) := by
  unfold compileDelete
  rw [targetTable_same h]
  refine (EndAlike.same _).bind fun t t' ht => ?_
  subst ht
  refine (EndAlike.mapM_option (resolvePlain_same hone (h.tableNames t)) condition).bind
    fun c c' hc => ?_
  refine (targetOf_same hone h t none).bind fun target target' htarget => .ok ?_
  exact h.silent .write (.changeRows htarget (.delete (rel_map hc fun _ _ ht => ht.term)))

/-! ## Changes of tables -/

omit hone in
theorem needCatalog_same : s.needCatalog = s'.needCatalog := by
  cases h
  rfl

omit hone in
theorem alterable_same (name : TableName) : alterable s name = alterable s' name := by
  cases h
  rfl

theorem compileCreate_same (ifAbsent : Bool) (name : TableName) (d : TableDef) (text : String) :
    EndAlike (Program.Same same) (compileCreate s ifAbsent name d text)
      (compileCreate s' ifAbsent name d text) := by
  unfold compileCreate
  rw [needCatalog_same h, checkDefinition_same hone h]
  refine (EndAlike.same _).bind fun catalog catalog' hcatalog => ?_
  subst hcatalog
  refine .ite (.error _) ?_
  cases catalog.table? name.name with
  | some t => exact .ite (.ok (h.silent .read .nothing)) (.error _)
  | none => exact (EndAlike.same _).bind fun _ _ _ => .ok (h.silent .write (.changeTables _))

omit hone in
theorem compileDrop_same (ifPresent : Bool) (name : TableName) :
    EndAlike (Program.Same same) (compileDrop s ifPresent name) (compileDrop s' ifPresent name) := by
  unfold compileDrop
  rw [needCatalog_same h, h.table]
  refine (EndAlike.same _).bind fun catalog catalog' hcatalog => ?_
  subst hcatalog
  refine .ite (.ok (h.silent .read .nothing)) ?_
  refine (EndAlike.same _).bind fun t t' ht => ?_
  subst ht
  exact .ite (.error _) (.ok (h.silent .write (.changeTables _)))

omit hone in
theorem compileRename_same (name : TableName) (newName : String) :
    compileRename s name newName = compileRename s' name newName := by
  unfold compileRename
  rw [alterable_same h, needCatalog_same h]

theorem compileRenameColumn_same (name : TableName) (column newText newName : String) :
    compileRenameColumn s name column newText newName
      = compileRenameColumn s' name column newText newName := by
  unfold compileRenameColumn
  simp only [alterable_same h, checkChanged_same hone h]

omit hone in
theorem compileAddColumn_same (name : TableName) (c : ColumnDef) (text : String) :
    compileAddColumn s name c text = compileAddColumn s' name c text := by
  unfold compileAddColumn
  rw [alterable_same h]

theorem compileDropColumn_same (name : TableName) (column : String) :
    compileDropColumn s name column = compileDropColumn s' name column := by
  unfold compileDropColumn
  simp only [alterable_same h, checkChanged_same hone h]

/-! ## Commands -/

omit hone in
theorem compileSetting_same (name : String) (value : Option String) :
    (compileSetting s name value).Same same (compileSetting s' name value) := by
  have hreport (columns : List (String × Option String)) (d : Datum) :
      Program.Same same ⟨.query (.rows [[d]]), columns, .none, none⟩
        ⟨.query (.rows [[d]]), columns, .none, none⟩ :=
    .mk ⟨.nothing, columns, .none, none⟩ (.query (.rows _))
  have hwritable : s.writableCatalog = s'.writableCatalog := by
    cases h
    rfl
  unfold compileSetting
  dsimp only
  rw [hwritable]
  cases value with
  | some _ => exact h.silent .none .nothing
  | none =>
    dsimp only
    split
    · exact hreport _ _
    · split
      · exact hreport _ _
      · split
        · exact hreport _ _
        · exact h.silent .none .nothing

/-- A command becomes the same program but for numbers. -/
theorem compileCommand_same (command : Command) :
    EndAlike (Program.Same same) (compileCommand s command) (compileCommand s' command) := by
  have halter (change : Except Fault TableChange) :
      EndAlike (Program.Same same) (compileCommand.alter s change)
        (compileCommand.alter s' change) :=
    (EndAlike.same change).map fun c c' hc => h.silent .write (hc ▸ .changeTables c)
  cases command with
  | query q =>
    refine (compileQuery_same hone h.environment queryDepth q).bind fun c c' hc => ?_
    obtain ⟨plan, outs⟩ := c
    obtain ⟨plan', outs'⟩ := c'
    obtain ⟨hplan, heq⟩ := hc
    cases heq
    dsimp only
    rw [Plan.readsTable_same hplan]
    have hprogram := h.silent (if plan'.readsTable then .read else .none) (.query hplan)
    revert hprogram
    generalize silent s _ _ = program
    generalize silent s' _ _ = program'
    intro hprogram
    cases hprogram with
    | mk p ha => exact .ok (.mk { p with columns := outs.map fun o => (o.name, o.typeName) } ha)
  | insert conflict table columns source => exact compileInsert_same hone h conflict table columns source
  | update conflict table sets condition => exact compileUpdate_same hone h conflict table sets condition
  | delete table condition => exact compileDelete_same hone h table condition
  | createTable ifAbsent name d text => exact compileCreate_same hone h ifAbsent name d text
  | dropTable ifPresent name => exact compileDrop_same h ifPresent name
  | renameTable table newName =>
    simp only [compileCommand, compileRename_same h]
    exact halter _
  | renameColumn table column newText newName =>
    simp only [compileCommand, compileRenameColumn_same hone h]
    exact halter _
  | addColumn table c text =>
    simp only [compileCommand, compileAddColumn_same h]
    exact halter _
  | dropColumn table column =>
    simp only [compileCommand, compileDropColumn_same hone h]
    exact halter _
  | begin mode => exact .ok (.mk ⟨.begin mode, [], _, none⟩ (.begin mode))
  | commit => exact .ok (h.silent .none .commit)
  | rollback => exact .ok (h.silent .none .rollback)
  | savepoint name => exact .ok (h.silent .none (.savepoint name))
  | release name => exact .ok (h.silent .none (.release name))
  | rollbackTo name => exact .ok (h.silent .none (.rollbackTo name))
  | setting name value => exact .ok (compileSetting_same h name value)

end

end HostSql.Engine
