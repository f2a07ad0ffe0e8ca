import HostSql.Engine.World
import HostSql.Proofs.Matching.Aligned

/-!
# Things under other numbers

Connections, statements, volumes and function records go by numbers, and in two worlds the same thing
may go by different ones. A relation between numbers says which stand for each other; from it, terms,
plans and all that is kept about connections and statements are related: they are the same but for the
numbers in them. Where numbers stand for one another one to one, related terms are equal to each other
in one world exactly if they are in the other (`Term.beq_same`), so calls are shared alike.
-/

namespace HostSql.Engine

section

variable (same : Nat → Nat → Prop)

/-- Terms that are the same but for the numbers of the host functions that they call. -/
inductive Term.Same : Term → Term → Prop
  | value (d : Datum) : Same (.value d) (.value d)
  | column (i : Nat) : Same (.column i) (.column i)
  | negate {e e'} (h : Same e e') : Same (.negate e) (.negate e')
  | bitNot {e e'} (h : Same e e') : Same (.bitNot e) (.bitNot e')
  | not {e e'} (h : Same e e') : Same (.not e) (.not e')
  | isNull {e e'} (h : Same e e') : Same (.isNull e) (.isNull e')
  | and {l l' r r'} (hl : Same l l') (hr : Same r r') : Same (.and l r) (.and l' r')
  | or {l l' r r'} (hl : Same l l') (hr : Same r r') : Same (.or l r) (.or l' r')
  | arithmetic (op : Arithmetic) {l l' r r'} (hl : Same l l') (hr : Same r r') :
      Same (.arithmetic op l r) (.arithmetic op l' r')
  | compare (op : Comparison) (rule : CompareRule) {l l' r r'} (hl : Same l l') (hr : Same r r') :
      Same (.compare op rule l r) (.compare op rule l' r')
  | same (negated : Bool) (rule : CompareRule) {l l' r r'} (hl : Same l l') (hr : Same r r') :
      Same (.same negated rule l r) (.same negated rule l' r')
  | between (low high : CompareRule) {e e' l l' h h'} (he : Same e e') (hl : Same l l')
      (hh : Same h h') : Same (.between low high e l h) (.between low high e' l' h')
  | among (rule : CompareRule) {e e' items items'} (he : Same e e')
      (hitems : List.Forall₂ Same items items') : Same (.among rule e items) (.among rule e' items')
  | choice {items items'} (hitems : List.Forall₂ Same items items') :
      Same (.choice items) (.choice items')
  | select (rule : CompareRule) {e e' items items'} (he : Same e e')
      (hitems : List.Forall₂ Same items items') : Same (.select rule e items) (.select rule e' items')
  | coalesce {items items'} (hitems : List.Forall₂ Same items items') :
      Same (.coalesce items) (.coalesce items')
  | cast (a : Affinity) {e e'} (h : Same e e') : Same (.cast a e) (.cast a e')
  | scalar (f : Scalar) {items items'} (hitems : List.Forall₂ Same items items') :
      Same (.scalar f items) (.scalar f items')
  | host {r r' items items'} (hrecord : same r r') (hitems : List.Forall₂ Same items items') :
      Same (.host r items) (.host r' items')

/-- Targets that are the same but for their number. -/
inductive Accumulating.Same : Accumulating → Accumulating → Prop
  | builtin (f : Aggregate) : Same (.builtin f) (.builtin f)
  | host {r r'} (hrecord : same r r') : Same (.host r) (.host r')

/-- Aggregate calls that are the same but for numbers. -/
inductive AggregateCall.Same : AggregateCall → AggregateCall → Prop
  | mk {target target' args args'} (htarget : target.Same same target')
      (hargs : List.Forall₂ (Term.Same same) args args') (distinct : Bool) :
      Same ⟨target, args, distinct⟩ ⟨target', args', distinct⟩

/-- Grouping keys that are the same but for numbers. -/
def SameKey (k k' : Term × Collation) : Prop := k.1.Same same k'.1 ∧ k.2 = k'.2

/-- Plans that are the same but for numbers. -/
inductive Plan.Same : Plan → Plan → Prop
  | rows (rows : List Row) : Same (.rows rows) (.rows rows)
  | working : Same .working .working
  | values {rows rows'} (h : List.Forall₂ (List.Forall₂ (Term.Same same)) rows rows') :
      Same (.values rows) (.values rows')
  | scan (root width : Nat) : Same (.scan root width) (.scan root width)
  | loop {p p'} (h : Same p p') : Same (.loop p) (.loop p')
  | join {l l' r r'} (hl : Same l l') (hr : Same r r') : Same (.join l r) (.join l' r')
  | filter {t t' p p'} (ht : t.Same same t') (h : Same p p') : Same (.filter t p) (.filter t' p')
  | project {ts ts' p p'} (hts : List.Forall₂ (Term.Same same) ts ts') (h : Same p p') :
      Same (.project ts p) (.project ts' p')
  | total {cs cs'} (width : Nat) {p p'} (hcs : List.Forall₂ (AggregateCall.Same same) cs cs')
      (h : Same p p') : Same (.total cs width p) (.total cs' width p')
  | group {ks ks' cs cs' p p'} (hks : List.Forall₂ (SameKey same) ks ks')
      (hcs : List.Forall₂ (AggregateCall.Same same) cs cs') (h : Same p p') :
      Same (.group ks cs p) (.group ks' cs' p')
  | sort (keys : List SortKey) {p p'} (h : Same p p') : Same (.sort keys p) (.sort keys p')
  | distinct {p p'} (h : Same p p') : Same (.distinct p) (.distinct p')
  | limit {t t' o o' p p'} (ht : t.Same same t') (ho : Option.Rel (Term.Same same) o o')
      (h : Same p p') : Same (.limit t o p) (.limit t' o' p')
  | append {l l' r r'} (hl : Same l l') (hr : Same r r') : Same (.append l r) (.append l' r')
  | combine (op : SetOp) {l l' r r'} (hl : Same l l') (hr : Same r r') :
      Same (.combine op l r) (.combine op l' r')
  | recursive (all : Bool) {l l' r r'} (hl : Same l l') (hr : Same r r') :
      Same (.recursive all l r) (.recursive all l' r')

/-- Cursors that are the same but for numbers. -/
inductive Cursor.Same : Cursor → Cursor → Prop
  | idle {p p'} (h : p.Same same p') : Same (.idle p) (.idle p')
  | done : Same .done .done
  | rows (rest : List Row) : Same (.rows rest) (.rows rest)
  | values {rows rows'} (h : List.Forall₂ (List.Forall₂ (Term.Same same)) rows rows') :
      Same (.values rows) (.values rows')
  | scan (root width : Nat) (after : Int64) : Same (.scan root width after) (.scan root width after)
  | loop {c c'} (h : Same c c') : Same (.loop c) (.loop c')
  | join (row : Row) {l l' r r' p p'} (hl : Same l l') (hr : Same r r') (hp : p.Same same p') :
      Same (.join row l r p) (.join row l' r' p')
  | filter {t t' c c'} (ht : t.Same same t') (h : Same c c') : Same (.filter t c) (.filter t' c')
  | project {ts ts' c c'} (hts : List.Forall₂ (Term.Same same) ts ts') (h : Same c c') :
      Same (.project ts c) (.project ts' c')
  | groups (collations : List Collation) {cs cs'} (rest : List (Row × Row))
      (hcs : List.Forall₂ (AggregateCall.Same same) cs cs') :
      Same (.groups collations cs rest) (.groups collations cs' rest)
  | distinct (seen : List Row) {c c'} (h : Same c c') : Same (.distinct seen c) (.distinct seen c')
  | limit (left : Nat) {c c'} (h : Same c c') : Same (.limit left c) (.limit left c')
  | append {c c' p p'} (h : Same c c') (hp : p.Same same p') : Same (.append c p) (.append c' p')
  | recursive (all : Bool) {p p'} (queue seen : List Row) (current : Row) (hp : p.Same same p') :
      Same (.recursive all p queue seen current) (.recursive all p' queue seen current)

/-- Conditions of a table that are the same but for numbers, with their labels. -/
def SameCheck (c c' : String × Term) : Prop := c.1 = c'.1 ∧ c.2.Same same c'.2

/-- Terms for columns that are the same but for numbers. -/
def SameSet (s s' : Nat × Term) : Prop := s.1 = s'.1 ∧ s.2.Same same s'.2

/-- Changes of rows that are the same but for numbers. -/
inductive RowChange.Same : RowChange → RowChange → Prop
  | insert {p p' cs cs' n n'} (hp : p.Same same p') (hcs : List.Forall₂ (Term.Same same) cs cs')
      (hn : Option.Rel (Term.Same same) n n') : Same (.insert p cs n) (.insert p' cs' n')
  | update {ss ss' n n' c c'} (hss : List.Forall₂ (SameSet same) ss ss')
      (hn : Option.Rel (Term.Same same) n n') (hc : Option.Rel (Term.Same same) c c') :
      Same (.update ss n c) (.update ss' n' c')
  | delete {c c'} (hc : Option.Rel (Term.Same same) c c') : Same (.delete c) (.delete c')

/-- Targets of changes that are the same but for numbers. -/
inductive Target.Same : Target → Target → Prop
  | mk (table : Table) {cs cs' ds ds'} (hcs : List.Forall₂ (SameCheck same) cs cs')
      (hds : List.Forall₂ (Term.Same same) ds ds') (conflict : Option Sql.Conflict) :
      Same ⟨table, cs, ds, conflict⟩ ⟨table, cs', ds', conflict⟩

/-- Actions that are the same but for numbers. -/
inductive Action.Same : Action → Action → Prop
  | query {p p'} (h : p.Same same p') : Same (.query p) (.query p')
  | changeRows {t t' c c'} (ht : t.Same same t') (hc : c.Same same c') :
      Same (.changeRows t c) (.changeRows t' c')
  | changeTables (change : TableChange) : Same (.changeTables change) (.changeTables change)
  | begin (mode : Sql.BeginMode) : Same (.begin mode) (.begin mode)
  | commit : Same .commit .commit
  | rollback : Same .rollback .rollback
  | savepoint (name : String) : Same (.savepoint name) (.savepoint name)
  | release (name : String) : Same (.release name) (.release name)
  | rollbackTo (name : String) : Same (.rollbackTo name) (.rollbackTo name)
  | nothing : Same .nothing .nothing

/-- Programs that are the same but for numbers. -/
inductive Program.Same : Program → Program → Prop
  | mk (p : Program) {a a'} (h : a.Same same a') : Same { p with action := a } { p with action := a' }

/-- Registered functions that are the same but for the numbers of their records. -/
inductive HostFunction.Same : HostFunction → HostFunction → Prop
  | mk (f : HostFunction) {r r'} (h : same r r') : Same { f with record := r } { f with record := r' }

/-- Connections that are the same but for the numbers of their volumes and functions. -/
inductive Connection.Same : Connection → Connection → Prop
  | mk (c : Connection) {v v' fs fs'} (hvolume : same v v')
      (hfunctions : List.Forall₂ (HostFunction.Same same) fs fs') :
      Same { c with volume := v, functions := fs } { c with volume := v', functions := fs' }

/-- Statements that are the same but for numbers. -/
inductive Statement.Same : Statement → Statement → Prop
  | mk (s : Statement) {c c' p p' u u'} (hconnection : same c c') (hprogram : p.Same same p')
      (hcursor : u.Same same u') :
      Same { s with connection := c, program := p, cursor := u }
        { s with connection := c', program := p', cursor := u' }

end

/-! ## Equality -/

mutual

/-- Related terms are told apart alike. -/
theorem Term.beq_same {same : Nat → Nat → Prop} (hone : OneToOne same) : ∀ (t : Term) {u t' u' : Term},
    t.Same same u → t'.Same same u' → t.beq t' = u.beq u'
  | .value d, _, _, _, .value _, h => by
    cases h <;> rfl
  | .column i, _, _, _, .column _, h => by
    cases h <;> rfl
  | .negate e, _, _, _, .negate he, h => by
    cases h with
    | negate he' => rw [Term.beq, Term.beq, beq_same hone e he he']
    | _ => rfl
  | .bitNot e, _, _, _, .bitNot he, h => by
    cases h with
    | bitNot he' => rw [Term.beq, Term.beq, beq_same hone e he he']
    | _ => rfl
  | .not e, _, _, _, .not he, h => by
    cases h with
    | not he' => rw [Term.beq, Term.beq, beq_same hone e he he']
    | _ => rfl
  | .isNull e, _, _, _, .isNull he, h => by
    cases h with
    | isNull he' => rw [Term.beq, Term.beq, beq_same hone e he he']
    | _ => rfl
  | .and l r, _, _, _, .and hl hr, h => by
    cases h with
    | and hl' hr' => rw [Term.beq, Term.beq, beq_same hone l hl hl', beq_same hone r hr hr']
    | _ => rfl
  | .or l r, _, _, _, .or hl hr, h => by
    cases h with
    | or hl' hr' => rw [Term.beq, Term.beq, beq_same hone l hl hl', beq_same hone r hr hr']
    | _ => rfl
  | .arithmetic op l r, _, _, _, .arithmetic _ hl hr, h => by
    cases h with
    | arithmetic _ hl' hr' => rw [Term.beq, Term.beq, beq_same hone l hl hl', beq_same hone r hr hr']
    | _ => rfl
  | .compare op rule l r, _, _, _, .compare _ _ hl hr, h => by
    cases h with
    | compare _ _ hl' hr' => rw [Term.beq, Term.beq, beq_same hone l hl hl', beq_same hone r hr hr']
    | _ => rfl
  | .same negated rule l r, _, _, _, .same _ _ hl hr, h => by
    cases h with
    | same _ _ hl' hr' => rw [Term.beq, Term.beq, beq_same hone l hl hl', beq_same hone r hr hr']
    | _ => rfl
  | .between low high e l h, _, _, _, .between _ _ he hl hh, hsame => by
    cases hsame with
    | between _ _ he' hl' hh' =>
      rw [Term.beq, Term.beq, beq_same hone e he he', beq_same hone l hl hl', beq_same hone h hh hh']
    | _ => rfl
  | .among rule e items, _, _, _, .among _ he hitems, h => by
    cases h with
    | among _ he' hitems' =>
      rw [Term.beq, Term.beq, beq_same hone e he he', beqAll_same hone items hitems hitems']
    | _ => rfl
  | .choice items, _, _, _, .choice hitems, h => by
    cases h with
    | choice hitems' => rw [Term.beq, Term.beq, beqAll_same hone items hitems hitems']
    | _ => rfl
  | .select rule e items, _, _, _, .select _ he hitems, h => by
    cases h with
    | select _ he' hitems' =>
      rw [Term.beq, Term.beq, beq_same hone e he he', beqAll_same hone items hitems hitems']
    | _ => rfl
  | .coalesce items, _, _, _, .coalesce hitems, h => by
    cases h with
    | coalesce hitems' => rw [Term.beq, Term.beq, beqAll_same hone items hitems hitems']
    | _ => rfl
  | .cast a e, _, _, _, .cast _ he, h => by
    cases h with
    | cast _ he' => rw [Term.beq, Term.beq, beq_same hone e he he']
    | _ => rfl
  | .scalar f items, _, _, _, .scalar _ hitems, h => by
    cases h with
    | scalar _ hitems' => rw [Term.beq, Term.beq, beqAll_same hone items hitems hitems']
    | _ => rfl
  | .host r items, _, _, _, .host hrecord hitems, h => by
    cases h with
    | host hrecord' hitems' =>
      rw [Term.beq, Term.beq, beqAll_same hone items hitems hitems', Aligned.beq_iff hone hrecord' hrecord]
    | _ => rfl

theorem Term.beqAll_same {same : Nat → Nat → Prop} (hone : OneToOne same) :
    ∀ (ts : List Term) {us ts' us' : List Term}, List.Forall₂ (Term.Same same) ts us →
      List.Forall₂ (Term.Same same) ts' us' → Term.beqAll ts ts' = Term.beqAll us us'
  | [], _, _, _, .nil, h => by
    cases h <;> rfl
  | t :: ts, _, _, _, .cons ht hts, h => by
    cases h with
    | nil => rfl
    | cons ht' hts' => rw [Term.beqAll, Term.beqAll, beq_same hone t ht ht', beqAll_same hone ts hts hts']

end

end HostSql.Engine
