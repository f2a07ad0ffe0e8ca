import HostSql.Engine.Builtin
import HostSql.Sql.Command

/-!
# Plans

A `Term` is an expression whose names are looked up: columns are positions in a row and functions
are known. A `Plan` is a query in the same sense, a tree of operators that each turn rows into
rows. A `Cursor` is a plan half way through: it keeps what the plan still has to do, so a query
can be left after any row and taken up again after other work on the same database.
-/

namespace HostSql.Engine

/-- An order relation between two values. -/
inductive Comparison where
  | equal
  | notEqual
  | less
  | lessEqual
  | greater
  | greaterEqual
  deriving Repr, DecidableEq

/-- Whether a comparison holds of an order. -/
def Comparison.holds : Comparison → Ordering → Bool
  | equal, o => o == .eq
  | notEqual, o => o != .eq
  | less, o => o == .lt
  | lessEqual, o => o != .gt
  | greater, o => o == .gt
  | greaterEqual, o => o != .lt

/-- How two values are compared: the affinity that both take first, and the order of texts. -/
structure CompareRule where
  affinity : Option Affinity
  collation : Collation
  deriving Repr, DecidableEq, Inhabited

/-- An operator on numbers, bits or texts. -/
inductive Arithmetic where
  | add
  | subtract
  | multiply
  | divide
  | remainder
  | bitAnd
  | bitOr
  | shiftLeft
  | shiftRight
  | concat
  deriving Repr, DecidableEq

/-- An expression ready to be evaluated. A host function is known by its record's number. -/
inductive Term where
  | value (d : Datum)
  | column (i : Nat)
  | negate (e : Term)
  | bitNot (e : Term)
  | not (e : Term)
  | isNull (e : Term)
  | and (l r : Term)
  | or (l r : Term)
  | arithmetic (op : Arithmetic) (l r : Term)
  | compare (op : Comparison) (rule : CompareRule) (l r : Term)
  /-- Comparison in which nothing equals nothing. -/
  | same (negated : Bool) (rule : CompareRule) (l r : Term)
  | between (low high : CompareRule) (e l h : Term)
  | among (rule : CompareRule) (e : Term) (items : List Term)
  /-- Pairs of condition and value, then the value for all other cases if there is one. -/
  | choice (items : List Term)
  /-- An operand, pairs of value to compare with and result, then the result for other cases. -/
  | select (rule : CompareRule) (operand : Term) (items : List Term)
  | coalesce (items : List Term)
  | cast (a : Affinity) (e : Term)
  | scalar (f : Scalar) (args : List Term)
  | host (record : Nat) (args : List Term)
  deriving Repr, Inhabited

mutual

/-- Whether two terms are the same. -/
def Term.beq : Term → Term → Bool
  | .value d, .value d' => d == d'
  | .column i, .column i' => i == i'
  | .negate e, .negate e' => e.beq e'
  | .bitNot e, .bitNot e' => e.beq e'
  | .not e, .not e' => e.beq e'
  | .isNull e, .isNull e' => e.beq e'
  | .and l r, .and l' r' => l.beq l' && r.beq r'
  | .or l r, .or l' r' => l.beq l' && r.beq r'
  | .arithmetic op l r, .arithmetic op' l' r' => op == op' && l.beq l' && r.beq r'
  | .compare op rule l r, .compare op' rule' l' r' =>
    op == op' && rule == rule' && l.beq l' && r.beq r'
  | .same negated rule l r, .same negated' rule' l' r' =>
    negated == negated' && rule == rule' && l.beq l' && r.beq r'
  | .between low high e l h, .between low' high' e' l' h' =>
    low == low' && high == high' && e.beq e' && l.beq l' && h.beq h'
  | .among rule e items, .among rule' e' items' =>
    rule == rule' && e.beq e' && Term.beqAll items items'
  | .choice items, .choice items' => Term.beqAll items items'
  | .select rule operand items, .select rule' operand' items' =>
    rule == rule' && operand.beq operand' && Term.beqAll items items'
  | .coalesce items, .coalesce items' => Term.beqAll items items'
  | .cast a e, .cast a' e' => a == a' && e.beq e'
  | .scalar f args, .scalar f' args' => f == f' && Term.beqAll args args'
  | .host record args, .host record' args' => record == record' && Term.beqAll args args'
  | _, _ => false

/-- Whether two lists of terms are the same. -/
def Term.beqAll : List Term → List Term → Bool
  | [], [] => true
  | t :: ts, u :: us => t.beq u && Term.beqAll ts us
  | _, _ => false

end

instance : BEq Term := ⟨Term.beq⟩

mutual

/-- Whether a term reads a column from the given one on. -/
def Term.readsFrom (first : Nat) : Term → Bool
  | .value _ => false
  | .column i => first ≤ i
  | .negate e | .bitNot e | .not e | .isNull e | .cast _ e => e.readsFrom first
  | .and l r | .or l r | .arithmetic _ l r | .compare _ _ l r | .same _ _ l r =>
    l.readsFrom first || r.readsFrom first
  | .between _ _ e l h => e.readsFrom first || l.readsFrom first || h.readsFrom first
  | .among _ e items | .select _ e items => e.readsFrom first || Term.anyReadsFrom first items
  | .choice items | .coalesce items | .scalar _ items | .host _ items =>
    Term.anyReadsFrom first items

/-- Whether one of some terms reads a column from the given one on. -/
def Term.anyReadsFrom (first : Nat) : List Term → Bool
  | [] => false
  | e :: es => e.readsFrom first || Term.anyReadsFrom first es

end

/-- What an aggregate call feeds. -/
inductive Accumulating where
  | builtin (f : Aggregate)
  | host (record : Nat)
  deriving Repr, DecidableEq

/-- A call of an aggregate. -/
structure AggregateCall where
  target : Accumulating
  args : List Term
  distinct : Bool
  deriving Repr

/-- A column to sort by. -/
structure SortKey where
  column : Nat
  descending : Bool
  nullsFirst : Bool
  collation : Collation
  deriving Repr, DecidableEq

/-- How the rows of two queries are combined into a set. -/
inductive SetOp where
  | union
  | intersect
  | except
  deriving Repr, DecidableEq

/-- A query ready to be run. -/
inductive Plan where
  /-- Rows that are known. -/
  | rows (rows : List Row)
  /-- The row that a recursive query is extending. -/
  | working
  | values (rows : List (List Term))
  /-- The rows of a table in the order of their numbers, each followed by its number. -/
  | scan (root : Nat) (width : Nat)
  /-- A source that is read row by row; an interruption is noticed between two rows. -/
  | loop (source : Plan)
  | join (left right : Plan)
  | filter (condition : Term) (source : Plan)
  | project (terms : List Term) (source : Plan)
  /-- One row for all rows: the first of them, of the given width, and the aggregates. -/
  | total (calls : List AggregateCall) (width : Nat) (source : Plan)
  /-- One row for each key in ascending order: its first row and the aggregates. -/
  | group (keys : List (Term × Collation)) (calls : List AggregateCall) (source : Plan)
  | sort (keys : List SortKey) (source : Plan)
  | distinct (source : Plan)
  | limit (count : Term) (offset : Option Term) (source : Plan)
  | append (first second : Plan)
  | combine (op : SetOp) (left right : Plan)
  /-- The rows of `base`, and for each row taken from the front those of `step`. -/
  | recursive (all : Bool) (base step : Plan)
  deriving Repr, Inhabited

/-- A plan with the working row in place. -/
def Plan.withWorking (row : Row) : Plan → Plan
  | working => rows [row]
  | loop s => loop (s.withWorking row)
  | join l r => join (l.withWorking row) (r.withWorking row)
  | filter c s => filter c (s.withWorking row)
  | project ts s => project ts (s.withWorking row)
  | total cs w s => total cs w (s.withWorking row)
  | group ks cs s => group ks cs (s.withWorking row)
  | sort ks s => sort ks (s.withWorking row)
  | distinct s => distinct (s.withWorking row)
  | limit c o s => limit c o (s.withWorking row)
  | append a b => append (a.withWorking row) (b.withWorking row)
  | combine op l r => combine op (l.withWorking row) (r.withWorking row)
  | p => p

/-- A plan half way through. -/
inductive Cursor where
  | idle (plan : Plan)
  | done
  | rows (rest : List Row)
  | values (rest : List (List Term))
  /-- After the row with the given number. -/
  | scan (root : Nat) (width : Nat) (after : Int64)
  | loop (source : Cursor)
  | join (row : Row) (left right : Cursor) (again : Plan)
  | filter (condition : Term) (source : Cursor)
  | project (terms : List Term) (source : Cursor)
  /-- Sorted rows with their keys. -/
  | groups (collations : List Collation) (calls : List AggregateCall) (rest : List (Row × Row))
  | distinct (seen : List Row) (source : Cursor)
  | limit (left : Nat) (source : Cursor)
  | append (first : Cursor) (second : Plan)
  /-- The rows not yet delivered, all rows so far if duplicates are dropped, and the row delivered
  last. -/
  | recursive (all : Bool) (step : Plan) (queue seen : List Row) (current : Row)
  deriving Repr, Inhabited

end HostSql.Engine
