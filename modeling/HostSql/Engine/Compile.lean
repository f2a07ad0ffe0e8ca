import HostSql.Engine.Resolve

/-!
# From queries to plans

`compileQuery` builds the plan of a query and the list of its output columns. The parts of a core
are looked up in the order in which mistakes in them are reported: sources, result, `HAVING`,
`WHERE`, `ORDER BY`, `GROUP BY`.
-/

namespace HostSql.Engine

open Sql

/-- A column of a result. -/
structure Output where
  name : String
  typeName : Option String
  affinity : Option Affinity
  collation : Collation
  deriving Repr, Inhabited

/-- What a name given by `WITH` stands for. -/
inductive Named where
  | query (q : NamedQuery)
  /-- A recursive query that is running has only its output. -/
  | running (name : String) (outs : List Output)
  /-- A query that is being compiled, and may not be read. -/
  | unfinished (name : String)

def Named.name : Named → String
  | query q => q.name
  | running name _ | unfinished name => name

/-- What a query may refer to: the tables, if the catalog has been read, the functions of the
connection, and named queries. -/
structure Environment where
  catalog : Option Catalog
  functions : List HostFunction
  named : List Named

/-- Looks up a table. Where none has been looked up before, the catalog has to be read first. -/
def Environment.table (env : Environment) (t : TableName) : Except Fault Table := do
  let some catalog := env.catalog | throw .catalogChanged
  let missing := Fault.general ("no such table: " ++ (t.schema.map (· ++ ".")).getD "" ++ t.name)
  if t.schema.any fun s => !(Text.sameName s "main") then throw missing
  match catalog.table? t.name with
  | some table => return table
  | none => throw missing

/-- The columns of a table as sources of names, from a position on. -/
def tableColumns (t : Table) (label : String) (first : Nat) : List SourceColumn :=
  (t.columns.zipIdx.map fun (c, i) =>
    { table := some label
      name := c.name
      typeName := c.typeName
      affinity := some (if t.numberColumn = some i then .integer else c.affinity)
      collation := c.collation
      position := if t.numberColumn = some i then first + t.width else first + i
      isNumber := false }) ++
  [{ table := some label
     name := ((t.numberColumn.bind fun i => t.columns[i]?).map (·.name)).getD "rowid"
     typeName := some "INTEGER"
     affinity := some .integer
     collation := .binary
     position := first + t.width
     isNumber := true }]

/-- The columns of a query as sources of names, from a position on. -/
def outputColumns (outs : List Output) (label : Option String) (first : Nat) : List SourceColumn :=
  outs.zipIdx.map fun (o, i) =>
    { table := label
      name := o.name
      typeName := o.typeName
      affinity := o.affinity
      collation := o.collation
      position := first + i
      isNumber := false }

/-- The output that a term makes. -/
def Typed.output (t : Typed) (label : Option String) (text : String) : Output where
  name := label.getD ((t.column.map (·.name)).getD text)
  typeName := t.column.bind (·.typeName)
  affinity := t.affinity
  collation := t.order

/-- Names for the columns of rows of values. -/
def valueOutputs (width : Nat) : List Output :=
  (List.range width).map fun i => ⟨"column" ++ toString (i + 1), none, none, .binary⟩

/-- How many parts a query may have. -/
def maxParts : Nat := 500

/-- English ordinal of a number. -/
def ordinal (n : Nat) : String :=
  toString n ++
    (if n / 10 % 10 = 1 then "th"
      else match n % 10 with
        | 1 => "st"
        | 2 => "nd"
        | 3 => "rd"
        | _ => "th")

/-- The words of an operator between queries. -/
def compoundWords : CompoundOp → String
  | .union => "UNION"
  | .unionAll => "UNION ALL"
  | .intersect => "INTERSECT"
  | .except => "EXCEPT"

/-- The result columns that stars stand for, and all others as they are. -/
def expandStars (columns : List SourceColumn) (noSource : Bool) (cs : List ResultColumn) :
    Except Fault (List (Typed ⊕ (Expr × Option String × String))) := do
  let visible := columns.filter (!·.isNumber)
  let parts ← cs.mapM fun
    | .all =>
      if noSource then throw (.general "no tables specified")
      else pure (visible.map fun c => Sum.inl c.typed)
    | .allOf t =>
      let found := visible.filter fun c => c.table.any (Text.sameName · t)
      if found.isEmpty then throw (.general ("no such table: " ++ t))
      else pure (found.map fun c => Sum.inl c.typed)
    | .expr e label text => pure [Sum.inr (e, label, text)]
  return parts.flatten

/-- Resolves the result of a core. -/
def resolveResult (names : Names) :
    List (Typed ⊕ (Expr × Option String × String)) → Resolve (List (Typed × Output))
  | [] => return []
  | .inl t :: rest => do return (t, t.output none "") :: (← resolveResult names rest)
  | .inr (e, label, text) :: rest => do
    let t ← resolve names true e
    return (t, t.output label text) :: (← resolveResult names rest)

/-- The position that an integer names among the result columns. -/
def positionOf? (clause : String) (index n k : Nat) : Except Fault Nat :=
  if 1 ≤ k ∧ k ≤ n then .ok (k - 1)
  else .error (.general (ordinal index ++ " " ++ clause
    ++ " term out of range - should be between 1 and " ++ toString n))

/-- Resolves the keys of `GROUP BY`. None of them may hold an aggregate, whose columns come after
those of the row. -/
def resolveGroup (names : Names) (result : List (Typed × Output)) (keys : List Expr) :
    Resolve (List (Term × Collation)) :=
  keys.zipIdx.mapM fun (e, i) => do
    let t ← match e with
      | .integer k => do
        let p ← (positionOf? "GROUP BY" (i + 1) result.length k : Except Fault Nat)
        pure ((result.map (·.1)).getD p default)
      | e => resolve names true e
    if t.term.readsFrom names.width then
      refuse "aggregate functions are not allowed in the GROUP BY clause"
    return (t.term, t.order)

/-- A key of an order, resolved: a position in the result or a term of its own. -/
structure ResolvedKey where
  place : Nat ⊕ Term
  descending : Bool
  nullsFirst : Bool
  collation : Collation

/-- The position of the result column that an order key names. -/
def labelPosition? (result : List Output) : Expr → Option Nat
  | .name _ s => result.findIdx? fun o => Text.sameName o.name s
  | _ => none

/-- Resolves the keys of `ORDER BY` over the rows of a core. -/
def resolveOrder (names : Names) (aggregates : Bool) (result : List (Typed × Output))
    (labels : List String) (order : List OrderTerm) : Resolve (List ResolvedKey) :=
  order.zipIdx.mapM fun (o, i) => do
    let finish (place : Nat ⊕ Term) (c : Collation) : ResolvedKey :=
      ⟨place, o.descending, o.nullsFirst.getD (!o.descending), c⟩
    let (key, explicit) := match o.key with
      | .collate e name => (e, Collation.ofName? name)
      | e => (e, none)
    let at' (p : Nat) : ResolvedKey :=
      finish (.inl p) (explicit.getD ((result.map (·.1.order)).getD p .binary))
    match key with
    | .integer k =>
      return at' (← (positionOf? "ORDER BY" (i + 1) result.length k : Except Fault Nat))
    | key =>
      let labelled := match key with
        | .name _ s => labels.findIdx? fun (l : String) => !l.isEmpty && Text.sameName l s
        | _ => none
      match labelled with
      | some p => return at' p
      | none =>
        let t ← resolve names aggregates key
        match result.findIdx? fun (r : Typed × Output) => r.1.term == t.term with
        | some p => return at' p
        | none => return finish (.inr t.term) (explicit.getD t.order)

/-- Puts the rows of a plan in order: keys that are not part of the row are added for the sorting
and taken away after it. -/
def orderedPlan (terms : List Term) (keys : List ResolvedKey) (wrap : Plan → Plan) (source : Plan) :
    Plan :=
  if keys.isEmpty then wrap (.project terms source)
  else
    let extra := keys.filterMap fun k => k.place.getRight?
    let sortKeys := keys.foldl (fun (ks, next) k =>
      match k.place with
      | .inl p => (ks ++ [⟨p, k.descending, k.nullsFirst, k.collation⟩], next)
      | .inr _ => (ks ++ [⟨next, k.descending, k.nullsFirst, k.collation⟩], next + 1))
      (([] : List SortKey), terms.length)
    let sorted := Plan.sort sortKeys.1 (wrap (.project (terms ++ extra) source))
    if extra.isEmpty then sorted
    else .project ((List.range terms.length).map Term.column) sorted

/-- Limits the rows of a plan. -/
def limitedPlan (functions : List HostFunction) (limit offset : Option Expr) (plan : Plan) :
    Except Fault Plan := do
  let names : Names := { (default : Names) with functions := functions }
  match limit with
  | none => return plan
  | some e =>
    let count ← resolvePlain names e
    let skip ← offset.mapM (resolvePlain names)
    return .limit count.term (skip.map (·.term)) plan

/-- The rows of several value lists. -/
def compileValues (functions : List HostFunction) (rows : List (List Expr)) :
    Except Fault (Plan × List Output) := do
  let names : Names := { (default : Names) with functions := functions }
  let width := (rows.headD []).length
  let resolved ← rows.mapM fun r => (resolveAll names true r).run []
  if rows.any (·.length != width) then
    throw (.general "all VALUES must have the same number of terms")
  let terms (r : List Typed × List AggregateCall) : List Term := r.1.map (·.term)
  if resolved.all (·.2.isEmpty) then return (.values (resolved.map terms), valueOutputs width)
  let single (r : List Typed × List AggregateCall) : Plan :=
    if r.2.isEmpty then .values [terms r] else .project (terms r) (.total r.2 0 (.rows [[]]))
  let plan := match resolved.reverse with
    | [] => Plan.rows []
    | last :: before => before.foldl (fun plan r => .append (single r) plan) (single last)
  return (plan, valueOutputs width)

/-- Whether a core reads a table of the given name. -/
def coreReads (name : String) : Core → Bool
  | .values _ => false
  | .select _ _ sources _ _ _ => sources.any fun
    | .table t _ => t.schema.isNone && Text.sameName t.name name
    | .query _ _ => false

/-- Combines two plans. -/
def combinePlans (op : CompoundOp) (l r : Plan) : Plan :=
  match op with
  | .unionAll => .append l r
  | .union => .combine .union l r
  | .intersect => .combine .intersect l r
  | .except => .combine .except l r

/-- Checks that two queries have the same number of columns. -/
def checkWidths (op : CompoundOp) (l r : List Output) : Except Fault Unit :=
  if l.length = r.length then .ok ()
  else .error (.general ("SELECTs to the left and right of " ++ compoundWords op
    ++ " do not have the same number of result columns"))

/-- The affinity that rows of two queries have in common. -/
def mergeOutputs (l r : List Output) : List Output :=
  (l.zip r).map fun (a, b) =>
    { a with affinity := if a.affinity == b.affinity then a.affinity else none }

mutual

/-- The plan of a query and its columns. Each level of nesting uses up fuel. -/
def compileQuery (env : Environment) : Nat → Query → Except Fault (Plan × List Output)
  | 0, _ => throw (.general "parser stack overflow")
  | fuel + 1, .mk named first rest misplaced order limit offset => do
    let env := { env with named := named.map Named.query ++ env.named }
    if maxParts < rest.length + 1 then throw (.general "too many terms in compound SELECT")
    if let some (clause, op) := misplaced then
      throw (.general (clause ++ " clause should come after " ++ compoundWords op ++ " not before"))
    match rest with
    | [] =>
      let (plan, outs) ← compileCore env order fuel first
      return (← limitedPlan env.functions limit offset plan, outs)
    | _ =>
      let (plan, outs) ← compileCore env [] fuel first
      let (plan, outs) ← compileRest env fuel plan outs rest
      let keys ← order.zipIdx.mapM fun (o, i) => do
        match labelPosition? outs o.key, o.key with
        | some p, _ => pure (o, p)
        | none, .integer k => do pure (o, ← positionOf? "ORDER BY" (i + 1) outs.length k)
        | none, _ => throw (.general (ordinal (i + 1)
            ++ " ORDER BY term does not match any column in the result set"))
      let keys : List ResolvedKey := keys.map fun (o, p) =>
        ⟨.inl p, o.descending, o.nullsFirst.getD (!o.descending),
          (outs.map (·.collation)).getD p .binary⟩
      let plan := if keys.isEmpty then plan
        else orderedPlan ((List.range outs.length).map Term.column) keys id plan
      return (← limitedPlan env.functions limit offset plan, outs)

/-- Adds the further parts of a query to its first. -/
def compileRest (env : Environment) :
    Nat → Plan → List Output → List (CompoundOp × Core) → Except Fault (Plan × List Output)
  | 0, _, _, _ => throw (.general "parser stack overflow")
  | _ + 1, plan, outs, [] => return (plan, outs)
  | fuel + 1, plan, outs, (op, core) :: rest => do
    let (next, nextOuts) ← compileCore env [] fuel core
    checkWidths op outs nextOuts
    compileRest env fuel (combinePlans op plan next) (mergeOutputs outs nextOuts) rest

/-- The plan of one part of a query. -/
def compileCore (env : Environment) (order : List OrderTerm) :
    Nat → Core → Except Fault (Plan × List Output)
  | 0, _ => throw (.general "parser stack overflow")
  | _ + 1, .values rows => compileValues env.functions rows
  | fuel + 1, .select distinct columns sources condition groupBy having => do
    let (source, sourceColumns, width) ← compileSources env fuel sources
    let names : Names := ⟨sourceColumns, width, [], env.functions⟩
    let entries ← expandStars sourceColumns sources.isEmpty columns
    let ((result, havingTerm, conditionTerm, keys, groupKeys), calls) ← (do
        let result ← resolveResult names entries
        let aggregates := !groupBy.isEmpty || !(← get).isEmpty
        let labels := entries.zip result |>.filterMap fun (e, r) =>
          match e with
          | .inr (_, some label, _) => some (label, r.1)
          | _ => none
        let names := { names with labels := labels }
        let havingTerm ← having.mapM fun e => do
          if !aggregates then refuse "HAVING clause on a non-aggregate query"
          resolve names true e
        let conditionTerm ← condition.mapM (resolve names false)
        let labelNames := entries.map fun
          | .inr (_, some label, _) => label
          | _ => ""
        let keys ← resolveOrder names aggregates result labelNames order
        let groupKeys ← resolveGroup names result groupBy
        return (result, havingTerm, conditionTerm, keys, groupKeys) : Resolve _).run []
    let filtered (t : Option Typed) (p : Plan) : Plan :=
      match t with
      | some t => .filter t.term p
      | none => p
    let plan := filtered conditionTerm source
    let plan :=
      if !groupKeys.isEmpty then .group groupKeys calls plan
      else if !calls.isEmpty then .total calls width plan
      else plan
    let plan := filtered havingTerm plan
    let wrap (p : Plan) : Plan := if distinct then .distinct p else p
    return (orderedPlan (result.map (·.1.term)) keys wrap plan, result.map (·.2))

/-- The plan of the sources of a core, their columns, and the length of their rows. -/
def compileSources (env : Environment) :
    Nat → List Source → Except Fault (Plan × List SourceColumn × Nat)
  | 0, _ => throw (.general "parser stack overflow")
  | _ + 1, [] => return (.rows [[]], [], 0)
  | fuel + 1, first :: rest => do
    let (plan, columns, width) ← compileSource env fuel first 0
    compileJoins env fuel plan columns width rest

/-- Joins further sources. -/
def compileJoins (env : Environment) :
    Nat → Plan → List SourceColumn → Nat → List Source →
      Except Fault (Plan × List SourceColumn × Nat)
  | 0, _, _, _, _ => throw (.general "parser stack overflow")
  | _ + 1, plan, columns, width, [] => return (plan, columns, width)
  | fuel + 1, plan, columns, width, source :: rest => do
    let (next, nextColumns, nextWidth) ← compileSource env fuel source width
    compileJoins env fuel (.join plan next) (columns ++ nextColumns) (width + nextWidth) rest

/-- The plan of one source, its columns from a position on, and the length of its rows. -/
def compileSource (env : Environment) :
    Nat → Source → Nat → Except Fault (Plan × List SourceColumn × Nat)
  | 0, _, _ => throw (.general "parser stack overflow")
  | fuel + 1, .query q label, first => do
    let (plan, outs) ← compileQuery env fuel q
    return (.loop plan, outputColumns outs label first, outs.length)
  | fuel + 1, .table name label, first => do
    match if name.schema.isSome then none
      else env.named.find? fun n => Text.sameName n.name name.name with
    | some (.unfinished name) => throw (.general ("circular reference: " ++ name))
    | some (.running _ outs) =>
      return (.loop .working, outputColumns outs (some (label.getD name.name)) first, outs.length)
    | some (.query q) =>
      let (plan, outs) ← compileNamed env fuel q
      return (.loop plan, outputColumns outs (some (label.getD name.name)) first, outs.length)
    | none =>
      let table ← env.table name
      return (.loop (.scan table.root table.width),
        tableColumns table (label.getD table.name) first, table.width + 1)

/-- The plan of a named query. Its trailing parts that read the query itself are run again for each
row. -/
def compileNamed (env : Environment) : Nat → NamedQuery → Except Fault (Plan × List Output)
  | 0, _ => throw (.general "parser stack overflow")
  | fuel + 1, .mk name columns q => do
    let closed := { env with named := .unfinished name :: env.named }
    let rename (outs : List Output) : Except Fault (List Output) :=
      if columns.isEmpty then .ok outs
      else if columns.length != outs.length then
        .error (.general ("table " ++ name ++ " has " ++ toString outs.length ++ " values for "
          ++ toString columns.length ++ " columns"))
      else .ok ((outs.zip columns).map fun (o, c) => { o with name := c })
    match q with
    | .mk named first rest misplaced _ limit offset =>
      let again := rest.dropWhile fun part => !coreReads name part.2
      if again.isEmpty then
        let (plan, outs) ← compileQuery closed fuel q
        return (plan, ← rename outs)
      else
        let before := rest.takeWhile fun part => !coreReads name part.2
        let base := Query.mk named first before misplaced [] none none
        let (basePlan, outs) ← compileQuery closed fuel base
        let outs ← rename outs
        let inner :=
          { env with named := .running name outs :: (named.map Named.query ++ env.named) }
        let parts ← again.mapM fun part => do
          let (plan, nextOuts) ← compileCore inner [] fuel part.2
          checkWidths part.1 outs nextOuts
          return plan
        let step := match parts with
          | [] => Plan.rows []
          | p :: ps => ps.foldl Plan.append p
        let plan := Plan.recursive (again.any (·.1 == .unionAll)) basePlan step
        return (← limitedPlan env.functions limit offset plan, outs)

end

/-- How deeply queries may be nested. -/
def queryDepth : Nat := 1000

/-- Whether a plan reads a table. -/
def Plan.readsTable : Plan → Bool
  | .scan _ _ => true
  | .rows _ | .working | .values _ => false
  | .loop s | .filter _ s | .project _ s | .total _ _ s | .group _ _ s | .sort _ s | .distinct s
  | .limit _ _ s => s.readsTable
  | .join l r | .append l r | .combine _ l r | .recursive _ l r => l.readsTable || r.readsTable

end HostSql.Engine
