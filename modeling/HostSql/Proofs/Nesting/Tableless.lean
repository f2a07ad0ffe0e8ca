import HostSql.Engine.Prepare

/-!
# Queries without tables

A query that reads no table can be compiled before the catalog has been read. Compiling stops at the
first table that it looks up while there is no catalog, so a query that gets through, to its plan or
to a failure of its own, is compiled in the same way under every catalog.

> `compileQuery_unread`: what is compiled without a catalog is compiled alike under every catalog.

Which host functions a query calls is read off its plan. `Plan.staysIn` says that it calls only those
of a nest, a list of records, and reads no table; `Cursor.staysIn` says the same of what is left of
the plan half way through.
-/

namespace HostSql.Engine

open Sql

/-! ## Compiling without a catalog -/

/-- The second result is the first, unless that was that the catalog has to be read. -/
def Unread {α : Type} (x y : Except Fault α) : Prop := x ≠ .error .catalogChanged → y = x

namespace Unread

variable {α β : Type}

theorem refl (x : Except Fault α) : Unread x x := fun _ => rfl

theorem stopped (y : Except Fault α) : Unread (.error .catalogChanged) y := fun h => absurd rfl h

theorem bind {x y : Except Fault α} {f g : α → Except Fault β} (hx : Unread x y)
    (hf : ∀ a, Unread (f a) (g a)) : Unread (x >>= f) (y >>= g) := by
  intro h
  cases x with
  | error fault =>
    rw [hx fun hfault => h (congrArg (· >>= f) hfault)]
    rfl
  | ok a =>
    rw [hx nofun]
    exact hf a h

theorem mapM {f g : α → Except Fault β} (h : ∀ a, Unread (f a) (g a)) (l : List α) :
    Unread (l.mapM f) (l.mapM g) := by
  induction l with
  | nil => exact .refl _
  | cons a l ih =>
    rw [List.mapM_cons, List.mapM_cons]
    exact (h a).bind fun b => ih.bind fun rest => .refl _

end Unread

/-- Names looked up under a catalog. -/
def Environment.under (env : Environment) (catalog : Option Catalog) : Environment :=
  { env with catalog }

section Compiling

variable (catalog : Option Catalog)

theorem Environment.table_unread {env : Environment} (h : env.catalog = none) (t : TableName) :
    Unread (env.table t) ((env.under catalog).table t) := by
  have hstop : env.table t = .error .catalogChanged := by
    unfold Environment.table
    rw [h]
    rfl
  rw [hstop]
  exact .stopped _

mutual

theorem compileQuery_unread_under (env : Environment) (h : env.catalog = none) :
    ∀ (fuel : Nat) (q : Query), Unread (compileQuery env fuel q) (compileQuery (env.under catalog) fuel q)
  | 0, _ => by
    simp only [compileQuery]
    exact .refl _
  | fuel + 1, .mk named first rest misplaced order limit offset => by
    have hcore (order : List OrderTerm) := compileCore_unread
      { env with named := named.map Named.query ++ env.named } h order fuel first
    have hrest (plan : Plan) (outs : List Output) := compileRest_unread
      { env with named := named.map Named.query ++ env.named } h fuel plan outs rest
    simp only [compileQuery]
    split
    · exact .refl _
    cases misplaced with
    | some part => exact .refl _
    | none =>
      cases rest with
      | nil => exact (hcore order).bind fun _ => .refl _
      | cons part rest => exact (hcore []).bind fun _ => (hrest _ _).bind fun _ => .refl _

theorem compileRest_unread (env : Environment) (h : env.catalog = none) :
    ∀ (fuel : Nat) (plan : Plan) (outs : List Output) (rest : List (CompoundOp × Core)),
      Unread (compileRest env fuel plan outs rest) (compileRest (env.under catalog) fuel plan outs rest)
  | 0, _, _, _ => by
    simp only [compileRest]
    exact .refl _
  | _ + 1, plan, outs, [] => by
    simp only [compileRest]
    exact .refl _
  | fuel + 1, plan, outs, (op, core) :: rest => by
    simp only [compileRest]
    refine (compileCore_unread env h [] fuel core).bind fun next => ?_
    exact (Unread.refl _).bind fun _ => compileRest_unread env h fuel _ _ rest

theorem compileCore_unread (env : Environment) (h : env.catalog = none) (order : List OrderTerm) :
    ∀ (fuel : Nat) (core : Core),
      Unread (compileCore env order fuel core) (compileCore (env.under catalog) order fuel core)
  | 0, _ => by
    simp only [compileCore]
    exact .refl _
  | _ + 1, .values rows => by
    simp only [compileCore]
    exact .refl _
  | fuel + 1, .select distinct columns sources condition groupBy having => by
    simp only [compileCore]
    exact (compileSources_unread env h fuel sources).bind fun _ => .refl _

theorem compileSources_unread (env : Environment) (h : env.catalog = none) :
    ∀ (fuel : Nat) (sources : List Source),
      Unread (compileSources env fuel sources) (compileSources (env.under catalog) fuel sources)
  | 0, _ => by
    simp only [compileSources]
    exact .refl _
  | _ + 1, [] => by
    simp only [compileSources]
    exact .refl _
  | fuel + 1, first :: rest => by
    simp only [compileSources]
    exact (compileSource_unread env h fuel first 0).bind fun _ =>
      compileJoins_unread env h fuel _ _ _ rest

theorem compileJoins_unread (env : Environment) (h : env.catalog = none) :
    ∀ (fuel : Nat) (plan : Plan) (columns : List SourceColumn) (width : Nat) (sources : List Source),
      Unread (compileJoins env fuel plan columns width sources)
        (compileJoins (env.under catalog) fuel plan columns width sources)
  | 0, _, _, _, _ => by
    simp only [compileJoins]
    exact .refl _
  | _ + 1, _, _, _, [] => by
    simp only [compileJoins]
    exact .refl _
  | fuel + 1, plan, columns, width, source :: rest => by
    simp only [compileJoins]
    exact (compileSource_unread env h fuel source width).bind fun _ =>
      compileJoins_unread env h fuel _ _ _ rest

theorem compileSource_unread (env : Environment) (h : env.catalog = none) :
    ∀ (fuel : Nat) (source : Source) (first : Nat),
      Unread (compileSource env fuel source first) (compileSource (env.under catalog) fuel source first)
  | 0, _, _ => by
    simp only [compileSource]
    exact .refl _
  | fuel + 1, .query q label, first => by
    simp only [compileSource]
    exact (compileQuery_unread_under env h fuel q).bind fun _ => .refl _
  | fuel + 1, .table name label, first => by
    simp only [compileSource]
    generalize hnamed : (if name.schema.isSome = true then none else _) = named?
    have hnamed' : (if name.schema.isSome = true then none
        else (env.under catalog).named.find? fun n => Text.sameName n.name name.name) = named? := hnamed
    rw [hnamed']
    rcases named? with _ | q | ⟨name, outs⟩ | name
    · exact (env.table_unread catalog h name).bind fun _ => .refl _
    · exact (compileNamed_unread env h fuel q).bind fun _ => .refl _
    · exact .refl _
    · exact .refl _

theorem compileNamed_unread (env : Environment) (h : env.catalog = none) :
    ∀ (fuel : Nat) (q : NamedQuery),
      Unread (compileNamed env fuel q) (compileNamed (env.under catalog) fuel q)
  | 0, _ => by
    simp only [compileNamed]
    exact .refl _
  | fuel + 1, .mk name columns (.mk named first rest misplaced order limit offset) => by
    have hquery (q : Query) := compileQuery_unread_under
      { env with named := .unfinished name :: env.named } h fuel q
    have hcore (named : List Named) (core : Core) := compileCore_unread { env with named } h [] fuel core
    simp only [compileNamed]
    split
    · exact (hquery _).bind fun _ => .refl _
    · refine (hquery _).bind fun base => (Unread.refl _).bind fun outs => ?_
      refine (Unread.mapM (fun part => ?_) _).bind fun _ => .refl _
      exact (hcore _ part.2).bind fun _ => .refl _

end

end Compiling

/-- What is compiled without a catalog is compiled alike under every catalog. -/
theorem compileQuery_unread {functions : List HostFunction} {fuel : Nat} {q : Query}
    (h : compileQuery ⟨none, functions, []⟩ fuel q ≠ .error .catalogChanged)
    (catalog : Option Catalog) :
    compileQuery ⟨catalog, functions, []⟩ fuel q = compileQuery ⟨none, functions, []⟩ fuel q :=
  compileQuery_unread_under catalog ⟨none, functions, []⟩ rfl fuel q h

/-! ## Plans that call only some functions -/

mutual

/-- Whether a term calls no host functions but those of a nest. -/
def Term.staysIn (nest : List Nat) : Term → Bool
  | .value _ | .column _ => true
  | .negate e | .bitNot e | .not e | .isNull e | .cast _ e => e.staysIn nest
  | .and l r | .or l r | .arithmetic _ l r | .compare _ _ l r | .same _ _ l r =>
    l.staysIn nest && r.staysIn nest
  | .between _ _ e l h => e.staysIn nest && l.staysIn nest && h.staysIn nest
  | .among _ e items | .select _ e items => e.staysIn nest && Term.allStayIn nest items
  | .choice items | .coalesce items | .scalar _ items => Term.allStayIn nest items
  | .host record items => nest.contains record && Term.allStayIn nest items

/-- Whether terms call no host functions but those of a nest. -/
def Term.allStayIn (nest : List Nat) : List Term → Bool
  | [] => true
  | e :: es => e.staysIn nest && Term.allStayIn nest es

end

/-- Whether an aggregate call is of a nest, with its arguments. -/
def AggregateCall.staysIn (nest : List Nat) (c : AggregateCall) : Bool :=
  (match c.target with
    | .builtin _ => true
    | .host record => nest.contains record) && Term.allStayIn nest c.args

/-- Whether a plan reads no table and calls no host functions but those of a nest. -/
def Plan.staysIn (nest : List Nat) : Plan → Bool
  | .rows _ => true
  | .working => true
  | .values lists => lists.all (Term.allStayIn nest)
  | .scan _ _ => false
  | .loop s | .sort _ s | .distinct s => s.staysIn nest
  | .join l r | .append l r | .combine _ l r | .recursive _ l r => l.staysIn nest && r.staysIn nest
  | .filter c s => c.staysIn nest && s.staysIn nest
  | .project ts s => Term.allStayIn nest ts && s.staysIn nest
  | .total calls _ s => calls.all (·.staysIn nest) && s.staysIn nest
  | .group keys calls s =>
    Term.allStayIn nest (keys.map (·.1)) && calls.all (·.staysIn nest) && s.staysIn nest
  | .limit count offset s =>
    count.staysIn nest && offset.all (·.staysIn nest) && s.staysIn nest

/-- Whether what is left of a plan reads no table and calls no host functions but those of a nest. -/
def Cursor.staysIn (nest : List Nat) : Cursor → Bool
  | .idle plan => plan.staysIn nest
  | .done | .rows _ => true
  | .values lists => lists.all (Term.allStayIn nest)
  | .scan _ _ _ => false
  | .loop s | .distinct _ s | .limit _ s => s.staysIn nest
  | .join _ l r again => l.staysIn nest && r.staysIn nest && again.staysIn nest
  | .filter c s => c.staysIn nest && s.staysIn nest
  | .project ts s => Term.allStayIn nest ts && s.staysIn nest
  | .groups _ calls _ => calls.all (·.staysIn nest)
  | .append first second => first.staysIn nest && second.staysIn nest
  | .recursive _ step _ _ _ => step.staysIn nest

/-- A row in the place of the working row changes nothing of what is called. -/
theorem Plan.staysIn_withWorking (nest : List Nat) (row : Row) (p : Plan) :
    (p.withWorking row).staysIn nest = p.staysIn nest := by
  induction p with
  | rows | working | values | scan | recursive => rfl
  | loop s ih => simpa only [Plan.withWorking, Plan.staysIn] using ih
  | sort _ s ih => simpa only [Plan.withWorking, Plan.staysIn] using ih
  | distinct s ih => simpa only [Plan.withWorking, Plan.staysIn] using ih
  | join l r ihl ihr => simp only [Plan.withWorking, Plan.staysIn, ihl, ihr]
  | append l r ihl ihr => simp only [Plan.withWorking, Plan.staysIn, ihl, ihr]
  | combine _ l r ihl ihr => simp only [Plan.withWorking, Plan.staysIn, ihl, ihr]
  | filter _ s ih => simp only [Plan.withWorking, Plan.staysIn, ih]
  | project _ s ih => simp only [Plan.withWorking, Plan.staysIn, ih]
  | total _ _ s ih => simp only [Plan.withWorking, Plan.staysIn, ih]
  | group _ _ s ih => simp only [Plan.withWorking, Plan.staysIn, ih]
  | limit _ _ s ih => simp only [Plan.withWorking, Plan.staysIn, ih]

/-- A plan that stays in a nest reads no table. -/
theorem Plan.readsTable_of_staysIn {nest : List Nat} {p : Plan} (h : p.staysIn nest = true) :
    p.readsTable = false := by
  induction p with
  | rows => rfl
  | working => rfl
  | values => rfl
  | scan => cases h
  | loop s ih => exact ih h
  | sort _ s ih => exact ih h
  | distinct s ih => exact ih h
  | join l r ihl ihr =>
    simp only [staysIn, Bool.and_eq_true] at h
    simp only [readsTable, ihl h.1, ihr h.2, Bool.or_false]
  | append l r ihl ihr =>
    simp only [staysIn, Bool.and_eq_true] at h
    simp only [readsTable, ihl h.1, ihr h.2, Bool.or_false]
  | combine _ l r ihl ihr =>
    simp only [staysIn, Bool.and_eq_true] at h
    simp only [readsTable, ihl h.1, ihr h.2, Bool.or_false]
  | recursive _ l r ihl ihr =>
    simp only [staysIn, Bool.and_eq_true] at h
    simp only [readsTable, ihl h.1, ihr h.2, Bool.or_false]
  | filter _ s ih =>
    simp only [staysIn, Bool.and_eq_true] at h
    exact ih h.2
  | project _ s ih =>
    simp only [staysIn, Bool.and_eq_true] at h
    exact ih h.2
  | total _ _ s ih =>
    simp only [staysIn, Bool.and_eq_true] at h
    exact ih h.2
  | group _ _ s ih =>
    simp only [staysIn, Bool.and_eq_true] at h
    exact ih h.2
  | limit _ _ s ih =>
    simp only [staysIn, Bool.and_eq_true] at h
    exact ih h.2

/-- Whether a query can be compiled before the catalog has been read, and calls no host functions but
those of a nest. A query with a mistake in it calls none. -/
def isTablelessQuery (functions : List HostFunction) (nest : List Nat) (q : Query) : Bool :=
  match compileQuery ⟨none, functions, []⟩ queryDepth q with
  | .error fault => fault != .catalogChanged
  | .ok (plan, _) => plan.staysIn nest

/-- Whether a text begins with a query without tables that calls no host functions but those of a
nest. A text that cannot be read, or holds no command, is taken for one as well. -/
def isTableless (functions : List HostFunction) (nest : List Nat) (text : List Char) : Bool :=
  match nextCommand text with
  | .error _ => true
  | .ok found =>
    match found.command? with
    | none => true
    | some (.query q) => isTablelessQuery functions nest q
    | some _ => false

/-- A program that needs no volume and stays in a nest. -/
def Program.StaysIn (nest : List Nat) (p : Program) : Prop :=
  p.access = .none ∧ ∃ plan, p.action = .query plan ∧ plan.staysIn nest = true

/-- A query without tables is compiled alike whatever the catalog is. -/
theorem compileCommand_tableless {functions : List HostFunction} {nest : List Nat} {q : Query}
    (h : isTablelessQuery functions nest q = true) :
    ∃ result, (∀ catalog writable,
        compileCommand ⟨functions, catalog, writable⟩ (.query q) = result) ∧
      result ≠ .error .catalogChanged ∧ ∀ program, result = .ok program → program.StaysIn nest := by
  unfold isTablelessQuery at h
  have hunread := @compileQuery_unread functions queryDepth q
  cases hcompiled : compileQuery ⟨none, functions, []⟩ queryDepth q with
  | error fault =>
    rw [hcompiled] at h hunread
    have hne : fault ≠ .catalogChanged := bne_iff_ne.mp h
    have hne' : (.error fault : Except Fault (Plan × List Output)) ≠ .error .catalogChanged :=
      fun heq => hne (Except.error.inj heq)
    refine ⟨.error fault, fun catalog writable => ?_, fun heq => hne (Except.error.inj heq), nofun⟩
    show (compileQuery ⟨catalog, functions, []⟩ queryDepth q >>= _) = _
    rw [hunread hne' catalog]
    rfl
  | ok compiled =>
    obtain ⟨plan, outs⟩ := compiled
    rw [hcompiled] at h hunread
    refine ⟨.ok ⟨.query plan, outs.map fun o => (o.name, o.typeName), .none, none⟩,
      fun catalog writable => ?_, nofun, ?_⟩
    · show (compileQuery ⟨catalog, functions, []⟩ queryDepth q >>= _) = _
      rw [hunread nofun catalog]
      simp only [bind, Except.bind, Plan.readsTable_of_staysIn h]
      rfl
    · rintro _ heq
      cases heq
      exact ⟨rfl, plan, rfl, h⟩

end HostSql.Engine
