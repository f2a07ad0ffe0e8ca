import HostSql.Proofs.Callback.Transport
import HostSql.Proofs.Sql.Trees

/-!
# The values of literals

Literals are compiled to terms with fixed values: integers to themselves, doubles to what the engine reads
from their digits, texts and bytes to what they are. So a query of literals is a query of fixed terms, and
a call on them is a query that calls the host.

> `selectText_plans`: the plan of a list of literals.
> `call_plans`: the plan of a call, of a scalar function or of an aggregate.
-/

namespace HostSql

open Engine Sql

/-! ## Numerals -/

namespace Binary64

theorem ofMagnitude_not_nan (neg : Bool) {m : Nat} (h : m ≤ infinityBits) :
    (ofMagnitude neg m).isNaN = false := by
  have hlt : infinityBits < signBit := infinityBits_lt_signBit
  unfold isNaN
  rw [magnitude_ofMagnitude neg (Nat.lt_of_le_of_lt h hlt)]
  exact decide_eq_false (Nat.not_lt.mpr h)

theorem nearest_not_nan (neg : Bool) (num den : Nat) : (nearest neg num den).isNaN = false :=
  ofMagnitude_not_nan neg (Nat.min_le_right _ _)

theorem zero_not_nan (neg : Bool) : (zero neg).isNaN = false :=
  ofMagnitude_not_nan neg (Nat.zero_le _)

theorem infinity_not_nan (neg : Bool) : (infinity neg).isNaN = false :=
  ofMagnitude_not_nan neg (Nat.le_refl _)

theorem neg_not_nan {x : Binary64} (h : x.isNaN = false) : x.neg.isNaN = false :=
  ofMagnitude_not_nan _ (Nat.not_lt.mp (of_decide_eq_false h))

end Binary64

namespace RealText

theorem toBinary64_not_nan (neg : Bool) (x : Extended) : (x.toBinary64 neg).isNaN = false := by
  unfold Extended.toBinary64
  split
  · exact Binary64.infinity_not_nan neg
  split
  · exact Binary64.zero_not_nan neg
  split
  · exact Binary64.nearest_not_nan _ _ _
  · exact Binary64.nearest_not_nan _ _ _

theorem assemble_not_nan (neg : Bool) (s : Nat) (e : Int) : (assemble neg s e).isNaN = false := by
  unfold assemble
  split
  · exact Binary64.zero_not_nan neg
  dsimp only
  split
  · exact Binary64.nearest_not_nan _ _ _
  split
  · exact Binary64.infinity_not_nan neg
  · exact toBinary64_not_nan neg _

/-- No numeral is read as NaN. -/
theorem read_not_nan (text : List Char) : (read text).isNaN = false := by
  unfold read scan
  dsimp only
  split
  · split
    · exact assemble_not_nan _ _ _
    · exact assemble_not_nan _ _ _
  · exact assemble_not_nan _ _ _

end RealText

/-- The real that the engine reads from the literal of a double. -/
def literalReal (x : Binary64) : Binary64 :=
  if x.negative then (RealText.read (floatChars x)).neg else RealText.read (floatChars x)

theorem realLiteral_eq (x : Binary64) :
    realLiteral x.negative (floatChars x) = .real (literalReal x) := by
  have hnan : (literalReal x).isNaN = false := by
    unfold literalReal
    split
    · exact Binary64.neg_not_nan (RealText.read_not_nan _)
    · exact RealText.read_not_nan _
  show Datum.ofReal (literalReal x) = _
  unfold Datum.ofReal
  rw [hnan]
  rfl

/-- Decimal digits are read as what they spell. -/
theorem integerExpr_toDigits (n : Nat) : integerExpr (Nat.toDigits 10 n) = .integer n := by
  have hdigits : integerExpr.digitsOf (Nat.toDigits 10 n) = n := digitsValue_toDigits n
  have hds := isDigits_toDigits n
  unfold integerExpr
  split
  next x hex hcs =>
    have hx : x.isDigit = true := hds x (by rw [hcs]; simp)
    obtain ⟨hx, hX⟩ := digit_not_hexMark hx
    rw [if_neg (by simp [hx, hX]), hdigits]
  next => rw [hdigits]

/-- A 64-bit integer is read back from its literal. -/
theorem integerLiteral_eq (n : Int64) :
    integerLiteral (decide (n.toInt < 0)) n.toInt.natAbs = .integer n := by
  have hsigned : (if decide (n.toInt < 0) = true then -(n.toInt.natAbs : Int) else n.toInt.natAbs) =
      n.toInt := by
    split
    next h =>
      have := of_decide_eq_true h
      omega
    next h =>
      have : ¬ n.toInt < 0 := fun hlt => h (decide_eq_true hlt)
      omega
  have hfits : Datum.fitsInteger n.toInt = true := by
    obtain ⟨hmin, hmax⟩ := Int64.inRange n
    have hleast : Datum.minInteger = -2 ^ 63 := by decide
    have hmost : Datum.maxInteger = 2 ^ 63 - 1 := by decide
    unfold Datum.fitsInteger
    rw [hleast, hmost, Bool.and_eq_true]
    exact ⟨decide_eq_true hmin, decide_eq_true hmax⟩
  unfold integerLiteral
  dsimp only
  rw [hsigned, if_pos hfits, Int64.ofInt_toInt]

/-! ## Terms -/

/-- The value that a literal has inside the engine. -/
def literalDatum : Value → Datum
  | .null => .null
  | .integer n => .integer n
  | .float x => if x.isNaN then .null else .real (literalReal x)
  | .text s => .ofString s
  | .blob bytes => .blob bytes

/-- The term that a literal is. -/
def literalTerm : Value → Term
  | .text s =>
    if s.toList.contains '\x00' then .cast .text (.value (.blob (Utf8.encode s)))
    else .value (.ofString s)
  | v => .value (literalDatum v)

/-- An expression that stands for a term, whatever names there are. -/
def ResolvesTo (e : Expr) (t : Term) : Prop :=
  ∀ names aggregates, ∃ r : Typed, resolve names aggregates e = pure r ∧ r.term = t

theorem resolve_literal (v : Value) : ResolvesTo (literalExpr v) (literalTerm v) := by
  intro names aggregates
  cases v with
  | null => exact ⟨_, by rw [literalExpr, resolve], rfl⟩
  | integer n =>
    simp only [literalExpr, integerExpr_toDigits]
    have heq := integerLiteral_eq n
    cases hneg : decide (n.toInt < 0) with
    | true =>
      rw [hneg] at heq
      refine ⟨_, by rw [signedExpr, if_pos rfl, resolve], ?_⟩
      rw [heq]
      rfl
    | false =>
      rw [hneg] at heq
      refine ⟨_, by rw [signedExpr, if_neg Bool.false_ne_true, resolve], ?_⟩
      rw [heq]
      rfl
  | float x =>
    have heq := realLiteral_eq x
    simp only [literalExpr, literalTerm, literalDatum]
    cases hx : x.isNaN with
    | true => exact ⟨_, by rw [if_pos rfl, resolve], rfl⟩
    | false =>
      cases hneg : x.negative with
      | true =>
        rw [hneg] at heq
        refine ⟨_, by rw [if_neg Bool.false_ne_true, signedExpr, if_pos rfl, resolve], ?_⟩
        rw [heq]
        rfl
      | false =>
        rw [hneg] at heq
        refine ⟨_, by rw [if_neg Bool.false_ne_true, signedExpr, if_neg Bool.false_ne_true, resolve], ?_⟩
        rw [heq]
        rfl
  | text s =>
    have hcast : Affinity.ofTypeName "TEXT" = .text := by decide
    simp only [literalExpr, literalTerm]
    split
    · refine ⟨_, by rw [resolve, resolve, pure_bind], ?_⟩
      rw [hcast]
      rfl
    · exact ⟨_, by rw [resolve], rfl⟩
  | blob bytes => exact ⟨_, by rw [literalExpr, resolve], rfl⟩

theorem resolveAll_of_resolvesTo {es : List Expr} {ts : List Term}
    (h : List.Forall₂ ResolvesTo es ts) (names : Names) (aggregates : Bool) :
    ∃ rs : List Typed, resolveAll names aggregates es = pure rs ∧ rs.map (·.term) = ts := by
  induction h with
  | nil => exact ⟨[], by rw [resolveAll], rfl⟩
  | @cons e t es ts he hes ih =>
    obtain ⟨r, hr, rfl⟩ := he names aggregates
    obtain ⟨rs, hrs, rfl⟩ := ih
    exact ⟨r :: rs, by rw [resolveAll, hr, hrs, pure_bind, pure_bind], rfl⟩

theorem literals_resolve (vs : List Value) :
    List.Forall₂ ResolvesTo (vs.map literalExpr) (vs.map literalTerm) := by
  rw [List.forall₂_map_left_iff, List.forall₂_map_right_iff]
  exact List.forall₂_same.mpr fun v _ => resolve_literal v

/-- A literal has its value in every row. -/
theorem literalTerm_eval {H : Type} (scope : Scope H) (row : Row) (v : Value) (w : World H) :
    Unaided ((literalTerm v).eval scope row) w (literalDatum v) := by
  cases v with
  | text s =>
    simp only [literalTerm]
    split
    · rw [Term.eval]
      exact Unaided.bind (by rw [Term.eval]; exact .return_run) .return_run
    · rw [Term.eval]
      exact .return_run
  | null | integer n | float x | blob bytes =>
    unfold literalTerm
    dsimp only
    rw [Term.eval]
    exact .return_run

theorem literals_fixed (vs : List Value) : Fixed (vs.map literalTerm) (vs.map literalDatum) := by
  intro H scope row w
  induction vs with
  | nil =>
    rw [List.map_nil, Term.evalAll]
    exact .return_run
  | cons v vs ih =>
    rw [List.map_cons, Term.evalAll]
    exact (literalTerm_eval scope row v w).bind (ih.bind .return_run)

/-! ## Plans -/

section Plans

variable {functions : List HostFunction} {catalog : Option Catalog} {writable : Bool}

/-- The names that a query without tables may refer to. -/
def bareNames (functions : List HostFunction) : Names := ⟨[], 0, [], functions⟩

/-- The entries of a result without stars. -/
def resultEntries (columns : List (Expr × String)) : List (Typed ⊕ (Expr × Option String × String)) :=
  columns.map fun c => .inr (c.1, none, c.2)

theorem expandStars_plain (columns : List (Expr × String)) :
    expandStars [] true (columns.map fun c => .expr c.1 none c.2) = pure (resultEntries columns) := by
  have hflat : (columns.map fun c => [(Sum.inr (c.1, none, c.2) :
      Typed ⊕ (Expr × Option String × String))]).flatten = resultEntries columns := by
    unfold resultEntries
    induction columns with
    | nil => rfl
    | cons c columns ih => rw [List.map_cons, List.flatten_cons, ih]; rfl
  unfold expandStars
  dsimp only
  rw [List.mapM_map]
  simp only [Function.comp_def, List.mapM_pure, pure_bind, hflat]

/-- A query of expressions only is planned as what the expressions are resolved to. -/
theorem compile_columns {columns : List (Expr × String)} {result : List (Typed × Output)}
    {calls : List AggregateCall}
    (h : (resolveResult (bareNames functions) (resultEntries columns)).run [] = pure (result, calls)) :
    compileCommand ⟨functions, catalog, writable⟩
      (.query (columnsQuery (columns.map fun c => .expr c.1 none c.2))) =
      .ok ⟨.query (.project (result.map (·.1.term))
        (if calls.isEmpty then .rows [[]] else .total calls 0 (.rows [[]]))),
        result.map fun r => (r.2.name, r.2.typeName), .none, none⟩ := by
  have hcore : ∀ env : Environment, env.functions = functions →
      compileCore env [] 999 (.select false (columns.map fun c => .expr c.1 none c.2) [] none [] none) =
      .ok (.project (result.map (·.1.term))
        (if calls.isEmpty then .rows [[]] else .total calls 0 (.rows [[]])), result.map (·.2)) := by
    rintro env rfl
    unfold bareNames at h
    simp only [compileCore, compileSources, pure_bind, List.isEmpty_nil, expandStars_plain,
      StateT.run_bind, h]
    cases calls <;> rfl
  have hreads : Plan.readsTable (.project (result.map (·.1.term))
      (if calls.isEmpty then .rows [[]] else .total calls 0 (.rows [[]]))) = false := by
    cases calls <;> rfl
  have hquery (env : Environment) (henv : env.functions = functions) :
      compileQuery env queryDepth (columnsQuery (columns.map fun c => .expr c.1 none c.2)) =
      .ok (.project (result.map (·.1.term))
        (if calls.isEmpty then .rows [[]] else .total calls 0 (.rows [[]])), result.map (·.2)) := by
    unfold queryDepth columnsQuery
    rw [compileQuery]
    dsimp only
    rw [if_neg (by decide), hcore { env with named := [].map Named.query ++ env.named } henv]
    rfl
  unfold compileCommand
  dsimp only
  rw [hquery _ rfl]
  simp only [bind, Except.bind, hreads]
  unfold silent
  rw [if_neg Bool.false_ne_true, if_pos rfl, List.map_map]
  rfl

theorem resolveResult_literals {vs : List Value} {columns : List (Expr × String)}
    (h : columns.map (·.1) = vs.map literalExpr) (names : Names) :
    ∃ result, resolveResult names (resultEntries columns) = pure result ∧
      result.map (·.1.term) = vs.map literalTerm := by
  induction vs generalizing columns with
  | nil =>
    rw [List.map_nil, List.map_eq_nil_iff] at h
    subst h
    exact ⟨[], by rw [resultEntries, List.map_nil, resolveResult], rfl⟩
  | cons v vs ih =>
    obtain ⟨c, columns, rfl, hc, hcolumns⟩ := List.map_eq_cons_iff.mp h
    obtain ⟨result, hresult, hterms⟩ := ih hcolumns
    obtain ⟨r, hr, hterm⟩ := resolve_literal v names true
    refine ⟨(r, r.output none c.2) :: result, ?_, by rw [List.map_cons, hterm, hterms]; rfl⟩
    show resolveResult names (.inr (c.1, none, c.2) :: resultEntries columns) = _
    rw [resolveResult, hc, hr, hresult, pure_bind, pure_bind]

/-- The columns of a query of literals, with their texts. -/
theorem literalColumns_texts {vs : List Value} {columns : List ResultColumn}
    (h : LiteralColumns vs columns) :
    ∃ cs : List (Expr × String), columns = cs.map (fun c => .expr c.1 none c.2) ∧
      cs.map (·.1) = vs.map literalExpr := by
  induction h with
  | nil => exact ⟨[], rfl, rfl⟩
  | @cons v c vs columns hc _ ih =>
    obtain ⟨text, rfl⟩ := hc
    obtain ⟨cs, rfl, hcs⟩ := ih
    exact ⟨(literalExpr v, text) :: cs, rfl, by rw [List.map_cons, List.map_cons, hcs]⟩

/-- A list of literals is a query of their terms. -/
theorem selectText_plans (functions : List HostFunction) (v : Value) (vs : List Value) :
    ∃ columns, Plans functions (selectText (v :: vs)).toList
      (fixedQuery ((v :: vs).map literalTerm)) columns ∧ columns.length = (v :: vs).length := by
  obtain ⟨columns, stop, atEnd, hnext, hcolumns⟩ := nextCommand_select v vs
  obtain ⟨cs, rfl, hcs⟩ := literalColumns_texts hcolumns
  obtain ⟨result, hresult, hterms⟩ := resolveResult_literals hcs (bareNames functions)
  refine ⟨result.map fun r => (r.2.name, r.2.typeName), ⟨_, stop, atEnd, hnext, fun catalog writable => ?_⟩,
    ?_⟩
  · rw [compile_columns (by rw [hresult]; rfl), hterms]
    rfl
  · rw [List.length_map, ← List.length_map (·.1.term), hterms, List.length_map]

/-- A call on literals is a query that calls the host on their terms. -/
theorem call_plans {f : String} {vs : List Value} {aggregate : Bool} {record : Nat}
    (hvs : vs.length ≤ maxArguments)
    (h : callee functions f vs.length =
      .ok (if aggregate then .aggregate (.host record) else .host record)) :
    ∃ columns, Plans functions (CallText.call f vs).toList
      (callQuery aggregate record (vs.map literalTerm)) columns := by
  obtain ⟨label, stop, atEnd, hnext⟩ := nextCommand_call f hvs
  obtain ⟨result, calls, hresult, hplan⟩ : ∃ result calls,
      (resolveResult (bareNames functions) (resultEntries [(.call f false (vs.map literalExpr), label)])).run
        [] = pure (result, calls) ∧
      Plan.project (result.map (·.1.term))
        (if calls.isEmpty then .rows [[]] else .total calls 0 (.rows [[]])) =
          callQuery aggregate record (vs.map literalTerm) := by
    have hcallee : callee (bareNames functions).functions f (vs.map literalExpr).length = _ :=
      (List.length_map literalExpr).symm ▸ h
    unfold resultEntries
    rw [List.map_cons, List.map_nil, resolveResult, resolveResult, resolve, hcallee]
    cases aggregate with
    | false =>
      obtain ⟨rs, hrs, hterms⟩ :=
        resolveAll_of_resolvesTo (literals_resolve vs) (bareNames functions) true
      rw [← hterms]
      exact ⟨_, _, by simp only [Bool.false_eq_true, if_false, hrs, pure_bind]; rfl, rfl⟩
    | true =>
      obtain ⟨rs, hrs, hterms⟩ :=
        resolveAll_of_resolvesTo (literals_resolve vs) (bareNames functions) false
      rw [← hterms]
      exact ⟨_, _, by simp only [if_true, Bool.not_true, Bool.false_eq_true, if_false, hrs, pure_bind]; rfl, rfl⟩
  refine ⟨result.map fun r => (r.2.name, r.2.typeName), ⟨_, stop, atEnd, hnext, fun catalog writable => ?_⟩⟩
  rw [← hplan]
  exact compile_columns hresult

end Plans

end HostSql
