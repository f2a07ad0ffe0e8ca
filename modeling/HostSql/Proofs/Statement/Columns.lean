import HostSql.Proofs.Statement.Release

/-!
# All results of a statement have the same columns

The engine may compile a statement anew between two executions, to other columns than before. What
a statement says about its columns does not follow that:

> `Statement.results_alike`: in every result there are as many types as names, a row has one entry
> for each of them, and names and types are those of the statement's first result.

What a statement knows of its columns is nothing or the metadata of its first success
(`Statement.Knows`). A success delivers what is known, or what is known from then on (`Delivers`);
no other call touches it. The engine is any engine, so nothing is assumed of what it says about a
statement's columns from one step to the next.
-/

namespace HostSql

variable {σ α β : Type}

/-! ## Results -/

/-- The names and types of a result's columns. -/
structure Metadata where
  columns : List String
  types : List (Option String)
  deriving Repr, DecidableEq

def StepResult.metadata (r : StepResult) : Metadata := ⟨r.columns, r.types⟩

/-- A column has a name and may have a type, and a row has an entry for each column. -/
structure StepResult.IsEven (r : StepResult) : Prop where
  types : r.types.length = r.columns.length
  row : ∀ row, r.row = some row → row.length = r.columns.length

/-- The result of a call, if it is a step that succeeded. -/
def CallAnswer.result? : CallAnswer → Option StepResult
  | stepped (.ok r) => some r
  | stepped (.error _) | finalized _ => none

/-- The results of the steps that succeeded, the first one first. -/
def results (entries : List (Entry σ)) : List StepResult :=
  entries.filterMap (·.answer.result?)

/-- Results of which each is even and has the columns of the first. -/
structure ResultsAlike (rs : List StepResult) : Prop where
  even : ∀ r ∈ rs, r.IsEven
  columns : ∀ r ∈ rs, ∀ first, rs.head? = some first → r.columns = first.columns
  types : ∀ r ∈ rs, ∀ first, rs.head? = some first → r.types = first.types

/-! ## What a statement knows of its columns -/

/-- A statement that knows this of its columns. -/
structure Statement.Knows (known? : Option Metadata) (s : Statement) : Prop where
  columns : s.columns = known?.map (·.columns)
  types : s.types = known?.map (·.types)
  even : ∀ m, known? = some m → m.types.length = m.columns.length

/-- A result with the metadata that was known, if any was, and is known from then on. -/
structure Delivers (known? : Option Metadata) (r : StepResult) (s : Statement) : Prop where
  even : r.IsEven
  same : ∀ m, known? = some m → r.metadata = m
  next : s.Knows (some r.metadata)

theorem Statement.new_knows (native? : Option Nat) : (Statement.new native?).Knows none :=
  ⟨rfl, rfl, nofun⟩

/-- Going through a list gives an answer for each of its members. -/
theorem mapM_length (f : α → StateM σ β) (l : List α) (w : σ) :
    ((l.mapM f).run w).1.length = l.length := by
  induction l generalizing w with
  | nil => rfl
  | cons a l ih =>
    rw [List.mapM_cons, run_bind, run_bind]
    exact congrArg Nat.succ (ih ((f a).run w).2)

namespace Statement

variable {known? : Option Metadata} {s : Statement}

/-- Knowing the columns does not depend on what the statement runs. -/
theorem Knows.setVm (h : s.Knows known?) (vm : Vm) : ({ s with vm } : Statement).Knows known? :=
  ⟨h.columns, h.types, h.even⟩

/-- Names and types are read together, so that there are as many of them, and only once. -/
theorem withColumns_metadata (n : Native σ) (k : Nat) (h : s.Knows known?) (w : σ) :
    ∃ m, ((s.withColumns n k).run w).1 =
        (m.columns, m.types, { s with columns := some m.columns, types := some m.types }) ∧
      m.types.length = m.columns.length ∧ ∀ m', known? = some m' → m = m' := by
  obtain ⟨vm, columns, types⟩ := s
  obtain ⟨hcolumns, htypes, heven⟩ := h
  cases known? with
  | some m =>
    cases hcolumns
    cases htypes
    exact ⟨m, rfl, heven m rfl, fun m' hm' => Option.some.inj hm'⟩
  | none =>
    cases hcolumns
    cases htypes
    -- both lists have one entry for each index below the number that the engine gave
    let indices := List.range ((n.columnCount k).run w).1
    let names := (indices.mapM (n.columnName k)).run ((n.columnCount k).run w).2
    let types := (indices.mapM (n.columnType k)).run names.2
    have hlength : types.1.length = names.1.length := by
      rw [mapM_length, mapM_length]
    exact ⟨⟨names.1, types.1⟩, rfl, hlength, nofun⟩

/-- The result of a native step that succeeded. -/
theorem succeed_delivers (n : Native σ) (k : Nat) (hasRow : Bool) (h : s.Knows known?) (w : σ) :
    let p := ((s.succeed n k hasRow).run w).1
    Delivers known? p.1 p.2 := by
  obtain ⟨m, hm, heven, hsame⟩ := withColumns_metadata n k h w
  unfold succeed
  rw [run_bind, hm]
  cases hasRow with
  | false => exact ⟨⟨heven, nofun⟩, hsame, ⟨rfl, rfl, by rintro _ ⟨⟩; exact heven⟩⟩
  | true =>
    refine ⟨⟨heven, ?_⟩, hsame, ⟨rfl, rfl, by rintro _ ⟨⟩; exact heven⟩⟩
    rintro _ ⟨⟩
    exact (mapM_length _ _ _).trans List.length_range

/-- A native step that failed leaves what is known. -/
theorem fail_knows (n : Native σ) (k : Nat) (status : NativeStatus) (h : s.Knows known?) (w : σ) :
    ((s.fail n k status).run w).1.2.Knows known? := by
  unfold fail
  by_cases hbusy : status.code = ResultCode.busy
  · rw [if_pos hbusy]
    exact h
  rw [if_neg hbusy]
  by_cases hknown : ErrorKind.isKnownFailure status.code = true
  · rw [if_pos hknown]
    exact h.setVm .finalized
  · rw [if_neg hknown]
    exact h

/-- Without a command there are no columns to know. -/
theorem stepEmpty_delivers (h : s.Knows known?) :
    Delivers known? s.stepEmpty.1 s.stepEmpty.2 := by
  obtain ⟨vm, columns, types⟩ := s
  obtain ⟨hcolumns, htypes, heven⟩ := h
  cases hcolumns
  cases htypes
  cases known? with
  | none => exact ⟨⟨rfl, nofun⟩, nofun, ⟨rfl, rfl, by rintro _ ⟨⟩; rfl⟩⟩
  | some m =>
    have hm := heven m rfl
    exact ⟨⟨hm, nofun⟩, fun m' hm' => Option.some.inj hm', ⟨rfl, rfl, by rintro _ ⟨⟩; exact hm⟩⟩

/-- Finalizing leaves what is known. -/
theorem finalize_knows (n : Native σ) (h : s.Knows known?) (w : σ) :
    ((s.finalize n).run w).1.2.Knows known? := by
  unfold finalize
  cases s.vm with
  | finalized => exact h.setVm .finalized
  | empty => exact h.setVm .finalized
  | live k =>
    simp only [run_bind]
    cases ((n.finalize k).run w).1 with
    | some failure => exact h.setVm .finalized
    | none => exact h.setVm .finalized

end Statement

/-! ## Calls -/

/-- What a call gives, and what the statement knows of its columns afterwards. -/
def CallAnswer.KeepsTo (known? : Option Metadata) (answer : CallAnswer) (s : Statement) : Prop :=
  match answer.result? with
  | some r => Delivers known? r s
  | none => s.Knows known?

/-- A step delivers what is known of the columns, or makes it known, or fails and leaves it. -/
theorem Statement.step_keepsTo (n : Native σ) {known? : Option Metadata} {s : Statement}
    (h : s.Knows known?) (w : σ) :
    let p := ((s.step n).run w).1
    (CallAnswer.stepped p.1).KeepsTo known? p.2 := by
  cases hvm : s.vm with
  | finalized =>
    unfold step
    simp only [hvm]
    exact h
  | empty =>
    unfold step
    simp only [hvm]
    exact stepEmpty_delivers h
  | live k =>
    cases hstep : (n.step k).run w with
    | mk status w' =>
      cases hcode : status.succeeded with
      | true =>
        rw [step_of_succeeded n hvm hstep hcode]
        exact succeed_delivers n k _ h w'
      | false =>
        rw [step_of_failed n hvm hstep hcode]
        exact fail_knows n k status h w'

theorem Statement.turn_keepsTo (n : Native σ) {known? : Option Metadata} {s : Statement}
    (h : s.Knows known?) (t : Turn σ) (w : σ) :
    let p := ((s.turn n t).run w).1
    p.1.answer.KeepsTo known? p.2 := by
  obtain ⟨meanwhile, call⟩ := t
  cases call with
  | step => exact s.step_keepsTo n h (meanwhile w)
  | finalize => exact s.finalize_knows n h (meanwhile w)

theorem results_cons (e : Entry σ) (rest : List (Entry σ)) :
    results (e :: rest) = e.answer.result?.toList ++ results rest := by
  unfold results
  rw [List.filterMap_cons]
  cases e.answer.result? <;> rfl

/-- Even results with one metadata: what is known already or, failing that, that of the first. -/
structure ResultsKeepTo (known? : Option Metadata) (rs : List StepResult) : Prop where
  even : ∀ r ∈ rs, r.IsEven
  same : ∀ m, (known? <|> rs.head?.map (·.metadata)) = some m → ∀ r ∈ rs, r.metadata = m

/-- A result that is delivered goes before those that keep to it. -/
theorem Delivers.cons {known? : Option Metadata} {r : StepResult} {s : Statement}
    {rs : List StepResult} (h : Delivers known? r s) (hrs : ResultsKeepTo (some r.metadata) rs) :
    ResultsKeepTo known? (r :: rs) := by
  refine ⟨List.forall_mem_cons.mpr ⟨h.even, hrs.even⟩, ?_⟩
  intro m hm
  have hr : r.metadata = m := by
    cases known? with
    | some m' => exact (h.same m' rfl).trans (Option.some.inj hm)
    | none => exact Option.some.inj hm
  exact List.forall_mem_cons.mpr ⟨hr, hrs.same m (congrArg some hr)⟩

/-- All results of a statement keep to what it knows of its columns. -/
theorem Statement.turns_keepTo (n : Native σ) (turns : List (Turn σ)) :
    ∀ {known? : Option Metadata} {s : Statement}, s.Knows known? → ∀ w,
      ResultsKeepTo known? (results ((s.turns n turns).run w).1.1) := by
  induction turns with
  | nil => exact fun _ _ => ⟨nofun, fun _ _ => nofun⟩
  | cons t rest ih =>
    intro known? s hs w
    let p := (s.turn n t).run w
    have hcall : p.1.1.answer.KeepsTo known? p.1.2 := s.turn_keepsTo n hs t w
    have hrun : ((s.turns n (t :: rest)).run w).1.1 =
        p.1.1 :: ((p.1.2.turns n rest).run p.2).1.1 := rfl
    rw [hrun, results_cons]
    unfold CallAnswer.KeepsTo at hcall
    cases hresult : p.1.1.answer.result? with
    | none =>
      rw [hresult] at hcall
      exact ih hcall p.2
    | some r =>
      rw [hresult] at hcall
      exact hcall.cons (ih hcall.next p.2)

/-- Whatever the engine does, all results of a statement are even and have the columns of its first
result. -/
theorem Statement.results_alike (n : Native σ) (native? : Option Nat) (turns : List (Turn σ))
    (w : σ) : ResultsAlike (results (((Statement.new native?).turns n turns).run w).1.1) := by
  obtain ⟨heven, hsame⟩ := turns_keepTo n turns (Statement.new_knows native?) w
  have hmetadata : ∀ r ∈ results (((Statement.new native?).turns n turns).run w).1.1, ∀ first,
      (results (((Statement.new native?).turns n turns).run w).1.1).head? = some first →
        r.metadata = first.metadata := by
    intro r hr first hfirst
    exact hsame first.metadata (by rw [hfirst]; rfl) r hr
  refine ⟨heven, ?_, ?_⟩
  · intro r hr first hfirst
    exact congrArg Metadata.columns (hmetadata r hr first hfirst)
  · intro r hr first hfirst
    exact congrArg Metadata.types (hmetadata r hr first hfirst)

end HostSql
