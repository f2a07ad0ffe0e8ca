import HostSql.Proofs.Grouping.Query

/-!
# Grouped aggregation

A session runs a query that calls an aggregate on each of its groups, or on all rows at once. The
closures of the aggregate are local, so what they compute is told by `Aggregation.value`, a fold of
the step and then the finalizer, and `Aggregation.course`, the list of their runs.

> `grouping_lawful`: the query has one row for each class of rows with equal keys, in ascending
> order, with the value of the class. If a step fails, the query fails with its error, after the rows
> of the classes before. Every group that begins is ended by one run of the finalizer.

Two things are said of the runs. What the closures reported is in the session's events, one run after
the other; and a trace of the engine's questions shows which runs the engine asked for. The trace
makes no difference to the query.
-/

namespace HostSql

open Engine

variable {depth record k j : Nat} {a : Aggregation} {columns : List (String × Option String)}

/-! ## What a query comes to -/

/-- A source that delivers these rows, whatever the engine is built on. -/
def ListsRows (k j : Nat) (source : Plan) (rows : List Row) : Prop :=
  ∀ (H : Type) (hooks : Hooks H) (w : World H), Undisturbed k w →
    Yields ⟨k, j, hooks⟩ w AggregateQuery.sourceFuel (.idle source) rows

/-- The answer of a query that has served some groups, and what it has left in the session: the
reports of all runs of closures, one after the other. -/
structure Served (a : Aggregation) (columns : List (String × Option String))
    (before tried : List Portion) (values : List Datum) (failure? : Option String) (w : SessionWorld)
    (answer : Except Error StepResult) (rows : List (List (Option String))) (w' : SessionWorld) :
    Prop where
  answer : answer = endOf columns failure?
  rows : rows = List.zipWith (fun p d => shownRow columns.length (p.row d)) before values
  reports : w'.host.events =
    (((before ++ tried).map (·.args)).flatMap a.course).reverse.flatMap a.reports ++ w.host.events

/-- A query that serves groups one after the other, up to the first that fails, and ends each group
that has begun once. The groups that begin are numbered from the given number on. -/
structure ServesPortions (depth record j first : Nat) (a : Aggregation)
    (columns : List (String × Option String)) (t : World (Traced Host)) (portions : List Portion) :
    Prop where
  served : ∀ before after tried values failure? left, portions = before ++ after →
    before.map (fun p => a.value p.args) = values.map .ok → EndsWith a after tried failure? →
    before.length < left →
    let plain := ((Statement.new (some j)).collect (native (hooks (depth + 1))) [] left).run t.plain
    let traced := ((Statement.new (some j)).collect
      (nativeOn Host.services.traced (hooks (depth + 1)).traced) [] left).run t
    Served a columns before tried values failure? t.plain plain.1.1 plain.1.2.1 plain.2 ∧
      Served a columns before tried values failure? t.plain traced.1.1 traced.1.2.1 traced.2.plain ∧
      traced.2.host.own =
        t.host.own ++ Standing.questions a record first ((before ++ tried).map (·.args))
  ended : ∀ p ∈ portions, (a.course p.args).countP (·.isEnding) = 1
  /-- The first step that fails decides the failure of its group, whatever the finalizer does that
  runs after it. -/
  failed : ∀ p ∈ portions, ∀ front args rest state message, p.args = front ++ args :: rest →
    a.fold front = .ok state → (a.onRow args (front.length + 1) state).answer = .error message →
    EndsWith a [p] [p] (some message) ∧
      ∃ runs, a.course p.args = runs ++ [.row args (front.length + 1) state,
        .ending true (front.length + 1) (a.onRow args (front.length + 1) state).state]

/-- A query without a grouping that has had no rows: the finalizer runs once, for a group of no rows
with an empty state, and decides how the query ends. -/
structure EndsUnfed (depth record j : Nat) (a : Aggregation) (columns : List (String × Option String))
    (row : Datum → Row) (t : World (Traced Host)) (left : Nat) : Prop where
  ended :
    let ended := ((Statement.new (some j)).collect
      (nativeOn Host.services.traced (hooks (depth + 1)).traced) [] left).run t
    (∀ d, (a.atEnd 0 []).answer = .ok d →
      ended.1.1 = endOf columns none ∧ ended.1.2.1 = [shownRow columns.length (row d)]) ∧
    (∀ message, (a.atEnd 0 []).answer = .error message →
      ended.1.1 = endOf columns (some message) ∧ ended.1.2.1 = []) ∧
    ended.2.host.own = t.host.own ++ [.request (.finish record none)] ∧
    ended.2.host.env.events = (a.atEnd 0 []).reports ++ t.host.env.events

/-! ## Serving in a session -/

/-- A host keeps an aggregate of which no group is under way in this query; the next group gets the
given number. -/
def Idle (record first : Nat) (a : Aggregation) (h : Host) : Prop :=
  ∃ groups, h.records.get? record = some (a.record groups) ∧
    groups.groups.get? unusedSlot = none ∧ groups.lastId + 1 = first

/-- Where a host stands that is idle. -/
def Standing.idle (first : Nat) : Standing := ⟨[], [], first, 0, []⟩

theorem Idle.attending {first : Nat} {h : Host} (hidle : Idle record first a h) :
    Attending record a h.events (.idle first) h := by
  obtain ⟨groups, hrecord, hunused, hfirst⟩ := hidle
  exact ⟨groups, ⟨hunused, hfirst, rfl⟩, hrecord, rfl⟩

theorem log_attending (events : List Event) (r : LogRecord) (w : SessionWorld) (s : Standing)
    (h : Attending record a events s w.host) :
    Hosted (Host.services.log r) w () (Attending record a events s) := by
  obtain ⟨groups, hat, hkeeping⟩ := h
  exact ⟨_, rfl, groups, hat, hkeeping.record?, hkeeping.events⟩

theorem log_traced {At : Standing → Host → Prop} (before : List HostQuestion)
    (hlog : ∀ r w s, At s w.host → Hosted (Host.services.log r) w () (At s)) (r : LogRecord)
    (t : World (Traced Host)) (s : Standing) (h : At s t.host.env ∧ t.host.own = before ++ s.asked) :
    Hosted (Host.services.traced.log r) t ()
      fun h => At s h.env ∧ h.own = before ++ s.asked := by
  obtain ⟨env, hrun, hAt⟩ := hlog r t.plain s h.1
  refine ⟨⟨env, t.host.own⟩, ?_, hAt, h.2⟩
  show (_, World.noted ((Host.services.log r).run t.plain).2 t.host.own) = _
  rw [hrun]
  rfl

/-- The groups that are tried are those that come first. -/
theorem EndsWith.triesFirst {after tried : List Portion} {failure? : Option String}
    (h : EndsWith a after tried failure?) : tried <+: after := by
  cases h with
  | all => exact List.prefix_refl []
  | @failing p rest message _ => exact ⟨rest, rfl⟩

/-- All groups that are served but the last have had rows. -/
theorem EndsWith.fed {before after tried : List Portion} {failure? : Option String}
    (h : EndsWith a after tried failure?)
    (hfed : (∀ p ∈ before ++ after, p.args ≠ []) ∨ (before ++ after).length ≤ 1) :
    ∀ rows ∈ ((before ++ tried).map (·.args)).dropLast, rows ≠ [] := by
  have hinit : before ++ tried <+: before ++ after := (List.prefix_append_right_inj before).mpr h.triesFirst
  intro rows hrows
  rcases hfed with hfed | hshort
  · obtain ⟨p, hp, rfl⟩ := List.mem_map.mp ((List.dropLast_sublist _).subset hrows)
    exact hfed p (hinit.subset hp)
  · have hlength : ((before ++ tried).map (·.args)).dropLast.length = 0 := by
      have := hinit.length_le
      rw [List.length_dropLast, List.length_map]
      omega
    rw [List.length_eq_zero_iff.mp hlength] at hrows
    cases hrows

section Query

variable {first : Nat} {t : World (Traced Host)} {e : Engine.Statement}
  (he : Tableless k j columns e t) (hidle : Idle record first a t.host.env)

include he hidle

/-- Whatever supplies groups serves them. -/
theorem serves_supplied {c : Cursor} (hgoes : e.GoesOn c) {portions : List Portion}
    (hfed : (∀ p ∈ portions, p.args ≠ []) ∨ portions.length ≤ 1)
    (hsupplies : ∀ {H : Type} {hooks : Hooks H} {At : Standing → H → Prop},
      Serves hooks record a At → Supplies ⟨k, j, hooks⟩ record a At c portions) :
    ServesPortions depth record j first a columns t portions := by
  refine ⟨fun before after tried values failure? left hportions hvalues hend hleft => ?_,
    fun p _ => Aggregation.courseFrom_ended .., fun p _ front args rest state message hp hfold hstep => ?_⟩
  swap
  · have hstart : 0 + front.length + 1 = front.length + 1 := by omega
    have hfold : a.foldFrom 0 [] front = .ok state := hfold
    rw [← hstart] at hstep
    have hdecided := Aggregation.valueFrom_failed rest hfold hstep
    rw [hstart, ← hp] at hdecided
    exact ⟨.failing hdecided.1, hdecided.2⟩
  have hserves := session_serves depth record a t.host.env.events
  have htraced := hserves.traced t.host.own
  have hattending := hidle.attending
  have hplain : Tableless k j columns e t.plain :=
    ⟨he.undisturbed, he.found, he.connection, he.access, he.columns⟩
  -- Both runs serve the same groups, with a trace and without.
  obtain ⟨s₁, w₁, hrun₁, hat₁⟩ := collect_supplied Host.services (log_attending _) hvalues hend
    (hportions ▸ hsupplies hserves) (.inl rfl) hplain hgoes hattending ⟨rfl, rfl⟩ [] hleft
  obtain ⟨s₂, t₂, hrun₂, hat₂, hown⟩ := collect_supplied Host.services.traced
    (log_traced t.host.own (log_attending _)) hvalues hend (hportions ▸ hsupplies htraced) (.inl rfl) he
    hgoes ⟨hattending, (List.append_nil _).symm⟩ ⟨rfl, rfl⟩ [] hleft
  obtain ⟨hasked, hreports⟩ := Standing.servedAll_follows a record (.idle first)
    ((before ++ tried).map (·.args)) (hend.fed (hportions ▸ hfed)) ⟨rfl, rfl⟩
  have hevents {h : Host} (hat : Attending record a t.host.env.events
      (((before ++ tried).map (·.args)).foldl (Standing.served a record) (.idle first)) h) :
      h.events = (((before ++ tried).map (·.args)).flatMap a.course).reverse.flatMap a.reports ++
        t.host.env.events := by
    obtain ⟨groups, _, hkeeping⟩ := hat
    rw [hkeeping.events, hreports]
    exact congrArg (· ++ _) (List.append_nil _)
  dsimp only
  have hplain₁ : native (hooks (depth + 1)) = nativeOn Host.services (hooks (depth + 1)) := rfl
  rw [hplain₁, hrun₁, hrun₂]
  refine ⟨⟨rfl, rfl, hevents hat₁⟩, ⟨rfl, rfl, hevents hat₂⟩, hown.trans ?_⟩
  rw [hasked]
  rfl

end Query

/-- One group without rows is ended once, by a run of the finalizer on the empty state. -/
theorem ServesPortions.unfed {first : Nat} {t : World (Traced Host)} {row : Datum → Row}
    (h : ServesPortions depth record j first a columns t [⟨[], row⟩]) (left : Nat) (hleft : 1 < left) :
    EndsUnfed depth record j a columns row t left := by
  have hvalue : a.value [] = (a.atEnd 0 []).answer := rfl
  have hreports : ([[]].flatMap a.course).reverse.flatMap a.reports = (a.atEnd 0 []).reports :=
    List.append_nil _
  constructor
  intro ended
  cases hanswer : (a.atEnd 0 []).answer with
  | ok d =>
    obtain ⟨_, ⟨hended, hrows, hevents⟩, hasked⟩ := h.served [⟨[], row⟩] [] [] [d] none left rfl
      (congrArg (fun answer => [answer]) (hvalue.trans hanswer)) .all hleft
    refine ⟨fun d' hd => ?_, nofun, hasked, hevents.trans ?_⟩
    · cases hd
      exact ⟨hended, hrows⟩
    · rw [← hreports]
      rfl
  | error message =>
    obtain ⟨_, ⟨hended, hrows, hevents⟩, hasked⟩ := h.served [] [⟨[], row⟩] [⟨[], row⟩] []
      (some message) left rfl rfl (.failing (hvalue.trans hanswer)) (Nat.lt_of_succ_lt hleft)
    refine ⟨nofun, fun message' hmessage => ?_, hasked, hevents.trans ?_⟩
    · cases hmessage
      exact ⟨hended, hrows⟩
    · rw [← hreports]
      rfl

/-- Lists of rows in a query are delivered as they are. -/
theorem listsRows_values (rows : List Row) (hrows : rows.length + 6 ≤ AggregateQuery.sourceFuel) :
    ListsRows k j (.loop (.values (rows.map (·.map .value)))) rows := by
  intro H hooks w hw
  obtain ⟨n, hn⟩ := Nat.exists_eq_add_of_le hrows
  rw [hn, show rows.length + 6 + n = n + rows.length + 6 by omega]
  exact loop_values_yields hw n rows

/-- An aggregate that notes how many rows it has had. It fails on a NULL. -/
def tally : Aggregation where
  name := "tally"
  arity := 1
  resultType := .args
  step texts :=
    if texts = [none] then .setError "nothing to count" (.finish .ok)
    else .readCount fun count =>
      .insert "rows" (.integer (.ofNat (count.toOption.getD 0))) fun _ => .finish .ok
  final := .readState fun state =>
    .setResult ((state.toOption.bind (·.get? "rows")).getD (.integer 0)) fun _ => .finish .ok
  stepLocal texts := by
    split
    · exact .setError _ (.finish .ok)
    · exact .readCount fun _ => .insert _ _ fun _ => .finish .ok
  finalLocal := .readState fun _ => .setResult _ fun _ => .finish .ok

/-- Rows of a key and an argument. -/
def tallied : List Row :=
  [[.integer 2, .ofString "x"], [.integer 1, .null], [.integer 2, .ofString "y"]]

/-- The tallies of those rows. -/
def tallyQuery : AggregateQuery :=
  ⟨[1], [0, 2], .loop (.values (tallied.map (·.map .value)))⟩

/-- A session in which they are to be tallied by their first column. -/
def tallying : SessionWorld :=
  { SessionWorld.empty with
    connections := [(1, .opened 0 false)]
    statements := [(2, {
      connection := 1
      text := []
      program := ⟨.query (tallyQuery.grouped [(0, .binary)] 3), [("key", none), ("tally", none)], .none,
        none⟩
      expired := false
      phase := .ready
      cursor := .done
      row := []
      failure := none
      tripped := false })]
    nextId := 4
    host := { SessionWorld.empty.host with records := [(3, tally.record .empty)] } }

end HostSql
