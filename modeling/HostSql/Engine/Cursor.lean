import HostSql.Engine.Grouping

/-!
# Running plans

`Cursor.next` delivers the next row of a plan and what is left of it. Everything is done as late as
possible: a row is computed when it is asked for, except where an operator needs all rows of its
source first. Each step uses up fuel; the supply is far larger than any run on a real database.
-/

namespace HostSql.Engine

variable {H : Type}

/-- The database as a connection sees it: with its own changes if it has made any. -/
def currentDatabase (connection : Nat) : Run H Database := do
  let conn ← connectionOf connection
  match conn.draft with
  | some db => return db
  | none =>
    match (← get).volumes.get? conn.volume with
    | some v => v.content.database?
    | none => return .empty

/-- Fails if the tables that a statement reads have been taken away. -/
def checkTripped (scope : Scope H) : Run H Unit := do
  match (← get).statements.get? scope.statement with
  | some s => if s.tripped then throw .aborted
  | none => return

/-- The order of two rows under sort keys. -/
def SortKey.order (keys : List SortKey) (a b : Row) : Ordering :=
  match keys with
  | [] => .eq
  | k :: rest =>
    let x := a.getD k.column .null
    let y := b.getD k.column .null
    let o :=
      match x.isNull, y.isNull with
      | true, true => .eq
      | true, false => if k.nullsFirst then .lt else .gt
      | false, true => if k.nullsFirst then .gt else .lt
      | false, false =>
        let o := Datum.compare k.collation x y
        if k.descending then o.swap else o
    if o == .eq then SortKey.order rest a b else o

/-- Whether two rows are equal, column by column. -/
def sameRow (a b : Row) : Bool :=
  a.length == b.length && (a.zip b).all fun (x, y) => Datum.compare .binary x y == .eq

/-- The order of two rows, column by column. -/
def rowOrder : List Collation → Row → Row → Ordering
  | cs, a :: as, b :: bs =>
    let o := Datum.compare (cs.headD .binary) a b
    if o == .eq then rowOrder (cs.drop 1) as bs else o
  | _, _, _ => .eq

/-- Ascending rows without duplicates. -/
def sortedSet (rows : List Row) : List Row :=
  (rows.mergeSort fun a b => rowOrder [] a b != .gt).foldr
    (fun r rest => match rest with
      | s :: _ => if sameRow r s then rest else r :: rest
      | [] => [r]) []

/-- The rows of two sources combined into a set. -/
def SetOp.combine (op : SetOp) (left right : List Row) : List Row :=
  match op with
  | union => sortedSet (left ++ right)
  | intersect => sortedSet (left.filter fun r => right.any (sameRow r))
  | except => sortedSet (left.filter fun r => !right.any (sameRow r))

/-- The number of rows a limit names. -/
def rowCount (scope : Scope H) (t : Term) : Run H Int := do
  match Affinity.apply .integer (← t.eval scope []) with
  | .integer n => return n.toInt
  | _ => throw .mismatch

/-- Fails when the fuel is used up. -/
def exhausted {α : Type} : Run H α := throw .outOfMemory

/-- The next row of a table, after the row with the given number or from the start. -/
def nextOfTable (scope : Scope H) (root width : Nat) (after : Option Int64) :
    Run H (Option (Row × Cursor)) := do
  checkTripped scope
  match (← currentDatabase scope.connection).rowAfter? root after with
  | none => return none
  | some (n, r) => return some (r ++ [.integer n], .scan root width n)

/-- Takes the front row of a recursive query's queue; rows that were there before are dropped if
duplicates are. -/
def Cursor.deliver (all : Bool) (step : Plan) (queue seen : List Row) :
    Run H (Option (Row × Cursor)) :=
  match queue with
  | [] => return none
  | r :: rest =>
    if !all && seen.any (sameRow r) then Cursor.deliver all step rest seen
    else return some (r, .recursive all step rest (if all then [] else r :: seen) r)

mutual

/-- The next row and the cursor after it. -/
def Cursor.next (scope : Scope H) : Nat → Cursor → Run H (Option (Row × Cursor))
  | 0, _ => exhausted
  | _ + 1, .done => return none
  | _ + 1, .rows [] => return none
  | _ + 1, .rows (r :: rest) => return some (r, .rows rest)
  | _ + 1, .values [] => return none
  | _ + 1, .values (ts :: rest) => do return some (← Term.evalAll scope [] ts, .values rest)
  | _ + 1, .scan root width after => nextOfTable scope root width (some after)
  | fuel + 1, .loop source => do
    checkInterrupt scope
    Cursor.nextOfLoop scope fuel source
  | fuel + 1, .join row left right again => do
    match ← right.next scope fuel with
    | some (r, right) => return some (row ++ r, .join row left right again)
    | none => Cursor.nextOfJoin scope fuel left again
  | fuel + 1, .filter condition source => do
    match ← source.next scope fuel with
    | none => return none
    | some (r, source) =>
      if ← condition.isTrue scope r then return some (r, .filter condition source)
      else Cursor.next scope fuel (.filter condition source)
  | fuel + 1, .project terms source => do
    match ← source.next scope fuel with
    | none => return none
    | some (r, source) => return some (← Term.evalAll scope r terms, .project terms source)
  | _ + 1, .groups collations calls rest => do
    match rest with
    | [] => return none
    | (key, first) :: _ =>
      let inGroup (p : Row × Row) : Bool := rowOrder collations key p.1 == .eq
      let members := rest.takeWhile inGroup
      let totals ← runGroup scope (calls.map Feeding.begin) (members.map (·.2))
      return some (first ++ totals, .groups collations calls (rest.dropWhile inGroup))
  | fuel + 1, .distinct seen source => do
    match ← source.next scope fuel with
    | none => return none
    | some (r, source) =>
      if seen.any (sameRow r) then Cursor.next scope fuel (.distinct seen source)
      else return some (r, .distinct (r :: seen) source)
  | fuel + 1, .limit left source => do
    if left = 0 then return none
    match ← source.next scope fuel with
    | none => return none
    | some (r, source) => return some (r, .limit (left - 1) source)
  | fuel + 1, .append first second => do
    match ← first.next scope fuel with
    | some (r, first) => return some (r, .append first second)
    | none => Cursor.next scope fuel (.idle second)
  | fuel + 1, .recursive all step queue seen current => do
    checkInterrupt scope
    let found ← Cursor.drain scope fuel (.idle (step.withWorking current))
    Cursor.deliver all step (queue ++ found) seen
  | fuel + 1, .idle plan => Cursor.start scope fuel plan

/-- The first row of a plan. -/
def Cursor.start (scope : Scope H) : Nat → Plan → Run H (Option (Row × Cursor))
  | 0, _ => exhausted
  | fuel + 1, plan =>
    match plan with
    | .rows rs => Cursor.next scope fuel (.rows rs)
    | .working => return none
    | .values rs => Cursor.next scope fuel (.values rs)
    | .scan root width => nextOfTable scope root width none
    | .loop source => Cursor.nextOfLoop scope fuel (.idle source)
    | .join left right => Cursor.nextOfJoin scope fuel (.idle left) right
    | .filter condition source => Cursor.next scope fuel (.filter condition (.idle source))
    | .project terms source => Cursor.next scope fuel (.project terms (.idle source))
    | .total calls width source => do
      let (first, totals) ←
        Cursor.feedTotal scope fuel (calls.map Feeding.begin) none (.idle source)
      return some (first.getD (List.replicate width .null) ++ totals, .done)
    | .group keys calls source => do
      let rows ← Cursor.drainKeyed scope fuel (keys.map (·.1)) (.idle source)
      let collations := keys.map (·.2)
      let sorted := rows.mergeSort fun a b => rowOrder collations a.1 b.1 != .gt
      Cursor.next scope fuel (.groups collations calls sorted)
    | .sort keys source => do
      let rows ← Cursor.drain scope fuel (.idle source)
      let sorted := rows.mergeSort fun a b => SortKey.order keys a b != .gt
      Cursor.nextOfLoop scope fuel (.rows sorted)
    | .distinct source => Cursor.next scope fuel (.distinct [] (.idle source))
    | .limit count offset source => do
      let n ← rowCount scope count
      let skip ← match offset with
        | some t => rowCount scope t
        | none => pure 0
      if n = 0 then return none
      let source ← Cursor.skip scope fuel skip.toNat (.idle source)
      if n < 0 then Cursor.next scope fuel source
      else Cursor.next scope fuel (.limit n.toNat source)
    | .append first second => Cursor.next scope fuel (.append (.idle first) second)
    | .combine op left right => do
      let l ← Cursor.drain scope fuel (.idle left)
      let r ← Cursor.drain scope fuel (.idle right)
      Cursor.nextOfLoop scope fuel (.rows (op.combine l r))
    | .recursive all base step => do
      let found ← Cursor.drain scope fuel (.idle base)
      Cursor.deliver all step found []

/-- The next row of a source that is read in a loop. -/
def Cursor.nextOfLoop (scope : Scope H) : Nat → Cursor → Run H (Option (Row × Cursor))
  | 0, _ => exhausted
  | fuel + 1, source => do
    match ← source.next scope fuel with
    | none => return none
    | some (r, source) => return some (r, .loop source)

/-- The next row of a join whose right side is used up. -/
def Cursor.nextOfJoin (scope : Scope H) : Nat → Cursor → Plan → Run H (Option (Row × Cursor))
  | 0, _, _ => exhausted
  | fuel + 1, left, again => do
    match ← left.next scope fuel with
    | none => return none
    | some (r, left) => Cursor.next scope fuel (.join r left (.idle again) again)

/-- All rows that are left. -/
def Cursor.drain (scope : Scope H) : Nat → Cursor → Run H (List Row)
  | 0, _ => exhausted
  | fuel + 1, c => do
    match ← c.next scope fuel with
    | none => return []
    | some (r, c) => return r :: (← Cursor.drain scope fuel c)

/-- All rows that are left, with the values of key terms in front. -/
def Cursor.drainKeyed (scope : Scope H) : Nat → List Term → Cursor → Run H (List (Row × Row))
  | 0, _, _ => exhausted
  | fuel + 1, keys, c => do
    match ← c.next scope fuel with
    | none => return []
    | some (r, c) =>
      let key ← Term.evalAll scope r keys
      return (key, r) :: (← Cursor.drainKeyed scope fuel keys c)

/-- Leaves rows out. -/
def Cursor.skip (scope : Scope H) : Nat → Nat → Cursor → Run H Cursor
  | 0, _, _ => exhausted
  | _, 0, c => return c
  | fuel + 1, n + 1, c => do
    match ← c.next scope fuel with
    | none => return .done
    | some (_, c) => Cursor.skip scope fuel n c

/-- Feeds all rows that are left to aggregate calls; also says which row was the first. -/
def Cursor.feedTotal (scope : Scope H) :
    Nat → List Feeding → Option Row → Cursor → Run H (Option Row × Row)
  | 0, _, _, _ => exhausted
  | fuel + 1, feedings, first, c => do
    match ← attempt (c.next scope fuel) with
    | .error fault =>
      Feeding.abandon scope feedings
      throw fault
    | .ok none => return (first, ← Feeding.concludeAll scope feedings)
    | .ok (some (r, c)) =>
      let (feedings, fault) ← Feeding.feedAll scope r feedings
      match fault with
      | some fault =>
        Feeding.abandon scope feedings
        throw fault
      | none => Cursor.feedTotal scope fuel feedings (first <|> some r) c

end

/-- The supply of fuel of a step. -/
def fuel : Nat := 1000000000

end HostSql.Engine
