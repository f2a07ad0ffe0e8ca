import HostSql.Proofs.AssocLaws
import HostSql.Proofs.Coupling
import HostSql.Proofs.Nesting.Tableless
import HostSql.Session.Host
import Mathlib.Logic.Function.Basic

/-!
# Worlds that a nest of closures cannot tell apart

A nest is a set of functions of one connection whose closures call only each other, through queries
without tables, and declare types. It can run in the middle of a statement, in a group that has had
rows, after other nested queries; so the same nest is looked at in two worlds in which different
groups and statements are under way. Two things correspond all along:

* the connection, its functions and their declared types, which are the same (`Nest.Agree`);
* the groups and statements that the nest itself has begun, each of which is in one world what its
  counterpart is in the other, under a number of its own (`Ties`).

> `Alike`: two worlds agree, with what the nest has begun in them tied, and everything that was
> under way in the first world when the nest began is still as it was (`Untouched`).

The operations that closures and the engine do on records, groups and statements keep worlds alike;
what begins is tied, so the ties grow.
-/

namespace HostSql

open Engine (World HostFunction)

/-! ## Nests -/

/-- A nest of functions: the connection that they use, by name and number, the functions that are
registered there, and the records of those that the nest calls. -/
structure Nest where
  name : String
  connection : Nat
  functions : List HostFunction
  records : List Nat

/-- A closure of a nest. It uses its call, queries without tables that call only functions of the
nest, and the types of functions. -/
inductive Program.IsNested (n : Nest) : Program → Prop where
  | finish (outcome : Outcome) : IsNested n (.finish outcome)
  | setResult (v : Value) {next : Except Error Value → Program} (h : ∀ answer, IsNested n (next answer)) :
    IsNested n (.setResult v next)
  | setError (message : String) {next : Program} (h : IsNested n next) :
    IsNested n (.setError message next)
  | readState {next : Except Error GroupState → Program} (h : ∀ answer, IsNested n (next answer)) :
    IsNested n (.readState next)
  | insert (key : String) (v : Value) {next : Except Error Unit → Program}
    (h : ∀ answer, IsNested n (next answer)) : IsNested n (.insert key v next)
  | readCount {next : Except Error Nat → Program} (h : ∀ answer, IsNested n (next answer)) :
    IsNested n (.readCount next)
  | readType {next : ResultType → Program} (h : ∀ answer, IsNested n (next answer)) :
    IsNested n (.readType next)
  | emit (event : Event) {next : Program} (h : IsNested n next) : IsNested n (.emit event next)
  | query (sql : String) (hsql : Engine.isTableless n.functions n.records sql.toList = true)
    {next : QueryAnswer → Program} (h : ∀ answer, IsNested n (next answer)) :
    IsNested n (.query n.name sql next)
  | declare (function : String) (type : ResultType) {next : Except Error Unit → Program}
    (h : ∀ answer, IsNested n (next answer)) : IsNested n (.declare n.name function type next)

/-- Closures of a nest. -/
def Callbacks.IsNested (n : Nest) : Callbacks → Prop
  | .scalar body => ∀ texts, (body texts).IsNested n
  | .aggregate step final => (∀ texts, (step texts).IsNested n) ∧ final.IsNested n

/-- A busy closure that runs no commands. -/
inductive BusyProgram.IsQuiet : BusyProgram → Prop where
  | answer (retry : Bool) : IsQuiet (.answer retry)
  | panic : IsQuiet .panic
  | emit (event : Event) {next : BusyProgram} (h : IsQuiet next) : IsQuiet (.emit event next)

/-- A policy that runs no commands. -/
def BusyPolicy.IsQuiet : BusyPolicy → Prop
  | .handler _ callback => ∀ resource attempt, (callback resource attempt).IsQuiet
  | .timeout _ => True

/-- A record without its groups. -/
def FunctionRecord.atRest (r : FunctionRecord) : FunctionRecord := { r with groups := .empty }

/-- A world in which a nest can run: its connection is open and nothing is to interrupt it, its
functions are registered, and their closures are of the nest. -/
structure Nest.Ready (n : Nest) (w : SessionWorld) : Prop where
  opened : ∃ c, w.host.connections.get? n.name = some c ∧ c.native? = some n.connection
  undisturbed : ∃ conn, w.connections.get? n.connection = some conn ∧ conn.functions = n.functions ∧
    conn.interrupted = false
  quiet : ∀ policy, w.host.policies.get? n.connection = some policy → policy.IsQuiet
  nested : ∀ record ∈ n.records, ∀ r, w.host.records.get? record = some r → r.callbacks.IsNested n

/-- Two worlds in which a nest can run, with the same connection, the same functions and the same
declared types. Which groups and statements are under way does not matter. -/
structure Nest.Agree (n : Nest) (w v : SessionWorld) : Prop where
  left : n.Ready w
  right : n.Ready v
  connection : w.host.connections.get? n.name = v.host.connections.get? n.name
  counters : (w.connections.get? n.connection).map (·.counters) =
    (v.connections.get? n.connection).map (·.counters)
  records : ∀ record ∈ n.records, (w.host.records.get? record).map FunctionRecord.atRest =
    (v.host.records.get? record).map FunctionRecord.atRest

/-! ## Groups -/

/-- The groups of a function. -/
def tableIn (w : SessionWorld) (record : Nat) : GroupTable :=
  ((w.host.records.get? record).map (·.groups)).getD .empty

/-- Tables in which the groups that a nest has begun correspond, and the others of the first are as
they were at the start. -/
structure GroupsAlike (records : List Nat) (start : Nat → GroupTable) (tied : Nat → Nat → Nat → Prop)
    (t u : Nat → GroupTable) : Prop where
  unused : ∀ record ∈ records, (t record).groups.get? unusedSlot = none ∧
    (u record).groups.get? unusedSlot = none
  counterpart : ∀ record i j, tied record i j → record ∈ records ∧ (start record).lastId < i ∧
    i ≤ (t record).lastId ∧ 0 < j ∧ j ≤ (u record).lastId ∧
    (t record).groups.get? i = (u record).groups.get? j
  paired : ∀ record i j i' j', tied record i j → tied record i' j' → (i = i' ↔ j = j')
  still : ∀ record, (start record).lastId ≤ (t record).lastId ∧
    ∀ i ≤ (start record).lastId, (t record).groups.get? i = (start record).groups.get? i

namespace GroupsAlike

variable {records : List Nat} {start t u : Nat → GroupTable} {tied : Nat → Nat → Nat → Prop}
  (h : GroupsAlike records start tied t u) {record i j : Nat}

include h

/-- Fewer ties. -/
theorem weaken {tied' : Nat → Nat → Nat → Prop} (hle : ∀ record i j, tied' record i j → tied record i j) :
    GroupsAlike records start tied' t u :=
  ⟨h.unused, fun record i j htie => h.counterpart record i j (hle record i j htie),
    fun record i j i' j' htie htie' =>
      h.paired record i j i' j' (hle record i j htie) (hle record i' j' htie'), h.still⟩

/-- New tables for a function. -/
theorem change {t' u' : GroupTable} (hlast : (t record).lastId ≤ t'.lastId)
    (hlast' : (u record).lastId ≤ u'.lastId)
    (hunused : record ∈ records → t'.groups.get? unusedSlot = none ∧ u'.groups.get? unusedSlot = none)
    (htied : ∀ i j, tied record i j → t'.groups.get? i = u'.groups.get? j)
    (hstill : ∀ i ≤ (start record).lastId, t'.groups.get? i = (t record).groups.get? i) :
    GroupsAlike records start tied (Function.update t record t') (Function.update u record u') := by
  refine ⟨fun r hr => ?_, fun r i j htie => ?_, h.paired, fun r => ?_⟩
  · by_cases heq : r = record
    · subst heq
      simp only [Function.update_self]
      exact hunused hr
    · simp only [Function.update_of_ne heq]
      exact h.unused r hr
  · obtain ⟨hmem, hstart, hi, hpos, hj, hget⟩ := h.counterpart r i j htie
    by_cases heq : r = record
    · subst heq
      simp only [Function.update_self]
      exact ⟨hmem, hstart, Nat.le_trans hi hlast, hpos, Nat.le_trans hj hlast', htied i j htie⟩
    · simp only [Function.update_of_ne heq]
      exact ⟨hmem, hstart, hi, hpos, hj, hget⟩
  · obtain ⟨hle, hget⟩ := h.still r
    by_cases heq : r = record
    · subst heq
      simp only [Function.update_self]
      exact ⟨Nat.le_trans hle hlast, fun i hi => (hstill i hi).trans (hget i hi)⟩
    · simp only [Function.update_of_ne heq]
      exact ⟨hle, hget⟩

/-- A group begins on both sides, and is tied. -/
theorem allocate (hmem : record ∈ records) :
    GroupsAlike records start
      (fun r i j => tied r i j ∨
        (r = record ∧ i = (t record).allocate.1 ∧ j = (u record).allocate.1))
      (Function.update t record (t record).allocate.2)
      (Function.update u record (u record).allocate.2) := by
  have hfresh (g : GroupTable) {i : Nat} (hi : i ≤ g.lastId) :
      g.allocate.2.groups.get? i = g.groups.get? i :=
    Assoc.get?_set_ne _ (by omega) _
  have hself (g : GroupTable) : g.allocate.2.groups.get? g.allocate.1 = some .empty :=
    Assoc.get?_set_self _ _ _
  have hgrows (g : GroupTable) : g.lastId ≤ g.allocate.2.lastId := Nat.le_succ _
  obtain ⟨hunused, hunused'⟩ := h.unused record hmem
  have hkept := @change _ _ _ _ _ h record (t record).allocate.2 (u record).allocate.2
    (hgrows _) (hgrows _)
    (fun _ => ⟨(hfresh _ (Nat.zero_le _)).trans hunused, (hfresh _ (Nat.zero_le _)).trans hunused'⟩)
    (fun i j htie => by
      obtain ⟨_, _, hi, _, hj, hget⟩ := h.counterpart record i j htie
      rw [hfresh _ hi, hfresh _ hj]
      exact hget)
    (fun i hi => hfresh _ (Nat.le_trans hi (h.still record).1))
  refine ⟨hkept.unused, fun r i j htie => ?_, fun r i j i' j' htie htie' => ?_, hkept.still⟩
  · rcases htie with htie | ⟨rfl, rfl, rfl⟩
    · exact hkept.counterpart r i j htie
    · simp only [Function.update_self]
      refine ⟨hmem, ?_, Nat.le_refl _, Nat.succ_pos _, Nat.le_refl _, ?_⟩
      · exact Nat.lt_succ_of_le (h.still r).1
      · rw [hself, hself]
  · -- the new numbers are above all that are tied
    have hbelow {a b : Nat} (htie : tied record a b) :
        a ≠ (t record).allocate.1 ∧ b ≠ (u record).allocate.1 := by
      obtain ⟨_, _, ha, _, hb, _⟩ := h.counterpart record a b htie
      exact ⟨Nat.ne_of_lt (Nat.lt_succ_of_le ha), Nat.ne_of_lt (Nat.lt_succ_of_le hb)⟩
    rcases htie with htie | ⟨rfl, rfl, rfl⟩
    · rcases htie' with htie' | ⟨rfl, rfl, rfl⟩
      · exact h.paired r i j i' j' htie htie'
      · exact ⟨fun heq => absurd heq (hbelow htie).1, fun heq => absurd heq (hbelow htie).2⟩
    · rcases htie' with htie' | ⟨_, rfl, rfl⟩
      · exact ⟨fun heq => absurd heq.symm (hbelow htie').1, fun heq => absurd heq.symm (hbelow htie').2⟩
      · exact ⟨fun _ => rfl, fun _ => rfl⟩

/-- What is stored for tied groups is stored on both sides. -/
theorem store (htie : tied record i j) {t' u' : Assoc Nat Group}
    (hself : t'.get? i = u'.get? j)
    (hother : ∀ a, a ≠ i → t'.get? a = (t record).groups.get? a)
    (hother' : ∀ b, b ≠ j → u'.get? b = (u record).groups.get? b) :
    GroupsAlike records start tied (Function.update t record { t record with groups := t' })
      (Function.update u record { u record with groups := u' }) := by
  obtain ⟨hmem, hstart, _, hpos, _, _⟩ := h.counterpart record i j htie
  obtain ⟨hunused, hunused'⟩ := h.unused record hmem
  refine h.change (Nat.le_refl _) (Nat.le_refl _) (fun _ => ⟨?_, ?_⟩) (fun a b htie' => ?_)
    fun a ha => hother a (by omega)
  · exact (hother _ (by unfold unusedSlot; omega)).trans hunused
  · exact (hother' _ (by unfold unusedSlot; omega)).trans hunused'
  · by_cases heq : a = i
    · have heq' : b = j := (h.paired record a b i j htie' htie).mp heq
      subst heq heq'
      exact hself
    · have hne : b ≠ j := fun heq' => heq ((h.paired record a b i j htie' htie).mpr heq')
      dsimp only
      rw [hother a heq, hother' b hne]
      exact (h.counterpart record a b htie').2.2.2.2.2

/-- Tied groups are taken out. -/
theorem take (htie : tied record i j) :
    ((t record).take i).1 = ((u record).take j).1 ∧
      GroupsAlike records start tied (Function.update t record ((t record).take i).2)
        (Function.update u record ((u record).take j).2) := by
  refine ⟨congrArg (·.getD .empty) (h.counterpart record i j htie).2.2.2.2.2, h.store htie ?_ ?_ ?_⟩
  · rw [Assoc.get?_erase_self, Assoc.get?_erase_self]
  · exact fun a ha => Assoc.get?_erase_ne _ ha.symm
  · exact fun b hb => Assoc.get?_erase_ne _ hb.symm

/-- Tied groups are put back. -/
theorem putBack (htie : tied record i j) (group : Group) :
    GroupsAlike records start tied (Function.update t record ((t record).putBack i group))
      (Function.update u record ((u record).putBack j group)) := by
  refine h.store htie ?_ ?_ ?_
  · rw [Assoc.get?_set_self, Assoc.get?_set_self]
  · exact fun a ha => Assoc.get?_set_ne _ ha.symm _
  · exact fun b hb => Assoc.get?_set_ne _ hb.symm _

/-- The place of a group without rows is empty and stays so. -/
theorem takeUnused (hmem : record ∈ records) :
    ((t record).take unusedSlot).1 = ((u record).take unusedSlot).1 ∧
      GroupsAlike records start tied (Function.update t record ((t record).take unusedSlot).2)
        (Function.update u record ((u record).take unusedSlot).2) := by
  obtain ⟨hunused, hunused'⟩ := h.unused record hmem
  have hsame (g : GroupTable) (hg : g.groups.get? unusedSlot = none) (a : Nat) :
      (g.take unusedSlot).2.groups.get? a = g.groups.get? a := by
    by_cases heq : a = unusedSlot
    · subst heq
      exact (Assoc.get?_erase_self _ _).trans hg.symm
    · exact Assoc.get?_erase_ne _ (Ne.symm heq)
  refine ⟨?_, h.change (Nat.le_refl _) (Nat.le_refl _) (fun _ => ⟨?_, ?_⟩) (fun a b htie => ?_)
    fun a _ => hsame _ hunused a⟩
  · exact congrArg (·.getD .empty) (hunused.trans hunused'.symm)
  · exact (hsame _ hunused _).trans hunused
  · exact (hsame _ hunused' _).trans hunused'
  · rw [hsame _ hunused, hsame _ hunused']
    exact (h.counterpart record a b htie).2.2.2.2.2

end GroupsAlike

/-! ## Statements -/

/-- A statement of a nest: a query without tables that calls only functions of the nest. -/
structure Nest.Runs (n : Nest) (s : Engine.Statement) : Prop where
  connection : s.connection = n.connection
  access : s.program.access = .none
  current : s.expired = false
  query : ∃ plan, s.program.action = .query plan ∧ plan.staysIn n.records = true
  cursor : s.cursor.staysIn n.records = true

/-- Statements that a nest has begun correspond, and the others of the first world are as they were
at the start. -/
structure StatementsAlike (n : Nest) (start : SessionWorld) (tied : Nat → Nat → Prop)
    (w v : SessionWorld) : Prop where
  counterpart : ∀ a b, tied a b → start.nextId ≤ a ∧ a < w.nextId ∧ b < v.nextId ∧
    ∃ s, w.statements.get? a = some s ∧ v.statements.get? b = some s ∧ n.Runs s
  paired : ∀ a b a' b', tied a b → tied a' b' → (a = a' ↔ b = b')
  still : start.nextId ≤ w.nextId ∧ ∀ a < start.nextId, w.statements.get? a = start.statements.get? a

/-- New entries for statements, where nothing else has changed. -/
theorem StatementsAlike.change {n : Nest} {start w v w' v' : SessionWorld} {tied : Nat → Nat → Prop}
    {a b : Nat} (h : StatementsAlike n start tied w v) (hnext : w.nextId ≤ w'.nextId)
    (hnext' : v.nextId ≤ v'.nextId) (hstart : start.nextId ≤ a)
    (hother : ∀ c, c ≠ a → w'.statements.get? c = w.statements.get? c)
    (hother' : ∀ c, c ≠ b → v'.statements.get? c = v.statements.get? c)
    (hfree : ∀ c d, tied c d → (c = a ↔ d = b))
    (hself : ∀ c d, tied c d → c = a → ∃ s, w'.statements.get? a = some s ∧
      v'.statements.get? b = some s ∧ n.Runs s) :
    StatementsAlike n start tied w' v' := by
  refine ⟨fun c d htie => ?_, h.paired, Nat.le_trans h.still.1 hnext, fun c hc => ?_⟩
  · obtain ⟨hc, hnow, hnow', s, hs, hs', hruns⟩ := h.counterpart c d htie
    refine ⟨hc, Nat.lt_of_lt_of_le hnow hnext, Nat.lt_of_lt_of_le hnow' hnext', ?_⟩
    by_cases heq : c = a
    · rw [heq, (hfree c d htie).mp heq]
      exact hself c d htie heq
    · have hne : d ≠ b := fun heq' => heq ((hfree c d htie).mpr heq')
      exact ⟨s, (hother c heq).trans hs, (hother' d hne).trans hs', hruns⟩
  · exact (hother c (by omega)).trans (h.still.2 c hc)

/-! ## Worlds -/

/-- Which groups and which statements of two worlds correspond. -/
structure Ties where
  groups : Nat → Nat → Nat → Prop
  statements : Nat → Nat → Prop

namespace Ties

/-- Nothing corresponds yet. -/
def empty : Ties := ⟨fun _ _ _ => False, fun _ _ => False⟩

def withGroup (ties : Ties) (record i j : Nat) : Ties :=
  { ties with groups := fun r a b => ties.groups r a b ∨ (r = record ∧ a = i ∧ b = j) }

def withStatement (ties : Ties) (a b : Nat) : Ties :=
  { ties with statements := fun c d => ties.statements c d ∨ (c = a ∧ d = b) }

/-- More corresponds. -/
structure Grow (ties ties' : Ties) : Prop where
  groups : ∀ record i j, ties.groups record i j → ties'.groups record i j
  statements : ∀ a b, ties.statements a b → ties'.statements a b

theorem Grow.refl (ties : Ties) : ties.Grow ties := ⟨fun _ _ _ h => h, fun _ _ h => h⟩

theorem Grow.trans {ties ties' ties'' : Ties} (h : ties.Grow ties') (h' : ties'.Grow ties'') :
    ties.Grow ties'' :=
  ⟨fun record i j hi => h'.groups record i j (h.groups record i j hi),
    fun a b ha => h'.statements a b (h.statements a b ha)⟩

theorem grow_withGroup (ties : Ties) (record i j : Nat) : ties.Grow (ties.withGroup record i j) :=
  ⟨fun _ _ _ h => .inl h, fun _ _ h => h⟩

theorem grow_withStatement (ties : Ties) (a b : Nat) : ties.Grow (ties.withStatement a b) :=
  ⟨fun _ _ _ h => h, fun _ _ h => .inl h⟩

end Ties

/-- What was under way at the start is as it was then, and new numbers are above those given out
before. -/
structure Untouched (start w : SessionWorld) : Prop where
  groups : ∀ record, (tableIn start record).lastId ≤ (tableIn w record).lastId ∧
    ∀ i ≤ (tableIn start record).lastId,
      (tableIn w record).groups.get? i = (tableIn start record).groups.get? i
  statements : start.nextId ≤ w.nextId ∧
    ∀ a < start.nextId, w.statements.get? a = start.statements.get? a

/-- Two worlds that a nest cannot tell apart, while it runs in them. -/
structure Alike (n : Nest) (start : SessionWorld) (ties : Ties) (w v : SessionWorld) : Prop where
  agree : n.Agree w v
  groups : GroupsAlike n.records (tableIn start) ties.groups (tableIn w) (tableIn v)
  statements : StatementsAlike n start ties.statements w v

/-- What a nest sees of a connection. -/
def Engine.Connection.seen (c : Engine.Connection) : List HostFunction × Engine.Counters × Bool :=
  (c.functions, c.counters, c.interrupted)

/-- Two worlds of which a nest sees the same. -/
structure Nest.Unseen (n : Nest) (w w' : SessionWorld) : Prop where
  statements : w'.statements = w.statements
  nextId : w'.nextId = w.nextId
  records : w'.host.records = w.host.records
  connections : w'.host.connections = w.host.connections
  connection : (w'.connections.get? n.connection).map Engine.Connection.seen =
    (w.connections.get? n.connection).map Engine.Connection.seen
  quiet : (∀ policy, w.host.policies.get? n.connection = some policy → policy.IsQuiet) →
    ∀ policy, w'.host.policies.get? n.connection = some policy → policy.IsQuiet

theorem Nest.Unseen.refl (n : Nest) (w : SessionWorld) : n.Unseen w w :=
  ⟨rfl, rfl, rfl, rfl, rfl, fun h => h⟩

theorem Nest.Unseen.trans {n : Nest} {w w' w'' : SessionWorld} (h : n.Unseen w w')
    (h' : n.Unseen w' w'') : n.Unseen w w'' :=
  ⟨h'.statements.trans h.statements, h'.nextId.trans h.nextId, h'.records.trans h.records,
    h'.connections.trans h.connections, h'.connection.trans h.connection,
    fun hquiet => h'.quiet (h.quiet hquiet)⟩

theorem Nest.Ready.unseen {n : Nest} {w w' : SessionWorld} (h : n.Ready w) (hunseen : n.Unseen w w') :
    n.Ready w' := by
  refine ⟨?_, ?_, hunseen.quiet h.quiet, ?_⟩
  · rw [hunseen.connections]
    exact h.opened
  · obtain ⟨conn, hconn, hfunctions, hcalm⟩ := h.undisturbed
    have hseen := hunseen.connection
    rw [hconn] at hseen
    obtain ⟨conn', hconn', hsame⟩ := Option.map_eq_some_iff.mp hseen
    cases hsame' : conn'.seen with
    | mk functions rest =>
      refine ⟨conn', hconn', ?_, ?_⟩
      · exact (congrArg (·.1) hsame).trans hfunctions
      · exact (congrArg (·.2.2) hsame).trans hcalm
  · rw [hunseen.records]
    exact h.nested

theorem Nest.Unseen.counters {n : Nest} {w w' : SessionWorld} (h : n.Unseen w w') :
    (w'.connections.get? n.connection).map (·.counters) =
      (w.connections.get? n.connection).map (·.counters) := by
  have hseen := congrArg (Option.map (·.2.1)) h.connection
  simp only [Option.map_map] at hseen
  exact hseen

theorem Nest.Agree.unseen {n : Nest} {w w' v v' : SessionWorld} (h : n.Agree w v)
    (hw : n.Unseen w w') (hv : n.Unseen v v') : n.Agree w' v' :=
  ⟨h.left.unseen hw, h.right.unseen hv, by rw [hw.connections, hv.connections]; exact h.connection,
    hw.counters.trans (h.counters.trans hv.counters.symm),
    by rw [hw.records, hv.records]; exact h.records⟩

theorem Nest.Unseen.tableIn {n : Nest} {w w' : SessionWorld} (h : n.Unseen w w') :
    tableIn w' = tableIn w := by
  funext record
  unfold HostSql.tableIn
  rw [h.records]

section Worlds

variable {n : Nest} {start w v w' v' : SessionWorld} {ties : Ties}

/-- Worlds are alike at the start of a nest. -/
theorem Alike.ofAgree (h : n.Agree w v)
    (hunused : ∀ record ∈ n.records, (tableIn w record).groups.get? unusedSlot = none ∧
      (tableIn v record).groups.get? unusedSlot = none) : Alike n w .empty w v :=
  ⟨h, ⟨hunused, nofun, nofun, fun _ => ⟨Nat.le_refl _, fun _ _ => rfl⟩⟩,
    nofun, nofun, Nat.le_refl _, fun _ _ => rfl⟩

variable (h : Alike n start ties w v)

include h

theorem Alike.untouched : Untouched start w := ⟨h.groups.still, h.statements.still⟩

/-- Fewer ties. -/
theorem Alike.weaken {ties' : Ties} (hgrow : ties'.Grow ties) : Alike n start ties' w v :=
  ⟨h.agree, h.groups.weaken hgrow.groups,
    fun a b htie => h.statements.counterpart a b (hgrow.statements a b htie),
    fun a b a' b' htie htie' => h.statements.paired a b a' b' (hgrow.statements a b htie)
      (hgrow.statements a' b' htie'), h.statements.still⟩

/-- What a nest does not see can change on either side. -/
theorem Alike.unseen (hw : n.Unseen w w') (hv : n.Unseen v v') : Alike n start ties w' v' := by
  refine ⟨h.agree.unseen hw hv, ?_, ?_⟩
  · rw [hw.tableIn, hv.tableIn]
    exact h.groups
  · obtain ⟨hcounterpart, hpaired, hstill⟩ := h.statements
    constructor
    · rw [hw.statements, hw.nextId, hv.statements, hv.nextId]
      exact hcounterpart
    · exact hpaired
    · rw [hw.statements, hw.nextId]
      exact hstill

end Worlds

/-! ## What closures and the engine change -/

/-- A world with another record of a function. -/
def withRecord (w : SessionWorld) (record : Nat) (f : FunctionRecord → FunctionRecord) : SessionWorld :=
  { w with host := { w.host with records := Assoc.update w.host.records record f } }

theorem modifyRecord_run (w : SessionWorld) (record : Nat) (f : FunctionRecord → FunctionRecord) :
    (SessionWorld.modifyRecord record f).run w = ((), withRecord w record f) := rfl

theorem record?_withRecord (w : SessionWorld) (record r : Nat) (f : FunctionRecord → FunctionRecord) :
    (withRecord w record f).host.records.get? r =
      (w.host.records.get? r).map fun s => if r = record then f s else s := by
  by_cases heq : r = record
  · subst heq
    simp only [if_true]
    exact Assoc.get?_update_self _ _ _
  · simp only [heq, if_false, Option.map_id']
    exact Assoc.get?_update_ne _ (Ne.symm heq) _

/-- A record is changed on both sides in the same way, but for its groups. -/
theorem Nest.Agree.withRecord {n : Nest} {w v : SessionWorld} (h : n.Agree w v) (record : Nat)
    {f g : FunctionRecord → FunctionRecord} (hf : ∀ r, (f r).callbacks = r.callbacks)
    (hg : ∀ r, (g r).callbacks = r.callbacks)
    (hsame : ∀ r s, r.atRest = s.atRest → (f r).atRest = (g s).atRest) :
    n.Agree (withRecord w record f) (withRecord v record g) := by
  have hready {w : SessionWorld} (h : n.Ready w) {f : FunctionRecord → FunctionRecord}
      (hf : ∀ r, (f r).callbacks = r.callbacks) : n.Ready (HostSql.withRecord w record f) := by
    refine ⟨h.opened, h.undisturbed, h.quiet, fun r hr s hs => ?_⟩
    rw [record?_withRecord] at hs
    obtain ⟨s', hs', rfl⟩ := Option.map_eq_some_iff.mp hs
    have hnested := h.nested r hr s' hs'
    split
    · rw [hf]
      exact hnested
    · exact hnested
  refine ⟨hready h.left hf, hready h.right hg, h.connection, h.counters, fun r hr => ?_⟩
  have hrecord := h.records r hr
  rw [record?_withRecord, record?_withRecord]
  cases hw : w.host.records.get? r with
  | none =>
    rw [hw] at hrecord
    cases hv : v.host.records.get? r with
    | none => rfl
    | some s =>
      rw [hv] at hrecord
      cases hrecord
  | some s =>
    rw [hw] at hrecord
    cases hv : v.host.records.get? r with
    | none =>
      rw [hv] at hrecord
      cases hrecord
    | some s' =>
      rw [hv] at hrecord
      have heq : s.atRest = s'.atRest := Option.some.inj hrecord
      simp only [Option.map_some]
      split
      · exact congrArg some (hsame s s' heq)
      · exact congrArg some heq

/-- A record with other groups. -/
def FunctionRecord.withGroups (groups : GroupTable) (r : FunctionRecord) : FunctionRecord :=
  { r with groups }

theorem tableIn_withRecord {w : SessionWorld} {record : Nat} {f : FunctionRecord → FunctionRecord}
    (hf : ∀ r, (f r).groups = r.groups) : tableIn (withRecord w record f) = tableIn w := by
  funext r
  unfold tableIn
  rw [record?_withRecord, Option.map_map]
  congr 1
  refine Option.map_congr fun s _ => ?_
  simp only [Function.comp_apply]
  split
  · exact hf s
  · rfl

theorem tableIn_withGroups {w : SessionWorld} {record : Nat} {r : FunctionRecord}
    (h : w.host.records.get? record = some r) (t : GroupTable) :
    tableIn (withRecord w record (.withGroups t)) = Function.update (tableIn w) record t := by
  funext r'
  unfold tableIn
  rw [record?_withRecord]
  by_cases heq : r' = record
  · subst heq
    rw [Function.update_self, h]
    simp only [Option.map_some, if_true]
    rfl
  · rw [Function.update_of_ne heq]
    simp only [heq, if_false, Option.map_id']

section Changes

variable {n : Nest} {start w v : SessionWorld} {ties : Ties} (h : Alike n start ties w v)

include h

/-- Changes of a record that do not concern its groups. -/
theorem Alike.withRecord (record : Nat) {f : FunctionRecord → FunctionRecord}
    (hcallbacks : ∀ r, (f r).callbacks = r.callbacks) (hgroups : ∀ r, (f r).groups = r.groups)
    (hsame : ∀ r s, r.atRest = s.atRest → (f r).atRest = (f s).atRest) :
    Alike n start ties (withRecord w record f) (withRecord v record f) := by
  refine ⟨h.agree.withRecord record hcallbacks hcallbacks hsame, ?_, ?_⟩
  · rw [tableIn_withRecord hgroups, tableIn_withRecord hgroups]
    exact h.groups
  · exact ⟨h.statements.counterpart, h.statements.paired, h.statements.still⟩

/-- New groups of a function. -/
theorem Alike.withGroups {record : Nat} {r s : FunctionRecord} {t u : GroupTable}
    {tied : Nat → Nat → Nat → Prop} (hr : w.host.records.get? record = some r)
    (hs : v.host.records.get? record = some s)
    (hgroups : GroupsAlike n.records (tableIn start) tied (Function.update (tableIn w) record t)
      (Function.update (tableIn v) record u)) :
    Alike n start ⟨tied, ties.statements⟩ (HostSql.withRecord w record (.withGroups t))
      (HostSql.withRecord v record (.withGroups u)) := by
  refine ⟨h.agree.withRecord record (fun _ => rfl) (fun _ => rfl) (fun _ _ heq => heq), ?_, ?_⟩
  · rw [tableIn_withGroups hr, tableIn_withGroups hs]
    exact hgroups
  · exact ⟨h.statements.counterpart, h.statements.paired, h.statements.still⟩

/-- Changes of statements. -/
theorem Alike.withStatements {ss ss' : Assoc Nat Engine.Statement} {next next' : Nat}
    {tied : Nat → Nat → Prop}
    (hstatements : StatementsAlike n start tied { w with statements := ss, nextId := next }
      { v with statements := ss', nextId := next' }) :
    Alike n start ⟨ties.groups, tied⟩ { w with statements := ss, nextId := next }
      { v with statements := ss', nextId := next' } :=
  ⟨⟨⟨h.agree.left.opened, h.agree.left.undisturbed, h.agree.left.quiet, h.agree.left.nested⟩,
      ⟨h.agree.right.opened, h.agree.right.undisturbed, h.agree.right.quiet, h.agree.right.nested⟩,
      h.agree.connection, h.agree.counters, h.agree.records⟩, h.groups, hstatements⟩

/-- Statements that correspond change in the same way. -/
theorem Alike.modifyStatement {a b : Nat} (htie : ties.statements a b)
    {f : Engine.Statement → Engine.Statement} (hf : ∀ s, n.Runs s → n.Runs (f s)) :
    Alike n start ties ((World.modifyStatement a f).run w).2 ((World.modifyStatement b f).run v).2 := by
  obtain ⟨hstart, _, _, s, hs, hs', hruns⟩ := h.statements.counterpart a b htie
  refine h.withStatements (h.statements.change (Nat.le_refl _) (Nat.le_refl _) hstart
    (fun c hc => Assoc.get?_update_ne _ (Ne.symm hc) _)
    (fun c hc => Assoc.get?_update_ne _ (Ne.symm hc) _)
    (fun c d htie' => h.statements.paired c d a b htie' htie) fun c d _ _ => ⟨f s, ?_, ?_, hf s hruns⟩)
  · exact (Assoc.get?_update_self _ _ _).trans (congrArg (Option.map f) hs)
  · exact (Assoc.get?_update_self _ _ _).trans (congrArg (Option.map f) hs')

/-- A statement is added on both sides, under the next numbers, and is tied. -/
theorem Alike.addStatement {s : Engine.Statement} (hs : n.Runs s) :
    Alike n start (ties.withStatement w.nextId v.nextId)
      { w with statements := Assoc.set w.statements w.nextId s, nextId := w.nextId + 1 }
      { v with statements := Assoc.set v.statements v.nextId s, nextId := v.nextId + 1 } := by
  have hbelow {a b : Nat} (htie : ties.statements a b) : a ≠ w.nextId ∧ b ≠ v.nextId := by
    obtain ⟨_, ha, hb, _⟩ := h.statements.counterpart a b htie
    exact ⟨Nat.ne_of_lt ha, Nat.ne_of_lt hb⟩
  have hkept : StatementsAlike n start ties.statements
      { w with statements := Assoc.set w.statements w.nextId s, nextId := w.nextId + 1 }
      { v with statements := Assoc.set v.statements v.nextId s, nextId := v.nextId + 1 } :=
    h.statements.change (Nat.le_succ _) (Nat.le_succ _) h.statements.still.1
      (fun c hc => Assoc.get?_set_ne _ (Ne.symm hc) _) (fun c hc => Assoc.get?_set_ne _ (Ne.symm hc) _)
      (fun c d htie => ⟨fun heq => absurd heq (hbelow htie).1, fun heq => absurd heq (hbelow htie).2⟩)
      fun c d htie heq => absurd heq (hbelow htie).1
  refine h.withStatements ⟨fun a b htie => ?_, fun a b a' b' htie htie' => ?_, hkept.still⟩
  · rcases htie with htie | ⟨rfl, rfl⟩
    · exact hkept.counterpart a b htie
    · exact ⟨h.statements.still.1, Nat.lt_succ_self _, Nat.lt_succ_self _, s,
        Assoc.get?_set_self _ _ _, Assoc.get?_set_self _ _ _, hs⟩
  · rcases htie with htie | ⟨rfl, rfl⟩
    · rcases htie' with htie' | ⟨rfl, rfl⟩
      · exact h.statements.paired a b a' b' htie htie'
      · exact ⟨fun heq => absurd heq (hbelow htie).1, fun heq => absurd heq (hbelow htie).2⟩
    · rcases htie' with htie' | ⟨rfl, rfl⟩
      · exact ⟨fun heq => absurd heq.symm (hbelow htie').1, fun heq => absurd heq.symm (hbelow htie').2⟩
      · exact ⟨fun _ => rfl, fun _ => rfl⟩

/-- Statements are released on both sides that nothing else corresponds to. -/
theorem Alike.eraseStatement {a b : Nat} (hstart : start.nextId ≤ a)
    (hfree : ∀ c d, ties.statements c d → c ≠ a ∧ d ≠ b) :
    Alike n start ties { w with statements := Assoc.erase w.statements a }
      { v with statements := Assoc.erase v.statements b } :=
  h.withStatements (h.statements.change (Nat.le_refl _) (Nat.le_refl _) hstart
    (fun _ hc => Assoc.get?_erase_ne _ (Ne.symm hc)) (fun _ hc => Assoc.get?_erase_ne _ (Ne.symm hc))
    (fun c d htie => ⟨fun heq => absurd heq (hfree c d htie).1, fun heq => absurd heq (hfree c d htie).2⟩)
    fun c d htie heq => absurd heq (hfree c d htie).1)

end Changes

end HostSql
