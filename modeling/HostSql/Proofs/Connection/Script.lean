import HostSql.Proofs.Engine.Ledger
import HostSql.Proofs.Sql.Cutting
import HostSql.Proofs.Utf8
import HostSql.Session.Step

/-!
# Scripts are divided without loss

A script is compiled piece by piece: its first command, then the remainder that compiling it gave,
and so on. The engine says in bytes how much of a text it used, and the remainder is what stands
after these bytes.

> `script_divided`: every text that is accepted is a consumed part, not empty and ended by its
> semicolon or by the text, followed by the remainder, byte for byte; and a script that keeps being
> accepted is compiled to its end in pieces that make up the script.

The engine stops where the grammar cuts the text (`prepare_compiled`), which is never inside a
character (`textAfter_stop`). A piece that is not empty makes the remainder shorter, so there are
no more pieces than characters.
-/

namespace HostSql

open Engine (Hooks)

/-! ## What the engine has compiled -/

namespace Engine

variable {H α β : Type}

/-- A computation that may fail, before one that has a property whatever it is given. -/
theorem Returns.run_bind {P : Except Fault β → Prop} {x : Run H α} {f : α → Run H β}
    (hfail : ∀ fault, P (.error fault)) (h : ∀ a, Returns P (f a).run) :
    Returns P (x >>= f).run := by
  show Returns P (x.run >>= ExceptT.bindCont f)
  refine .bind fun result => ?_
  cases result with
  | ok a => exact h a
  | error fault => exact fun _ => hfail fault

/-- A check before a computation. -/
theorem Returns.run_guard {P : Except Fault α → Prop} {c : Prop} [Decidable c] {fault : Fault}
    {x : Run H α} (hfault : P (.error fault)) (h : Returns P x.run) :
    Returns P (do
      if c then throw fault
      x : Run H α).run := by
  split
  · exact fun _ => hfault
  · exact h

/-- What compiling a text has found: where its first command ends, and something compiled exactly
if there is a command. -/
def Compiled {ι : Type} (text : List Char) : Except Fault (Option ι × Nat) → Prop
  | .error _ => True
  | .ok (compiled?, stop) => ∃ found, Sql.nextCommand text = .ok found ∧ found.stop = stop ∧
      (compiled? = none ↔ found.command? = none)

theorem compileText_compiled (scope : Scope H) (text : List Char) :
    Returns (Compiled text) (compileText scope text).run := by
  have hfail : ∀ fault : Fault, Compiled (ι := Program) text (.error fault) := fun _ => trivial
  unfold compileText
  refine .run_bind hfail fun _ => .run_bind hfail fun conn => ?_
  refine .run_guard (hfail _) ?_
  cases hnext : Sql.nextCommand text with
  | error e => exact .pure (hfail _)
  | ok found =>
    dsimp only
    cases hcommand : found.command? with
    | none => exact .pure ⟨found, hnext, rfl, by simp [hcommand]⟩
    | some command =>
      refine .run_bind hfail fun program => .run_bind hfail fun _ => ?_
      exact .pure ⟨found, hnext, rfl, by simp [hcommand]⟩

/-- A statement has been compiled exactly if the text holds a command, and the text is used up to
where that ends. -/
theorem prepare_compiled (hooks : Hooks H) (connection : Nat) (text : List Char) :
    Returns (Compiled text) (prepare hooks connection text) := by
  unfold prepare
  refine .bind_of (compileText_compiled ⟨connection, 0, hooks⟩ text) fun result hresult => ?_
  refine .bind fun _ => ?_
  rcases result with fault | ⟨program?, stop⟩
  · exact .pure trivial
  · obtain ⟨found, hnext, hstop, hcommand⟩ := hresult
    cases program? with
    | none => exact .pure ⟨found, hnext, hstop, by simpa using hcommand⟩
    | some program =>
      refine .bind fun n => .bind fun _ => .pure ?_
      exact ⟨found, hnext, hstop, by simpa using hcommand⟩

end Engine

/-! ## A text and its remainder -/

/-- An engine's stop is the beginning of a character, so the remainder is the rest of the text. -/
theorem textAfter_stop (sql : String) (stop : Nat) :
    Connection.textAfter sql (Utf8.size (sql.toList.take stop)) =
      String.ofList (sql.toList.drop stop) := by
  rw [Connection.textAfter, Utf8.dropBytes?_size_take]
  rfl

section Compiling

variable {H : Type} (services : HostServices H) (hooks : Hooks H) {c : Connection} {k : Nat}
  {sql : String}

/-- Refuses a text, which is logged. -/
def refuseText (e : Error) :
    StateM (Engine.World H) (Except Error (Statement × String)) := do
  services.log (.of .debug "compile failed" [("error", e.display)])
  return .error e

/-- What the engine has made of a text: the statement, and what stands after it. -/
def acceptText (sql : String) :
    Except Engine.Fault (Option Nat × Nat) →
      StateM (Engine.World H) (Except Error (Statement × String))
  | .error fault => refuseText services fault.toNative.toError
  | .ok (statement, stop) => return .ok (.new statement, String.ofList (sql.toList.drop stop))

/-- A text with a NUL is refused before the engine sees it. -/
theorem compile_nul (hopen : c.native? = some k) {reason : String}
    (hnul : nulError? sql = some reason) :
    c.compile (nativeOn services hooks) sql =
      refuseText services (Connection.nulIn "SQL" reason) := by
  unfold Connection.compile Connection.withNative Connection.prepare
  rw [hopen, hnul]
  rfl

/-- Any other text is compiled by the engine. -/
theorem compile_eq (hopen : c.native? = some k) (hnul : nulError? sql = none) :
    c.compile (nativeOn services hooks) sql =
      Engine.prepare hooks k sql.toList >>= acceptText services sql := by
  unfold Connection.compile Connection.withNative Connection.prepare
  rw [hopen, hnul]
  refine funext fun w => ?_
  simp only [nativeOn]
  show StateT.run _ w = StateT.run _ w
  rw [run_bind, run_bind, run_bind, run_bind]
  rcases (Engine.prepare hooks k sql.toList).run w with ⟨fault | ⟨statement, stop⟩, w'⟩
  · rfl
  · show (Except.ok (Statement.new statement, Connection.textAfter sql _), w') = _
    rw [textAfter_stop]
    rfl

end Compiling

/-- A text that was accepted, as the part that was consumed and the remainder. -/
structure Divides (sql : String) (s : Statement) (consumed remainder : String) : Prop where
  whole : consumed ++ remainder = sql
  bytes : Utf8.encode consumed ++ Utf8.encode remainder = Utf8.encode sql
  progress : sql ≠ "" → consumed ≠ ""
  ending : consumed = sql ∨ ∃ front, consumed = front ++ ";"
  /-- A text without a statement is used up. -/
  blank : s.vm = .empty → remainder = ""

/-- A text that was accepted has been cut where the grammar cuts it. -/
theorem compile_cuts {hooks : Hooks Host} {c : Connection} {sql : String} {w : SessionWorld}
    {s : Statement} {remainder : String}
    (h : ((c.compile (native hooks) sql).run w).1 = .ok (s, remainder)) :
    ∃ found : Sql.NextCommand, found.Cuts sql.toList ∧
      remainder = String.ofList (sql.toList.drop found.stop) ∧
      (s.vm = .empty → found.command? = none) := by
  cases hopen : c.native? with
  | none =>
    unfold Connection.compile Connection.withNative at h
    rw [hopen] at h
    exact nomatch h
  | some k =>
    cases hnul : nulError? sql with
    | some reason =>
      rw [native, compile_nul _ _ hopen hnul] at h
      exact nomatch h
    | none =>
      have hcompiled := Engine.prepare_compiled hooks k sql.toList w
      rw [native, compile_eq _ _ hopen hnul, run_bind] at h
      rcases hresult : ((Engine.prepare hooks k sql.toList).run w).1 with fault | ⟨compiled?, stop⟩
      · rw [hresult] at h
        exact nomatch h
      · rw [hresult] at h hcompiled
        obtain ⟨found, hnext, rfl, hcommand⟩ := hcompiled
        cases h
        refine ⟨found, Sql.nextCommand_cuts hnext, rfl, fun hvm => ?_⟩
        refine hcommand.mp ?_
        cases compiled? with
        | none => rfl
        | some k => exact nomatch hvm

/-- What stands in front of a remainder of a text. -/
def textBefore (sql remainder : String) : String :=
  String.ofList (sql.toList.take (sql.toList.length - remainder.toList.length))

/-- A text that is cut where the grammar cuts it is divided. -/
theorem divides_of_cuts {found : Sql.NextCommand} {sql : String} {s : Statement}
    (h : found.Cuts sql.toList) (hblank : s.vm = .empty → found.command? = none) :
    let remainder := String.ofList (sql.toList.drop found.stop)
    Divides sql s (textBefore sql remainder) remainder := by
  intro remainder
  have hbefore : textBefore sql remainder = String.ofList (sql.toList.take found.stop) := by
    unfold textBefore
    rw [String.toList_ofList, List.length_drop, Nat.sub_sub_self h.inside]
  rw [hbefore]
  have hwhole : String.ofList (sql.toList.take found.stop) ++ remainder = sql := by
    rw [← String.ofList_append, List.take_append_drop, String.ofList_toList]
  refine ⟨hwhole, ?_, fun hne heq => ?_, ?_, fun hvm => ?_⟩
  · calc Utf8.encode (String.ofList (sql.toList.take found.stop)) ++ Utf8.encode remainder
        = Utf8.encode (String.ofList (sql.toList.take found.stop) ++ remainder) := by
          unfold Utf8.encode Utf8.encodeChars
          rw [String.toList_append, List.flatMap_append]
      _ = Utf8.encode sql := congrArg Utf8.encode hwhole
  · have hnonempty : sql.toList ≠ [] := fun hnil => hne (String.toList_eq_nil_iff.mp hnil)
    have hpos := h.progress hnonempty
    rcases List.take_eq_nil_iff.mp (String.ofList_eq_empty_iff.mp heq) with hzero | hnil
    · exact absurd hzero (Nat.ne_of_gt hpos)
    · exact hnonempty hnil
  · rcases h.ending with hall | ⟨front, hfront⟩
    · left
      rw [hall, List.take_length, String.ofList_toList]
    · right
      exact ⟨String.ofList front, by rw [hfront, String.ofList_append]⟩
  · show String.ofList (sql.toList.drop found.stop) = ""
    rw [h.blank (hblank hvm), List.drop_length, String.ofList_nil]

/-- Every text that is accepted is divided. -/
theorem compile_divides {hooks : Hooks Host} {c : Connection} {sql : String} {w : SessionWorld}
    {s : Statement} {remainder : String}
    (h : ((c.compile (native hooks) sql).run w).1 = .ok (s, remainder)) :
    Divides sql s (textBefore sql remainder) remainder := by
  obtain ⟨found, hcuts, rfl, hblank⟩ := compile_cuts h
  exact divides_of_cuts hcuts hblank

/-- What is left of a text that is not empty is shorter than it. -/
theorem Divides.shorter {sql consumed remainder : String} {s : Statement}
    (h : Divides sql s consumed remainder) (hne : sql ≠ "") :
    remainder.length < sql.length := by
  have hpos : 0 < consumed.length := by
    rw [← String.length_toList]
    refine List.length_pos_iff.mpr fun hnil => ?_
    exact h.progress hne (String.toList_eq_nil_iff.mp hnil)
  rw [← h.whole, String.length_append]
  omega

/-! ## Scripts -/

/-- How the compiling of a script ended. -/
inductive ScriptEnd where
  | finished
  /-- A text was refused: the remainder of the piece before it. -/
  | refused (e : Error) (text : String)
  /-- There were more pieces than were asked for. -/
  | unfinished (text : String)

/-- The part of the script that was not compiled. -/
def ScriptEnd.left : ScriptEnd → String
  | finished => ""
  | refused _ text => text
  | unfinished text => text

def ScriptEnd.isUnfinished : ScriptEnd → Bool
  | unfinished _ => true
  | _ => false

/-- Compiles a script piece by piece, until nothing is left or a text is refused, in at most so many
pieces. `act` is what is done with a statement, and with whatever else there is, before the
remainder is compiled, on whichever connection. -/
def compileScript {σ : Type} (n : Native σ) (act : Connection → Statement → StateM σ Connection) :
    (limit : Nat) → Connection → String → StateM σ (List String × ScriptEnd)
  | 0, _, sql => return ([], if sql = "" then .finished else .unfinished sql)
  | limit + 1, c, sql => do
    if sql = "" then return ([], .finished)
    match ← c.compile n sql with
    | .error e => return ([], .refused e sql)
    | .ok (s, remainder) =>
      let c ← act c s
      let (pieces, ending) ← compileScript n act limit c remainder
      return (textBefore sql remainder :: pieces, ending)

/-- A script is compiled to its end or to a text that is refused, in pieces that make up what stands
before that. -/
structure Pieces (sql : String) (pieces : List String) (ending : ScriptEnd) : Prop where
  whole : String.join pieces ++ ending.left = sql
  terminates : ending.isUnfinished = false
  progress : ∀ piece ∈ pieces, piece ≠ ""

theorem Pieces.empty : Pieces "" [] .finished := ⟨rfl, rfl, nofun⟩

theorem Pieces.refused (e : Error) (sql : String) : Pieces sql [] (.refused e sql) :=
  ⟨String.empty_append, rfl, nofun⟩

/-- A piece goes in front of the pieces of its remainder. -/
theorem Pieces.cons {sql consumed remainder : String} {s : Statement} {pieces : List String}
    {ending : ScriptEnd} (hdivides : Divides sql s consumed remainder) (hne : sql ≠ "")
    (h : Pieces remainder pieces ending) : Pieces sql (consumed :: pieces) ending := by
  refine ⟨?_, h.terminates, fun piece hpiece => ?_⟩
  · rw [String.join_cons, String.append_assoc, h.whole, hdivides.whole]
  · rcases List.mem_cons.mp hpiece with rfl | hpiece
    · exact hdivides.progress hne
    · exact h.progress piece hpiece

/-- A script has no more pieces than characters. -/
theorem compileScript_pieces (hooks : Hooks Host)
    (act : Connection → Statement → StateM SessionWorld Connection) (limit : Nat) :
    ∀ (c : Connection) (sql : String), sql.length ≤ limit → ∀ w,
      let r := ((compileScript (native hooks) act limit c sql).run w).1
      Pieces sql r.1 r.2 := by
  induction limit with
  | zero =>
    intro c sql hlength w
    have hempty : sql = "" := by
      rw [← String.length_toList] at hlength
      exact String.toList_eq_nil_iff.mp (List.length_eq_zero_iff.mp (Nat.le_zero.mp hlength))
    subst hempty
    exact .empty
  | succ limit ih =>
    intro c sql hlength w
    by_cases hempty : sql = ""
    · subst hempty
      exact .empty
    · unfold compileScript
      rw [if_neg hempty, run_bind]
      rcases hcompile : ((c.compile (native hooks) sql).run w).1 with e | ⟨s, remainder⟩
      · exact .refused e sql
      · have hdivides := compile_divides hcompile
        have hshorter := hdivides.shorter hempty
        exact .cons hdivides hempty (ih _ remainder (by omega) _)

-- semicolons in names, comments and texts end nothing
example :
    let script := "CREATE TABLE \"ä;\"(a); -- ö;\nINSERT INTO \"ä;\" VALUES ('é;'); SELECT '𝄞'"
    let pieces : StateM SessionWorld (List String) := do
      let _ ← Session.run (.openMemory "a")
      let act (c : Connection) (s : Statement) : StateM SessionWorld Connection := do
        let _ ← s.step Session.engine
        s.drop Session.engine
        return c
      return (← compileScript Session.engine act 100 ⟨some 2, Connection.memoryPath, []⟩ script).1
    (pieces.run SessionWorld.empty).1.map String.length = [21, 38, 11] := by
  decide +kernel

end HostSql
