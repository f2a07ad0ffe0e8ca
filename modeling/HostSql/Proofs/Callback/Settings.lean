import HostSql.Proofs.Coupling
import HostSql.Proofs.Utf8

/-!
# What the settings of a closure come to

While a closure runs it may set results and errors, in any order and any number of times, and then
end well, fail or panic. `Program.settings` lists what it sets on the way that it takes in a given
world. `Call.Lawful` says what the engine must get for such a list and such an end:

* a failure or a panic gives the fixed diagnostic, whatever has been set;
* otherwise an error that has been set makes the call fail, and if nothing that takes effect is set
  after it the message is the error's, up to its first NUL;
* otherwise the last accepted value is the result, coerced, and without one the result is NULL.

> `protect_lawful`: a contained closure gives the engine exactly that.
-/

namespace HostSql

open Engine (Datum)

variable {σ : Type}

/-- One thing that a closure sets. -/
inductive Setting where
  | value (v : Value)
  | error (message : String)
  deriving Repr, DecidableEq

namespace Setting

/-- Whether the engine is told of a setting. A value that cannot be a result is refused before. -/
def takesEffect : Setting → Bool
  | value v => v.isResult
  | error _ => true

def isError : Setting → Bool
  | value _ => false
  | error _ => true

/-- The value of a setting that the engine takes as a result. -/
def accepted? : Setting → Option Value
  | value v => if v.isResult then some v else none
  | error _ => none

/-- What becomes of the result of a call. -/
def apply (call : Call) (p : Pending) : Setting → Pending
  | value v => (call.setResult p v).2
  | error message => p.setError message

end Setting

/-- What a closure sets from a world on. -/
def Program.settings (a : Ambient σ) (call : Call) : Program → Frame → σ → List Setting
  | finish _, _, _ => []
  | setResult v next, f, w =>
    .value v :: (next (call.setResult f.pending v).1).settings a call
      { f with pending := (call.setResult f.pending v).2 } w
  | setError message next, f, w =>
    .error message :: next.settings a call { f with pending := f.pending.setError message } w
  | readState next, f, w => (next (f.ofGroup (·.state))).settings a call f w
  | insert key v next, f, w => (next (f.insert key v).1).settings a call (f.insert key v).2 w
  | readCount next, f, w => (next (f.ofGroup (·.rows))).settings a call f w
  | readType next, f, w => (next call.resultType).settings a call f w
  | emit event next, f, w => next.settings a call f ((a.emit event).run w).2
  | interrupt handle next, f, w => next.settings a call f ((a.interrupt handle).run w).2
  | execute c sql next, f, w =>
    (next ((a.execute c sql).run w).1).settings a call f ((a.execute c sql).run w).2
  | query c sql next, f, w =>
    (next ((a.query c sql).run w).1).settings a call f ((a.query c sql).run w).2
  | declare c name type next, f, w =>
    (next ((a.declare c name type).run w).1).settings a call f ((a.declare c name type).run w).2
  | register c name arity callbacks next, f, w =>
    (next ((a.register c name arity callbacks).run w).1).settings a call f
      ((a.register c name arity callbacks).run w).2

/-- The result of a call is what the settings have made of it, one after the other. -/
theorem Program.run_pending (a : Ambient σ) (call : Call) : ∀ (p : Program) (f : Frame) (w : σ),
    ((p.run a call f).run w).1.2.pending =
      (p.settings a call f w).foldl (Setting.apply call) f.pending
  | .finish _, _, _ => rfl
  | .setResult v next, f, w => by
    simp only [Program.run]
    exact run_pending a call (next _) _ w
  | .setError message next, f, w => by
    simp only [Program.run]
    exact run_pending a call next _ w
  | .readState next, f, w => by
    simp only [Program.run]
    exact run_pending a call (next _) f w
  | .insert key v next, f, w => by
    have hkept : (f.insert key v).2.pending = f.pending := by
      unfold Frame.insert
      split <;> rfl
    simp only [Program.run]
    rw [run_pending a call (next _) _ w, hkept]
    rfl
  | .readCount next, f, w => by
    simp only [Program.run]
    exact run_pending a call (next _) f w
  | .readType next, f, w => by
    simp only [Program.run]
    exact run_pending a call (next _) f w
  | .emit event next, f, w => by
    simp only [Program.run, run_bind]
    exact run_pending a call next f _
  | .interrupt handle next, f, w => by
    simp only [Program.run, run_bind]
    exact run_pending a call next f _
  | .execute c sql next, f, w => by
    simp only [Program.run, run_bind]
    exact run_pending a call (next _) f _
  | .query c sql next, f, w => by
    simp only [Program.run, run_bind]
    exact run_pending a call (next _) f _
  | .declare c name type next, f, w => by
    simp only [Program.run, run_bind]
    exact run_pending a call (next _) f _
  | .register c name arity callbacks next, f, w => by
    simp only [Program.run, run_bind]
    exact run_pending a call (next _) f _

/-! ## What is expected -/

/-- The last value among settings that the engine took as a result. -/
def lastAccepted? (settings : List Setting) : Option Value :=
  (settings.filterMap Setting.accepted?).getLast?

/-- The result of a call in which values were set and no error. -/
def Call.resultOf (call : Call) (settings : List Setting) : Datum :=
  match lastAccepted? settings with
  | some v => .ofValue (call.resultType.coerce v call.classes)
  | none => .null

/-- What the engine must get from a closure that has made some settings and ended in some way. -/
structure Call.Lawful (call : Call) (settings : List Setting) (ended : Outcome)
    (diagnostic : String) (result : Except String Datum) : Prop where
  contained : ended ≠ .ok → result = .error diagnostic
  failed : ended = .ok → settings.any (·.isError) = true → ∃ message, result = .error message
  message : ended = .ok → ∀ earlier m later, settings = earlier ++ .error m :: later →
    (∀ s ∈ later, s.takesEffect = false) → result = .error (Utf8.cutAtNul m)
  value : ended = .ok → settings.any (·.isError) = false → result = .ok (call.resultOf settings)

/-! ## The fold of settings -/

section Fold

variable (call : Call)

/-- An accepted value takes the place of the result so far. -/
theorem apply_accepted {v : Value} (h : v.isResult = true) (p : Pending) :
    (Setting.value v).apply call p =
      p.setValue (.ofValue (call.resultType.coerce v call.classes)) := by
  show (call.setResult p v).2 = _
  unfold Call.setResult
  rw [if_pos h]

/-- A refused value changes nothing. -/
theorem apply_refused {v : Value} (h : v.isResult = false) (p : Pending) :
    (Setting.value v).apply call p = p := by
  show (call.setResult p v).2 = _
  unfold Call.setResult
  rw [if_neg (by simp [h])]

/-- Settings of which the engine is not told change nothing. -/
theorem foldl_refused {settings : List Setting} (h : ∀ s ∈ settings, s.takesEffect = false)
    (p : Pending) : settings.foldl (Setting.apply call) p = p := by
  induction settings with
  | nil => rfl
  | cons s settings ih =>
    have hs := h s List.mem_cons_self
    cases s with
    | error m => exact nomatch hs
    | value v =>
      rw [List.foldl_cons, apply_refused call hs]
      exact ih fun s hs => h s (List.mem_cons_of_mem _ hs)

/-- A call fails as soon as one error has been set. -/
theorem foldl_failed (settings : List Setting) (p : Pending) :
    (settings.foldl (Setting.apply call) p).failed = (p.failed || settings.any (·.isError)) := by
  induction settings generalizing p with
  | nil => exact (Bool.or_false _).symm
  | cons s settings ih =>
    rw [List.foldl_cons, ih, List.any_cons, ← Bool.or_assoc]
    congr 1
    cases s with
    | error m => exact (Bool.or_true _).symm
    | value v =>
      cases h : v.isResult with
      | true =>
        rw [apply_accepted call h]
        exact (Bool.or_false _).symm
      | false =>
        rw [apply_refused call h]
        exact (Bool.or_false _).symm

/-- Without errors the result is the last accepted value. -/
theorem foldl_value {settings : List Setting} (h : settings.any (·.isError) = false)
    (p : Pending) : (settings.foldl (Setting.apply call) p).value =
      match lastAccepted? settings with
      | some v => .ofValue (call.resultType.coerce v call.classes)
      | none => p.value := by
  induction settings generalizing p with
  | nil => rfl
  | cons s settings ih =>
    rw [List.any_cons, Bool.or_eq_false_iff] at h
    rw [List.foldl_cons, ih h.2]
    cases s with
    | error m => exact nomatch h.1
    | value v =>
      cases hv : v.isResult with
      | true =>
        have hs : (Setting.value v).accepted? = some v := if_pos hv
        unfold lastAccepted?
        rw [List.filterMap_cons_some hs, List.getLast?_cons, apply_accepted call hv]
        cases (settings.filterMap Setting.accepted?).getLast? <;> rfl
      | false =>
        have hs : (Setting.value v).accepted? = none := if_neg (by simp [hv])
        unfold lastAccepted?
        rw [List.filterMap_cons_none hs, apply_refused call hv]

/-- What the engine gets when all settings have been made. -/
theorem lawful_of_settings {settings : List Setting} {ended : Outcome} {diagnostic : String}
    {result : Except String Datum} (hcontained : ended ≠ .ok → result = .error diagnostic)
    (hok : ended = .ok → result = (settings.foldl (Setting.apply call) Pending.start).result) :
    call.Lawful settings ended diagnostic result := by
  have hfailed : (settings.foldl (Setting.apply call) Pending.start).failed =
      settings.any (·.isError) := foldl_failed call settings _
  refine ⟨hcontained, ?_, ?_, ?_⟩
  · intro hend hany
    rw [hok hend]
    unfold Pending.result
    rw [hfailed, hany]
    exact ⟨_, rfl⟩
  · -- an error that is set last decides the message, whatever was set before
    intro hend earlier m later hsettings hlater
    rw [hok hend, hsettings, List.foldl_append, List.foldl_cons, foldl_refused call hlater]
    show Except.error (Utf8.textOf (Utf8.encode m)) = _
    rw [Utf8.textOf_encode]
  · intro hend hany
    rw [hok hend]
    unfold Pending.result Call.resultOf
    rw [hfailed, hany, foldl_value call hany]
    rfl

end Fold

/-! ## Containment -/

/-- A fixed diagnostic reaches the engine as it is. -/
theorem diagnostic_result (p : Pending) {diagnostic : String}
    (h : Utf8.cutAtNul diagnostic = diagnostic) :
    (p.setError diagnostic).result = .error diagnostic := by
  show Except.error (Utf8.textOf (Utf8.encode diagnostic)) = _
  rw [Utf8.textOf_encode, h]

/-- However a closure behaves, the engine gets what its settings and its end come to. -/
theorem protect_lawful (a : Ambient σ) (r : FunctionRecord) (call : Call) {diagnostic : String}
    (hdiagnostic : Utf8.cutAtNul diagnostic = diagnostic) (closure : Program)
    (group : Option Group) (w : σ) :
    call.Lawful (closure.settings a call (.start group) w)
      ((closure.run a call (.start group)).run w).1.1 diagnostic
      ((protect a r call diagnostic closure group).run w).1.pending.result := by
  have hpending := closure.run_pending a call (.start group) w
  unfold protect
  rw [run_bind]
  generalize (closure.run a call (.start group)).run w = out at hpending ⊢
  obtain ⟨⟨ended, frame⟩, after⟩ := out
  refine lawful_of_settings call (fun hend => ?_) fun hend => ?_
  · -- a failure and a panic are contained alike
    cases ended with
    | ok => exact absurd rfl hend
    | failed e => exact diagnostic_result frame.pending hdiagnostic
    | panicked => exact diagnostic_result frame.pending hdiagnostic
  · cases hend
    exact congrArg Pending.result hpending

end HostSql
