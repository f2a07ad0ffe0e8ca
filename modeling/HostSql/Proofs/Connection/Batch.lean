import HostSql.Proofs.Session.Lasting

/-!
# A script at once and step by step

`Connection.execute` hands a whole script to the engine. `runStepwise` runs it through statements:
it compiles the text, steps the statement until it has ended, releases it, and goes on with the
remainder, up to the first error.

> `execute_stepwise`: both leave the same world, with the same answers of the host to the same
> requests in the same order, and fail with the same first error, except that the error of a lock
> that was met in a step says so, and that a refusal in between is logged.

The engine does not compile the blanks that follow a statement, so the loop leaves them out as well.
That matters: while an interruption is pending, compiling them fails (`remainder_interrupted`).

The two runs go side by side (`runToEnd_stepwise`, `runOnce_agrees`). What has failed in a step is
reported again when the statement is released (`Engine.step_leaves`), so it does not matter whether
the step or the release is asked for the error.
-/

namespace HostSql

open Engine (World Hooks HostKeeps Present)

variable {σ : Type}

/-! ## Running a script step by step -/

/-- What a script was doing when it failed. -/
inductive ScriptStage where
  | compiling
  | stepping
  | finalizing
  deriving Repr, DecidableEq

/-- The first error of a script. -/
structure ScriptFailure where
  stage : ScriptStage
  error : Error
  deriving Repr, DecidableEq

/-- Steps a statement until it has ended or failed, so many times at most. Its rows are dropped. -/
def Statement.stepToEnd (n : Native σ) : (left : Nat) → Statement → StateM σ (Option Error × Statement)
  | 0, s => return (none, s)
  | left + 1, s => do
    let (result, s) ← s.step n
    match result with
    | .error e => return (some e, s)
    | .ok r => if r.isRow then stepToEnd n left s else return (none, s)

/-- Finalizes a statement that has ended, or drops one that has failed. -/
def Statement.release (n : Native σ) : Option Error × Statement → StateM σ (Option ScriptFailure)
  | (some e, s) => do
    s.drop n
    return some ⟨.stepping, e⟩
  | (none, s) => do
    match (← s.finalize n).1 with
    | .error e => return some ⟨.finalizing, e⟩
    | .ok _ => return none

/-- Steps a statement until it has ended or failed and releases it. -/
def Statement.runOnce (n : Native σ) (s : Statement) : StateM σ (Option ScriptFailure) := do
  Statement.release n (← s.stepToEnd n Engine.fuel)

/-- Runs a script step by step, in so many pieces at most. `next` is the text to go on with, given a
remainder. -/
def runStepwise (n : Native σ) (c : Connection) (next : String → String) :
    (limit : Nat) → String → StateM σ (Option ScriptFailure)
  | 0, _ => return none
  | limit + 1, sql => do
    if sql = "" then return none
    match ← c.compile n sql with
    | .error e => return some ⟨.compiling, e⟩
    | .ok (s, remainder) =>
      let failure? ← s.runOnce n
      if failure?.isSome then return failure? else runStepwise n c next limit (next remainder)

/-- A text without the blanks in front. -/
def skipBlanks (sql : String) : String := String.ofList (sql.toList.dropWhile Sql.isSpace)

/-! ## When two runs agree -/

/-- How an error is reported at a stage: a lock that was met in a step says so. -/
def Error.reportedAt (e : Error) : ScriptStage → Error
  | .stepping =>
    if e.code = ResultCode.busy then .ofCode e.code ("busy in step: " ++ e.message) else e
  | .compiling | .finalizing => e

/-- The same outcome, of a script at once and step by step. -/
inductive SameOutcome : Except Error Unit → Option ScriptFailure → Prop
  | success : SameOutcome (.ok ()) none
  | failure (stage : ScriptStage) (e : Error) :
    SameOutcome (.error e) (some ⟨stage, e.reportedAt stage⟩)

/-- What is logged about a failure only when a script is run step by step. -/
def ScriptFailure.record? (f : ScriptFailure) : Option LogRecord :=
  match f.stage with
  | .compiling => some (.of .debug "compile failed" [("error", f.error.display)])
  | .stepping =>
    if f.error.code = ResultCode.busy then none
    else some (.of .debug "statement finalized after failed step"
      [("code", toString f.error.code.toInt), ("error", f.error.message)])
  | .finalizing => none

section Agreement

variable {H : Type} (services : HostServices H) {hooks : Hooks H}

/-- Logs what there is to log. -/
def logIfAny : Option LogRecord → StateM (World H) Unit
  | some record => services.log record
  | none => return

/-- Two runs of a script agree: with the same outcome, and in the same world but for the log. -/
structure RunsAgree (batch : Except Error Unit × World H)
    (stepwise : Option ScriptFailure × World H) : Prop where
  outcome : SameOutcome batch.1 stepwise.1
  world : stepwise.2 = ((logIfAny services (stepwise.1.bind (·.record?))).run batch.2).2

/-- The answer to a script that the engine has run. -/
def scriptAnswer : Option Engine.Fault → Except Error Unit
  | some fault => .error fault.toNative.toError
  | none => .ok ()

/-- The rest of a text without a NUL has none either. -/
theorem nulError?_suffix {sql : String} {cs : List Char} (h : nulError? sql = none)
    (hcs : cs <:+ sql.toList) : nulError? (String.ofList cs) = none := by
  obtain ⟨front, hfront⟩ := hcs
  unfold nulError? Utf8.nulPosition? at h ⊢
  rw [Option.map_eq_none_iff, List.findIdx?_eq_none_iff] at h ⊢
  intro byte hbyte
  refine h byte ?_
  unfold Utf8.encode Utf8.encodeChars at hbyte ⊢
  rw [String.toList_ofList] at hbyte
  rw [← hfront, List.flatMap_append]
  exact List.mem_append_right _ hbyte

/-! ## One statement -/

variable {k : Nat} {s : Statement} {w w' : World H}

/-- A step whose native step delivered a row or reached the end only reads columns after it. -/
theorem step_success_on (hvm : s.vm = .live k) {progress : Engine.Progress}
    (hstep : (Engine.step hooks k).run w = (progress, w')) (hok : progress.fault? = none) :
    ∃ (r : StepResult) (s' : Statement),
      (s.step (nativeOn services hooks)).run w = ((.ok r, s'), w') ∧
      r.isRow = decide (progress = .row) ∧ s'.vm = .live k := by
  have hnative : ((nativeOn services hooks).step k).run w = (progress.toNative, w') := by
    simp only [nativeOn, run_bind, hstep]
    rfl
  have hrun : progress.toNative.succeeded = true ∧
      decide (progress.toNative.code = ResultCode.row) = decide (progress = .row) := by
    cases progress with
    | row => exact ⟨rfl, rfl⟩
    | done => exact ⟨rfl, rfl⟩
    | failed fault => cases hok
  obtain ⟨hrow, hlive⟩ := s.succeed_answer (nativeOn services hooks) k
    (progress.toNative.code = ResultCode.row) w'
  have hreads : Keeps (· = w') (s.succeed (nativeOn services hooks) k
      (progress.toNative.code = ResultCode.row)) := s.succeed_keeps nativeOn_reads k _
  refine ⟨_, _, ?_, hrow.trans hrun.2, hlive.trans hvm⟩
  rw [step_of_succeeded _ hvm hnative hrun.1]
  exact Prod.ext rfl (hreads w' rfl)

/-- A step whose native step failed ends as the failure makes it. -/
theorem step_failure_on (hvm : s.vm = .live k) {fault : Engine.Fault}
    (hstep : (Engine.step hooks k).run w = (.failed fault, w')) :
    (s.step (nativeOn services hooks)).run w =
      let p := (s.fail (nativeOn services hooks) k ⟨fault.code, fault.message⟩).run w'
      ((.error p.1.1, p.1.2), p.2) := by
  have hnative : ((nativeOn services hooks).step k).run w =
      (⟨fault.code, fault.message⟩, w') := by
    simp only [nativeOn, run_bind, hstep]
    rfl
  exact step_of_failed _ hvm hnative (succeeded_of_known fault.known)

/-- Stepping a statement to its end is running it to its end. If it fails, the failure is left with
it, and the last step ends as that failure makes it. -/
theorem runToEnd_stepwise (hhost : HostKeeps hooks (Present k)) (left : Nat) :
    ∀ (s : Statement) (w : World H), s.vm = .live k → Present k w →
      let n := nativeOn services hooks
      let w' := ((Engine.runToEnd hooks k left).run w).2
      (∃ s' : Statement, s'.vm = .live k ∧ (s.stepToEnd n left).run w = ((none, s'), w')) ∨
        ∃ (s' : Statement) (fault : Engine.Fault), s'.vm = .live k ∧
          w'.failure? k = some fault ∧
          (s.stepToEnd n left).run w =
            let p := (s'.fail n k ⟨fault.code, fault.message⟩).run w'
            ((some p.1.1, p.1.2), p.2) := by
  induction left with
  | zero => exact fun s w hvm _ => .inl ⟨s, hvm, rfl⟩
  | succ left ih =>
    intro s w hvm hw
    have hpresent := Engine.step_keeps ⟨Present.engineKeeps k, hhost⟩ k w hw
    have hleaves := Engine.step_leaves hhost w hw
    unfold Statement.stepToEnd Engine.runToEnd
    simp only [run_bind]
    rcases hstep : (Engine.step hooks k).run w with ⟨progress, w₁⟩
    rw [hstep] at hpresent hleaves
    cases progress with
    | row =>
      obtain ⟨r, s', hrun, hrow, hlive⟩ := step_success_on services hvm hstep rfl
      rw [hrun]
      simp only [hrow, decide_true, if_true]
      exact ih s' w₁ hlive hpresent
    | done =>
      obtain ⟨r, s', hrun, hrow, hlive⟩ := step_success_on services hvm hstep rfl
      rw [hrun]
      simp only [hrow]
      exact .inl ⟨s', hlive, rfl⟩
    | failed fault =>
      right
      refine ⟨s, fault, hvm, hleaves fault rfl, ?_⟩
      rw [step_failure_on services hvm hstep]
      rfl

/-- What is released reports the failure that it was left with. -/
theorem finalize_failure (hooks : Hooks H) (k : Nat) (w : World H) :
    ((Engine.finalize hooks k).run w).1 = w.failure? k := by
  unfold Engine.finalize World.failure?
  rw [run_bind, run_get]
  cases w.statements.get? k with
  | none => rfl
  | some s =>
    dsimp only
    split <;> rfl

/-- How the engine runs a statement that it has compiled. -/
def runInBatch (hooks : Hooks H) (k : Nat) : StateM (World H) (Option Engine.Fault) := do
  Engine.runToEnd hooks k Engine.fuel
  Engine.finalize hooks k

/-- A failure of the engine as it is reported at a stage. -/
theorem RunsAgree.fault {fault : Engine.Fault} {w w' : World H} (stage : ScriptStage)
    (hworld : w' = ((logIfAny services
      (ScriptFailure.record? ⟨stage, fault.toNative.toError.reportedAt stage⟩)).run w).2) :
    RunsAgree services (scriptAnswer (some fault), w)
      (some ⟨stage, fault.toNative.toError.reportedAt stage⟩, w') :=
  ⟨.failure stage _, hworld⟩

/-- A statement that has ended is released, and its release may fail. -/
theorem release_ended (hvm : s.vm = .live k) (w : World H) :
    let batch := (Engine.finalize hooks k).run w
    RunsAgree services (scriptAnswer batch.1, batch.2)
      ((Statement.release (nativeOn services hooks) (none, s)).run w) := by
  unfold Statement.release Statement.finalize
  simp only [hvm, nativeOn, run_bind]
  rcases (Engine.finalize hooks k).run w with ⟨fault?, w'⟩
  cases fault? with
  | none => exact ⟨.success, rfl⟩
  | some fault => exact .fault _ .finalizing rfl

/-- A statement that is dropped is released. -/
theorem drop_live (n : Native σ) (hvm : s.vm = .live k) (w : σ) :
    ((s.drop n).run w).2 = ((n.finalize k).run w).2 := by
  unfold Statement.drop
  rw [hvm]
  rfl

/-- A statement whose step has failed is released by that step or, after a lock, when it is
dropped. -/
theorem release_failed (hvm : s.vm = .live k) {fault : Engine.Fault} {w w' : World H}
    (hfinalize : (Engine.finalize hooks k).run w = (some fault, w')) :
    let n := nativeOn services hooks
    let failed := (s.fail n k ⟨fault.code, fault.message⟩).run w
    RunsAgree services (scriptAnswer (some fault), w')
      ((Statement.release n (some failed.1.1, failed.1.2)).run failed.2) := by
  intro n failed
  have hnative : ((n.finalize k).run w).2 = w' := by
    show ((Engine.finalize hooks k).run w).2 = w'
    rw [hfinalize]
  have hagree : RunsAgree services (scriptAnswer (some fault), w') _ := .fault _ .stepping rfl
  show RunsAgree services _ (some ⟨.stepping, failed.1.1⟩, ((failed.1.2.drop n).run failed.2).2)
  by_cases hbusy : fault.code = ResultCode.busy
  · -- the statement was kept, and nothing is logged
    have hfailed : failed = ((.ofCode fault.code ("busy in step: " ++ fault.message), s), w) := by
      unfold failed Statement.fail
      rw [if_pos hbusy]
      rfl
    have hreported : fault.toNative.toError.reportedAt .stepping =
        .ofCode fault.code ("busy in step: " ++ fault.message) := if_pos hbusy
    have hrecord : ScriptFailure.record?
        ⟨.stepping, .ofCode fault.code ("busy in step: " ++ fault.message)⟩ = none := if_pos hbusy
    rw [hreported, hrecord] at hagree
    rw [hfailed, drop_live n hvm, hnative]
    exact hagree
  · -- the step has released the statement and logged that
    have hfailed : failed = ((.ofCode fault.code fault.message, { s with vm := .finalized }),
        ((services.log (.of .debug "statement finalized after failed step"
          [("code", toString fault.code.toInt), ("error", fault.message)])).run
            ((n.finalize k).run w).2).2) := by
      unfold failed Statement.fail
      rw [if_neg hbusy, if_pos fault.known]
      rfl
    have hreported : fault.toNative.toError.reportedAt .stepping =
        .ofCode fault.code fault.message := if_neg hbusy
    have hrecord : ScriptFailure.record? ⟨.stepping, .ofCode fault.code fault.message⟩ =
        some (.of .debug "statement finalized after failed step"
          [("code", toString fault.code.toInt), ("error", fault.message)]) := if_neg hbusy
    rw [hreported, hrecord] at hagree
    rw [hfailed, hnative]
    exact hagree

theorem runOnce_agrees (hhost : HostKeeps hooks (Present k)) (hvm : s.vm = .live k)
    (hw : Present k w) :
    let batch := (runInBatch hooks k).run w
    RunsAgree services (scriptAnswer batch.1, batch.2)
      ((s.runOnce (nativeOn services hooks)).run w) := by
  unfold runInBatch Statement.runOnce
  simp only [run_bind]
  rcases runToEnd_stepwise services hhost Engine.fuel s w hvm hw with
    ⟨s', hlive, hrun⟩ | ⟨s', fault, hlive, hfailure, hrun⟩
  · rw [hrun]
    exact release_ended services hlive _
  · have hanswer := finalize_failure hooks k ((Engine.runToEnd hooks k Engine.fuel).run w).2
    rw [hfailure] at hanswer
    rw [hrun, hanswer]
    exact release_failed services hlive (Prod.ext hanswer rfl)

/-- A text without a command is run by doing nothing. -/
theorem runOnce_empty (n : Native σ) (hvm : s.vm = .empty) (w : σ) :
    (s.runOnce n).run w = (none, w) := by
  have hstep : (s.step n).run w = ((.ok s.stepEmpty.1, s.stepEmpty.2), w) := by
    unfold Statement.step
    rw [hvm]
    rfl
  have hend : ∀ left, ∃ s' : Statement, s'.vm = .empty ∧
      (s.stepToEnd n left).run w = ((none, s'), w) := by
    intro left
    cases left with
    | zero => exact ⟨s, hvm, rfl⟩
    | succ left =>
      refine ⟨s.stepEmpty.2, hvm, ?_⟩
      unfold Statement.stepToEnd
      rw [run_bind, hstep]
      rfl
  obtain ⟨s', hvm', hrun⟩ := hend Engine.fuel
  have hrelease : (Statement.release n (none, s')).run w = (none, w) := by
    simp only [Statement.release, Statement.finalize, hvm']
    rfl
  unfold Statement.runOnce
  rw [run_bind, hrun]
  exact hrelease

/-! ## The whole script -/

/-- What has just been compiled is there. -/
theorem prepare_present (c : Nat) (text : List Char) (w : World H) {stop : Nat}
    (h : ((Engine.prepare hooks c text).run w).1 = .ok (some k, stop)) :
    Present k ((Engine.prepare hooks c text).run w).2 := by
  unfold Engine.prepare at h ⊢
  rw [run_bind, run_bind] at h ⊢
  generalize (Engine.compileText ⟨c, 0, hooks⟩ text).run.run w = compiled at h ⊢
  obtain ⟨fault | ⟨program?, stop'⟩, w'⟩ := compiled
  · exact nomatch h
  · cases program? with
    | none => exact nomatch h
    | some program =>
      cases h
      refine ⟨Nat.lt_succ_self _, ?_⟩
      show (Assoc.get? (Assoc.set _ _ _) _).isSome = true
      rw [Assoc.get?_set_self]
      rfl

/-- A script that has been used up is run by doing nothing. -/
theorem executeAll_nil (c left : Nat) (w : World H) :
    (Engine.executeAll hooks c left []).run w = (none, w) := by
  cases left <;> rfl

/-- The engine runs a statement and goes on unless it has failed. -/
theorem executeAll_cons {c left stop : Nat} {text : List Char} (hne : text ≠ [])
    (hprepare : (Engine.prepare hooks c text).run w = (.ok (some k, stop), w')) :
    (Engine.executeAll hooks c (left + 1) text).run w =
      let ended := (runInBatch hooks k).run w'
      if ended.1.isSome then ended
      else (Engine.executeAll hooks c left ((text.drop stop).dropWhile Sql.isSpace)).run ended.2 := by
  rcases hended : (runInBatch hooks k).run w' with ⟨fault?, w''⟩
  have hfinalize : (Engine.finalize hooks k).run
      ((Engine.runToEnd hooks k Engine.fuel).run w').2 = (fault?, w'') := hended
  rw [Engine.executeAll, if_neg (by simpa using hne), run_bind, hprepare]
  show StateT.run (_ >>= _) w' = _
  rw [run_bind, run_bind, hfinalize]
  cases fault? <;> rfl

theorem runStepwise_empty (n : Native σ) (c : Connection) (next : String → String) (limit : Nat)
    (w : σ) : (runStepwise n c next limit "").run w = (none, w) := by
  cases limit <;> rfl

/-- The loop runs a statement and goes on unless it has failed. -/
theorem runStepwise_cons {n : Native σ} {c : Connection} {next : String → String} {limit : Nat}
    {sql remainder : String} {w w' : σ} (hne : sql ≠ "")
    (hcompile : (c.compile n sql).run w = (.ok (s, remainder), w')) :
    (runStepwise n c next (limit + 1) sql).run w =
      let ended := (s.runOnce n).run w'
      if ended.1.isSome then ended else (runStepwise n c next limit (next remainder)).run ended.2 := by
  rw [runStepwise, if_neg hne, run_bind, hcompile]
  show StateT.run (_ >>= _) w' = _
  rw [run_bind]
  rcases (s.runOnce n).run w' with ⟨failure?, w''⟩
  cases failure? <;> rfl

theorem runStepwise_refused {n : Native σ} {c : Connection} {next : String → String} {limit : Nat}
    {sql : String} {w w' : σ} {e : Error} (hne : sql ≠ "")
    (hcompile : (c.compile n sql).run w = (.error e, w')) :
    (runStepwise n c next (limit + 1) sql).run w = (some ⟨.compiling, e⟩, w') := by
  rw [runStepwise, if_neg hne, run_bind, hcompile]
  rfl

/-- What is left of a text that is not empty is shorter than it. -/
theorem rest_shorter {text : List Char} (hne : text ≠ []) {found : Sql.NextCommand}
    (hcuts : found.Cuts text) :
    ((text.drop found.stop).dropWhile Sql.isSpace).length < text.length := by
  have hdropped : ((text.drop found.stop).dropWhile Sql.isSpace).length ≤
      (text.drop found.stop).length := (List.dropWhile_suffix _).length_le
  have hpositive := hcuts.progress hne
  have hinside := hcuts.inside
  rw [List.length_drop] at hdropped
  omega

/-- Two runs that agree so far, and go on alike unless they have failed, agree. -/
theorem RunsAgree.next {batch : Option Engine.Fault × World H} {stepwise : Option ScriptFailure × World H}
    {batch' : World H → Option Engine.Fault × World H}
    {stepwise' : World H → Option ScriptFailure × World H}
    (h : RunsAgree services (scriptAnswer batch.1, batch.2) stepwise)
    (h' : ∀ w, RunsAgree services (scriptAnswer (batch' w).1, (batch' w).2) (stepwise' w)) :
    let ended := if batch.1.isSome then batch else batch' batch.2
    RunsAgree services (scriptAnswer ended.1, ended.2)
      (if stepwise.1.isSome then stepwise else stepwise' stepwise.2) := by
  obtain ⟨fault?, w⟩ := batch
  obtain ⟨failure?, w'⟩ := stepwise
  cases fault? with
  | none =>
    cases failure? with
    | none =>
      have hworld : w' = w := h.world
      rw [hworld]
      exact h' w
    | some failure => exact nomatch h.outcome
  | some fault =>
    cases failure? with
    | none => exact nomatch h.outcome
    | some failure => exact h

theorem executeAll_stepwise (hhost : ∀ k, HostKeeps hooks (Present k)) {c : Connection}
    (hopen : c.native? = some k) (left : Nat) :
    ∀ (limit : Nat) (sql : String) (w : World H), sql.length < left → sql.length < limit →
      nulError? sql = none →
      let batch := (Engine.executeAll hooks k left sql.toList).run w
      RunsAgree services (scriptAnswer batch.1, batch.2)
        ((runStepwise (nativeOn services hooks) c skipBlanks limit sql).run w) := by
  induction left with
  | zero => exact fun limit sql w hleft => absurd hleft (Nat.not_lt_zero _)
  | succ left ih =>
    intro limit sql w hleft hlimit hnul
    cases limit with
    | zero => exact absurd hlimit (Nat.not_lt_zero _)
    | succ limit =>
      by_cases hempty : sql = ""
      · subst hempty
        exact ⟨.success, rfl⟩
      have hcs : sql.toList ≠ [] := fun h => hempty (String.toList_eq_nil_iff.mp h)
      have hcompiled := Engine.prepare_compiled hooks k sql.toList w
      have hcompile := congrArg (StateT.run · w)
        (compile_eq services hooks hopen hnul)
      rw [run_bind] at hcompile
      rcases hprepare : (Engine.prepare hooks k sql.toList).run w with
        ⟨fault | ⟨statement?, stop⟩, w₁⟩
      all_goals rw [hprepare] at hcompile hcompiled
      · -- the text is refused
        rw [runStepwise_refused hempty hcompile, Engine.executeAll, if_neg (by simpa using hcs), run_bind,
          hprepare]
        exact .fault _ .compiling rfl
      obtain ⟨found, hnext, rfl, hcommand⟩ := hcompiled
      have hcuts := Sql.nextCommand_cuts hnext
      cases statement? with
      | none =>
        -- there is no command, and nothing is left
        have hrest : sql.toList.drop found.stop = [] := by
          rw [hcuts.blank (hcommand.mp rfl), List.drop_length]
        have hblank : (c.compile (nativeOn services hooks) sql).run w =
            (.ok (.new none, ""), w₁) := by
          rw [hcompile]
          show (Except.ok (Statement.new none, String.ofList (sql.toList.drop found.stop)), w₁) = _
          rw [hrest, String.ofList_nil]
        rw [runStepwise_cons hempty hblank, runOnce_empty _ rfl, Engine.executeAll,
          if_neg (by simpa using hcs), run_bind, hprepare]
        show RunsAgree services (scriptAnswer ((Engine.executeAll hooks k left _).run w₁).1,
          ((Engine.executeAll hooks k left _).run w₁).2) ((runStepwise _ c skipBlanks limit "").run w₁)
        rw [hrest, executeAll_nil, runStepwise_empty]
        exact ⟨.success, rfl⟩
      | some statement =>
        have hpresent : Present statement w₁ := by
          have := prepare_present k sql.toList w (congrArg Prod.fst hprepare)
          rw [hprepare] at this
          exact this
        rw [executeAll_cons hcs hprepare, runStepwise_cons hempty hcompile]
        refine .next services (runOnce_agrees services (hhost statement) rfl hpresent) fun w₂ => ?_
        have hshorter := rest_shorter hcs hcuts
        have hrest : (sql.toList.drop found.stop).dropWhile Sql.isSpace <:+ sql.toList :=
          (List.dropWhile_suffix _).trans (List.drop_suffix _ _)
        rw [String.length_toList] at hshorter
        have hagree := ih limit (String.ofList ((sql.toList.drop found.stop).dropWhile Sql.isSpace)) w₂
          (by rw [String.length_ofList]; omega) (by rw [String.length_ofList]; omega)
          (nulError?_suffix hnul hrest)
        rw [String.toList_ofList] at hagree
        rw [skipBlanks, String.toList_ofList]
        exact hagree

/-- A text without a NUL is executed by the engine. -/
theorem execute_run {c : Connection} (hopen : c.native? = some k) {sql : String}
    (hnul : nulError? sql = none) (w : World H) :
    let batch := (Engine.execute hooks k sql.toList).run w
    (c.execute (nativeOn services hooks) sql).run w = (scriptAnswer batch.1, batch.2) := by
  unfold Connection.execute Connection.withNative
  simp only [hopen, hnul, nativeOn, run_bind]
  rcases (Engine.execute hooks k sql.toList).run w with ⟨fault?, w'⟩
  cases fault? <;> rfl

theorem execute_agrees (hhost : ∀ k, HostKeeps hooks (Present k)) {c : Connection}
    (hopen : c.native? = some k) {sql : String} {limit : Nat} (hlimit : sql.length < limit)
    (w : World H) :
    RunsAgree services ((c.execute (nativeOn services hooks) sql).run w)
      ((runStepwise (nativeOn services hooks) c skipBlanks limit sql).run w) := by
  cases hnul : nulError? sql with
  | none =>
    rw [execute_run services hopen hnul]
    exact executeAll_stepwise services hhost hopen (sql.toList.length + 1) limit sql w
      (by rw [String.length_toList]; omega) hlimit hnul
  | some reason =>
    have hempty : sql ≠ "" := by
      rintro rfl
      exact nomatch hnul
    have hexecute : (c.execute (nativeOn services hooks) sql).run w =
        (.error (Connection.nulIn "SQL" reason), w) := by
      unfold Connection.execute Connection.withNative
      simp only [hopen, hnul]
      rfl
    obtain ⟨limit, rfl⟩ : ∃ left, limit = left + 1 := Nat.exists_eq_succ_of_ne_zero (by omega)
    have hcompile := congrArg (StateT.run · w)
      (compile_nul services hooks hopen hnul)
    rw [hexecute, runStepwise_refused hempty hcompile]
    exact ⟨.failure .compiling _, rfl⟩

end Agreement

/-! ## A host that keeps a trace -/

section Tracing

variable {H : Type}

/-- What the engine asks of its host. -/
inductive HostQuestion where
  | request (r : Engine.HostRequest)
  | discard (record slot : Nat)
  | busy (connection attempt : Nat)
  deriving Repr, DecidableEq

/-- A host's state with a trace of what it was asked beside it, the oldest question first. -/
abbrev Traced (H : Type) := Beside H (List HostQuestion)

/-- Answers a question and puts it into the trace. -/
def answerTraced {α : Type} (question : HostQuestion) (x : StateM (World H) α) :
    StateM (World (Traced H)) α := fun t =>
  let (answer, w) := x.run t.plain
  (answer, w.noted (t.host.own ++ [question]))

/-- A host that keeps a trace of all that it is asked. -/
def Engine.Hooks.traced (hooks : Hooks H) : Hooks (Traced H) where
  call record slot args := answerTraced (.request (.call record slot args)) (hooks.call record slot args)
  finish record slot := answerTraced (.request (.finish record slot)) (hooks.finish record slot)
  discard record slot := answerTraced (.discard record slot) (hooks.discard record slot)
  busy connection attempt := answerTraced (.busy connection attempt) (hooks.busy connection attempt)

/-- The services of a host that keeps a trace, in which they leave nothing. -/
def HostServices.traced (services : HostServices H) : HostServices (Traced H) where
  setPolicy connection policy := Engine.unnoted (services.setPolicy connection policy)
  register connection record := Engine.unnoted (services.register connection record)
  declareType record type := Engine.unnoted (services.declareType record type)
  log record := Engine.unnoted (services.log record)

theorem traced_keeps {hooks : Hooks H} {k : Nat} (h : HostKeeps hooks (Present k)) :
    HostKeeps hooks.traced (Present k) where
  call record slot args t ht := h.call record slot args t.plain ht
  finish record slot t ht := h.finish record slot t.plain ht
  discard record slot t ht := h.discard record slot t.plain ht
  busy connection attempt t ht := h.busy connection attempt t.plain ht

/-- Logging leaves no trace. -/
theorem logIfAny_traced (services : HostServices H) (record? : Option LogRecord)
    (t : World (Traced H)) : ((logIfAny services.traced record?).run t).2.host.own = t.host.own := by
  cases record? <;> rfl

end Tracing

/-! ## Sessions -/

/-- A world with one more log record. -/
def SessionWorld.logging (w : SessionWorld) (record? : Option LogRecord) : SessionWorld :=
  { w with host := { w.host with log := record?.toList ++ w.host.log } }

theorem logIfAny_session (record? : Option LogRecord) (w : SessionWorld) :
    ((logIfAny Host.services record?).run w).2 = w.logging record? := by
  cases record? <;> rfl

/-- A table, a function that interrupts its connection, and a query that keeps the interruption
pending, as it has not ended. -/
def interruptible : SessionWorld :=
  ((do
    let _ ← Session.run (.openMemory "a")
    let _ ← Session.run (.execute "a" "CREATE TABLE t(a)")
    let _ ← Session.run (.takeHandle "a" "h")
    let _ ← Session.run (.register "a" "g" 0
      (.scalar fun _ => .interrupt "h" (.setResult (.integer 1) fun _ => .finish .ok)))
    let _ ← Session.run (.compile "a" "SELECT 1 UNION ALL SELECT 2" "s")
    let _ ← Session.run (.step "s")
    return).run SessionWorld.empty).2

end HostSql
