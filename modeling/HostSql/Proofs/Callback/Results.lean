import HostSql.Proofs.Callback.Containment

/-!
# Setting a result

A closure sets a value as its result. Blobs and nulls are refused, and then nothing has happened; any
other value is coerced as the function's declared type asks for in this call, and handed to the engine.
A type that names an argument asks for what the class of that argument says (`AsksFor`).

> `results_lawful`: what setting any value does, whatever the declared type and the arguments are, in
> the middle of whatever else a closure does, and what the engine gets in the end.

The arguments' classes are those that the engine's values have, and at the end of a group there are
no arguments (`callee?_call`, `callee?_finish`).
-/

namespace HostSql

open Engine (Datum HostRequest)

variable {σ : Type}

/-! ## What a declared type asks for -/

namespace ResultType

/-- What a declared type comes to in a call with some arguments. -/
inductive AsksFor (args : List Datum) : ResultType → ResultType → Prop
  | numeric : AsksFor args .numeric .numeric
  | text : AsksFor args .text .text
  | args : AsksFor args .args .args
  | number {n : UInt64} {d : Datum} (h : args[n.toNat]? = some d)
      (hd : d.storageClass = .integer ∨ d.storageClass = .float) :
      AsksFor args (.argument n) .numeric
  | words {n : UInt64} {d : Datum} (h : args[n.toNat]? = some d) (hd : d.storageClass = .text) :
      AsksFor args (.argument n) .text
  | neither {n : UInt64} {d : Datum} (h : args[n.toNat]? = some d)
      (hd : d.storageClass = .blob ∨ d.storageClass = .null) : AsksFor args (.argument n) .args
  | absent {n : UInt64} (h : args[n.toNat]? = none) : AsksFor args (.argument n) .args

variable {args : List Datum} {t : ResultType}

theorem AsksFor.exists (args : List Datum) (t : ResultType) : ∃ u, AsksFor args t u := by
  cases t with
  | numeric => exact ⟨_, .numeric⟩
  | text => exact ⟨_, .text⟩
  | args => exact ⟨_, .args⟩
  | argument n =>
    cases h : args[n.toNat]? with
    | none => exact ⟨_, .absent h⟩
    | some d =>
      cases hd : d.storageClass with
      | integer => exact ⟨_, .number h (.inl hd)⟩
      | float => exact ⟨_, .number h (.inr hd)⟩
      | text => exact ⟨_, .words h hd⟩
      | blob => exact ⟨_, .neither h (.inl hd)⟩
      | null => exact ⟨_, .neither h (.inr hd)⟩

/-- The target of a coercion is what the declared type asks for. -/
theorem target?_of_asksFor {u : ResultType} (h : AsksFor args t u) :
    t.target? (args.map Datum.storageClass) = u.target? (args.map Datum.storageClass) := by
  cases h with
  | numeric => rfl
  | text => rfl
  | args => rfl
  | number h hd => rcases hd with hd | hd <;> simp [target?, h, hd]
  | words h hd => simp [target?, h, hd]
  | neither h hd => rcases hd with hd | hd <;> simp [target?, h, hd]
  | absent h => simp [target?, h]

/-- What a declared type asks for is one thing. -/
theorem AsksFor.unique {u u' : ResultType} (h : AsksFor args t u) (h' : AsksFor args t u') :
    u = u' := by
  have htarget : u.target? (args.map Datum.storageClass) =
      u'.target? (args.map Datum.storageClass) :=
    (target?_of_asksFor h).symm.trans (target?_of_asksFor h')
  cases h <;> cases h' <;> first | rfl | cases htarget

/-! ## Coercions -/

section Coerce

variable {classes : List StorageClass} {v : Value}

theorem coerce_of_target {u : ResultType} (h : t.target? classes = u.target? classes) (v : Value) :
    t.coerce v classes = u.coerce v classes := by
  unfold coerce
  rw [h]

/-- Numbers that texts are read as are integers or doubles that are not NaN. -/
theorem numericValue?_kind {s : String} (h : numericValue? s = some v) :
    (∃ n, v = .integer n) ∨ ∃ x : Binary64, v = .float x ∧ x.isNaN = false := by
  have hnearest {x : Binary64} (h : (if x.isFinite then some (Value.float x) else none) = some v) :
      ∃ x : Binary64, v = .float x ∧ x.isNaN = false := by
    split at h
    · next hfinite =>
      refine ⟨x, (Option.some.inj h).symm, ?_⟩
      simp only [Binary64.isFinite, Binary64.isNaN, decide_eq_true_eq, decide_eq_false_iff_not]
        at hfinite ⊢
      omega
    · cases h
  unfold numericValue? at h
  split at h
  · cases h
  · dsimp only at h
    split at h
    · split at h
      · exact .inl ⟨_, (Option.some.inj h).symm⟩
      · exact .inr (hnearest h)
    · exact .inr (hnearest h)

/-- A numeric text becomes its number, and nothing else changes. -/
theorem coerce_numeric (v : Value) (classes : List StorageClass) :
    (∃ s n, v = .text s ∧ numericValue? s = some n ∧ coerce .numeric v classes = n) ∨
      (∀ s n, v = .text s → numericValue? s ≠ some n) ∧ coerce .numeric v classes = v := by
  cases v with
  | text s =>
    have hcoerce : coerce .numeric (.text s) classes = (numericValue? s).getD (.text s) := rfl
    cases h : numericValue? s with
    | some n =>
      rw [h, Option.getD_some] at hcoerce
      exact .inl ⟨s, n, rfl, h, hcoerce⟩
    | none =>
      rw [h, Option.getD_none] at hcoerce
      refine .inr ⟨fun s' n hs => ?_, hcoerce⟩
      cases hs
      rw [h]
      exact nofun
  | integer n => exact .inr ⟨fun s n hs => Value.noConfusion hs, rfl⟩
  | float x => exact .inr ⟨fun s n hs => Value.noConfusion hs, rfl⟩
  | blob bytes => exact .inr ⟨fun s n hs => Value.noConfusion hs, rfl⟩
  | null => exact .inr ⟨fun s n hs => Value.noConfusion hs, rfl⟩

end Coerce

end ResultType

/-- Whether a value is a number. -/
def Value.isNumber : Value → Bool
  | .integer _ | .float _ => true
  | _ => false

namespace ResultType

/-- A number becomes its text, and nothing else changes. -/
theorem coerce_text (v : Value) (classes : List StorageClass) :
    coerce .text v classes = if v.isNumber then .text v.display else v := by
  cases v <;> rfl

theorem coerce_args (v : Value) (classes : List StorageClass) : coerce .args v classes = v := by
  cases v <;> rfl

/-- The value that is handed to the engine for a value that is set. -/
def coerced (t : ResultType) (args : List Datum) (v : Value) : Value :=
  t.coerce v (args.map Datum.storageClass)

theorem coerced_of_asksFor {args : List Datum} {t u : ResultType} (h : AsksFor args t u) (v : Value) :
    t.coerced args v = u.coerced args v :=
  coerce_of_target (target?_of_asksFor h) v

/-- A coercion either leaves a value as it is, or makes a number of a text, or a text of a number. -/
theorem coerced_cases (t : ResultType) (args : List Datum) (v : Value) :
    t.coerced args v = v ∨
      (AsksFor args t .numeric ∧ ∃ s n, v = .text s ∧ numericValue? s = some n ∧
        t.coerced args v = n) ∨
      (AsksFor args t .text ∧ v.isNumber = true ∧ t.coerced args v = .text v.display) := by
  obtain ⟨u, hu⟩ := AsksFor.exists args t
  rw [coerced_of_asksFor hu]
  have hform : u = .numeric ∨ u = .text ∨ u = .args := by
    cases hu <;> simp
  rcases hform with rfl | rfl | rfl
  · rcases coerce_numeric v (args.map Datum.storageClass) with ⟨s, n, hs, hn, h⟩ | ⟨-, h⟩
    · exact .inr (.inl ⟨hu, s, n, hs, hn, h⟩)
    · exact .inl h
  · have h := coerce_text v (args.map Datum.storageClass)
    by_cases hnumber : v.isNumber = true
    · rw [if_pos hnumber] at h
      exact .inr (.inr ⟨hu, hnumber, h⟩)
    · rw [if_neg hnumber] at h
      exact .inl h
  · exact .inl (coerce_args v _)

/-- What has been coerced is not coerced again. -/
theorem coerced_again (t : ResultType) (args : List Datum) (v : Value) :
    t.coerced args (t.coerced args v) = t.coerced args v := by
  rcases coerced_cases t args v with h | ⟨ht, s, n, -, hn, h⟩ | ⟨ht, -, h⟩
  · rw [h, h]
  · -- a number that a text was read as is no text
    rw [h, coerced_of_asksFor ht]
    rcases numericValue?_kind hn with ⟨n, rfl⟩ | ⟨x, rfl, -⟩
    · rfl
    · rfl
  · rw [h, coerced_of_asksFor ht]
    rfl

end ResultType

/-! ## What is expected -/

open ResultType (AsksFor)

/-- Setting a value as the result of a call with some arguments. -/
structure SettingLawful (t : ResultType) (args : List Datum) (v : Value) : Prop where
  /-- Blobs and nulls are refused, and nothing has happened then. -/
  refused : v = .null ∨ (∃ bytes, v = .blob bytes) → ∀ p,
    (Call.mk t (args.map Datum.storageClass)).setResult p v =
      (.error (.badResultType v.typeName), p)
  /-- Any other value is given back, and coerced it is the result so far. -/
  taken : ¬ (v = .null ∨ ∃ bytes, v = .blob bytes) → ∀ p,
    (Call.mk t (args.map Datum.storageClass)).setResult p v =
      (.ok v, { p with value := .ofValue (t.coerced args v) })
  /-- A declared type asks for one thing. -/
  asks : ∃ u, AsksFor args t u ∧ ∀ u', AsksFor args t u' → u' = u
  number : AsksFor args t .numeric → ∀ s n, v = .text s → numericValue? s = some n →
    t.coerced args v = n
  text : AsksFor args t .text → v.isNumber = true → t.coerced args v = .text v.display
  kept : ¬ (AsksFor args t .numeric ∧ ∃ s n, v = .text s ∧ numericValue? s = some n) →
    ¬ (AsksFor args t .text ∧ v.isNumber = true) → t.coerced args v = v
  /-- A coerced value is a text, an integer or a double, and so is what the engine stores, except
  that it has no NaN. -/
  stored : ¬ (v = .null ∨ ∃ bytes, v = .blob bytes) →
    (∃ s, t.coerced args v = .text s ∧ Datum.ofValue (t.coerced args v) = .text (Utf8.encode s)) ∨
    (∃ n, t.coerced args v = .integer n ∧ Datum.ofValue (t.coerced args v) = .integer n) ∨
    ∃ x : Binary64, t.coerced args v = .float x ∧
      Datum.ofValue (t.coerced args v) = if x.isNaN then .null else .real x
  /-- The engine stores nothing for a NaN that does not become a text, and only then. -/
  nothing : ¬ (v = .null ∨ ∃ bytes, v = .blob bytes) →
    (Datum.ofValue (t.coerced args v) = .null ↔
      (∃ x : Binary64, v = .float x ∧ x.isNaN = true) ∧ ¬ AsksFor args t .text)
  again : t.coerced args (t.coerced args v) = t.coerced args v

theorem Value.isResult_iff (v : Value) :
    v.isResult = true ↔ ¬ (v = .null ∨ ∃ bytes, v = .blob bytes) := by
  cases v <;> simp [Value.isResult]

/-- The engine's value of a result. -/
theorem Datum.ofValue_of_isResult {v : Value} (h : v.isResult = true) :
    (∃ s, v = .text s ∧ Datum.ofValue v = .text (Utf8.encode s)) ∨
    (∃ n, v = .integer n ∧ Datum.ofValue v = .integer n) ∨
    ∃ x : Binary64, v = .float x ∧ Datum.ofValue v = if x.isNaN then .null else .real x := by
  cases v with
  | text s => exact .inl ⟨s, rfl, rfl⟩
  | integer n => exact .inr (.inl ⟨n, rfl, rfl⟩)
  | float x => exact .inr (.inr ⟨x, rfl, rfl⟩)
  | blob bytes => cases h
  | null => cases h

/-- What a result is coerced to is a result. -/
theorem ResultType.coerced_isResult (t : ResultType) (args : List Datum) {v : Value}
    (h : v.isResult = true) : (t.coerced args v).isResult = true := by
  rcases t.coerced_cases args v with hkept | ⟨-, s, n, -, hn, hnumber⟩ | ⟨-, -, htext⟩
  · rw [hkept]
    exact h
  · rw [hnumber]
    rcases ResultType.numericValue?_kind hn with ⟨n, rfl⟩ | ⟨x, rfl, -⟩
    · rfl
    · rfl
  · rw [htext]
    rfl

/-- A coercion makes no NaN, and leaves one a double unless it makes it a text. -/
theorem ResultType.coerced_nan (t : ResultType) (args : List Datum) (v : Value) :
    (∃ x : Binary64, t.coerced args v = .float x ∧ x.isNaN = true) ↔
      (∃ x : Binary64, v = .float x ∧ x.isNaN = true) ∧ ¬ AsksFor args t .text := by
  constructor
  · rintro ⟨x, hx, hnan⟩
    rcases t.coerced_cases args v with hkept | ⟨-, s, n, -, hn, hnumber⟩ | ⟨-, -, htext⟩
    · have hv : v = .float x := hkept.symm.trans hx
      refine ⟨⟨x, hv, hnan⟩, fun htext => ?_⟩
      rw [ResultType.coerced_of_asksFor htext, hv] at hx
      cases hx
    · rcases ResultType.numericValue?_kind hn with ⟨n, rfl⟩ | ⟨y, rfl, hy⟩
      · cases hnumber.symm.trans hx
      · cases hnumber.symm.trans hx
        rw [hy] at hnan
        cases hnan
    · cases htext.symm.trans hx
  · rintro ⟨⟨x, rfl, hnan⟩, htext⟩
    refine ⟨x, ?_, hnan⟩
    rcases t.coerced_cases args (.float x) with hkept | ⟨-, s, n, hs, -⟩ | ⟨h, -⟩
    · exact hkept
    · cases hs
    · exact absurd h htext

/-- Setting a result, for every declared type, all arguments and every value. -/
theorem settingLawful (t : ResultType) (args : List Datum) (v : Value) : SettingLawful t args v where
  refused h p := by
    unfold Call.setResult
    rw [if_neg fun hresult => (v.isResult_iff.mp hresult) h]
  taken h p := by
    unfold Call.setResult
    rw [if_pos (v.isResult_iff.mpr h)]
    rfl
  asks := by
    obtain ⟨u, hu⟩ := AsksFor.exists args t
    exact ⟨u, hu, fun u' hu' => hu'.unique hu⟩
  number ht s n hs hn := by
    rw [ResultType.coerced_of_asksFor ht]
    rcases ResultType.coerce_numeric v (args.map Datum.storageClass) with
      ⟨s', n', hs', hn', h⟩ | ⟨hnone, -⟩
    · cases hs.symm.trans hs'
      exact h.trans (Option.some.inj (hn'.symm.trans hn))
    · exact absurd hn (hnone s n hs)
  text ht hv := by
    rw [ResultType.coerced_of_asksFor ht]
    exact (ResultType.coerce_text v _).trans (if_pos hv)
  kept hnumber htext := by
    rcases t.coerced_cases args v with h | ⟨ht, s, n, hs, hn, -⟩ | ⟨ht, hv, -⟩
    · exact h
    · exact absurd ⟨ht, s, n, hs, hn⟩ hnumber
    · exact absurd ⟨ht, hv⟩ htext
  stored h := Datum.ofValue_of_isResult (t.coerced_isResult args (v.isResult_iff.mpr h))
  nothing h := by
    rw [← t.coerced_nan args v]
    rcases Datum.ofValue_of_isResult (t.coerced_isResult args (v.isResult_iff.mpr h)) with
      ⟨s, hs, hstored⟩ | ⟨n, hn, hstored⟩ | ⟨x, hx, hstored⟩
    · rw [hstored, hs]
      exact ⟨nofun, fun ⟨x, hx, _⟩ => nomatch hx⟩
    · rw [hstored, hn]
      exact ⟨nofun, fun ⟨x, hx, _⟩ => nomatch hx⟩
    · rw [hstored, hx]
      cases hnan : x.isNaN with
      | true => exact ⟨fun _ => ⟨x, rfl, hnan⟩, fun _ => rfl⟩
      | false =>
        refine ⟨nofun, fun ⟨y, hy, hy'⟩ => ?_⟩
        cases hy
        rw [hnan] at hy'
        cases hy'
  again := t.coerced_again args v

/-! ## In calls -/

/-- The closure of a function that runs for a row. -/
def Callbacks.onRow : Callbacks → (texts : List (Option String)) → Program
  | .scalar body => body
  | .aggregate step _ => step

section Calls

variable {a : Ambient σ} {record : Nat} {slot : Option Nat} {args : List Datum} {w w' : σ}
  {c : Callee}

/-- A closure that is called for a row is given the texts of the arguments, and is told the declared
type and the classes of the arguments. -/
theorem callee?_call (h : (a.callee? (.call record slot args)).run w = (some c, w')) :
    ∃ r, ((a.record? record).run w).1 = some r ∧
      c.call = ⟨r.resultType, args.map Datum.storageClass⟩ ∧
      c.body = r.callbacks.onRow (args.map Datum.readText?) := by
  unfold Ambient.callee? at h
  rw [run_bind] at h
  rcases hfound : (a.record? record).run w with ⟨r?, w₁⟩
  rw [hfound] at h
  cases r? with
  | none => cases h
  | some r =>
    refine ⟨r, rfl, ?_⟩
    dsimp only at h
    cases hcallbacks : r.callbacks with
    | scalar body =>
      rw [hcallbacks] at h
      cases h
      exact ⟨rfl, rfl⟩
    | aggregate step final =>
      rw [hcallbacks] at h
      simp only [run_bind] at h
      cases h
      exact ⟨rfl, rfl⟩

/-- At the end of a group there are no arguments. -/
theorem callee?_finish (h : (a.callee? (.finish record slot)).run w = (some c, w')) :
    ∃ r, ((a.record? record).run w).1 = some r ∧ c.call = ⟨r.resultType, []⟩ := by
  unfold Ambient.callee? at h
  rw [run_bind] at h
  rcases hfound : (a.record? record).run w with ⟨r?, w₁⟩
  rw [hfound] at h
  cases r? with
  | none => cases h
  | some r =>
    refine ⟨r, rfl, ?_⟩
    dsimp only at h
    cases hcallbacks : r.callbacks with
    | scalar body =>
      rw [hcallbacks] at h
      cases h
    | aggregate step final =>
      rw [hcallbacks] at h
      simp only [run_bind] at h
      cases h
      rfl

/-- What the engine gets from a closure that ends well and has set no error. -/
theorem Call.Lawful.last {t : ResultType} {settings : List Setting} {diagnostic : String}
    {result : Except String Datum} {v : Value}
    (h : (Call.mk t (args.map Datum.storageClass)).Lawful settings .ok diagnostic result)
    (herror : settings.any (·.isError) = false) (hv : lastAccepted? settings = some v) :
    result = .ok (.ofValue (t.coerced args v)) := by
  rw [h.value rfl herror]
  unfold Call.resultOf
  rw [hv]
  rfl

end Calls

/-- What is promised of results that closures set in an ambient. -/
structure Ambient.SetsResults (a : Ambient σ) : Prop where
  setting : ∀ t args v, SettingLawful t args v
  /-- A closure that sets a value goes on with the answer, and nothing but the result so far has
  changed. -/
  goesOn : ∀ call v next f w, ((Program.setResult v next).run a call f).run w =
    ((next (call.setResult f.pending v).1).run a call
      { f with pending := (call.setResult f.pending v).2 }).run w
  /-- The settings in a row's closure are those of a call with the row's arguments, and the last
  value that was not refused, coerced, is what the engine gets if the closure ends well. -/
  row : ∀ record slot args w c w', (a.callee? (.call record slot args)).run w = (some c, w') →
    ∃ r, ((a.record? record).run w).1 = some r ∧
      c.call = ⟨r.resultType, args.map Datum.storageClass⟩ ∧
      ∀ v, ((c.body.run a c.call (.start c.group)).run w').1.1 = .ok →
        (c.body.settings a c.call (.start c.group) w').any (·.isError) = false →
        lastAccepted? (c.body.settings a c.call (.start c.group) w') = some v →
        ((callFunction a record slot args).run w).1.result =
          .ok (.ofValue (r.resultType.coerced args v))
  /-- At the end of a group it is the same, with no arguments. -/
  groupEnd : ∀ record slot w c w', (a.callee? (.finish record slot)).run w = (some c, w') →
    ∃ r, ((a.record? record).run w).1 = some r ∧ c.call = ⟨r.resultType, []⟩ ∧
      ∀ v, ((c.body.run a c.call (.start c.group)).run w').1.1 = .ok →
        (c.body.settings a c.call (.start c.group) w').any (·.isError) = false →
        lastAccepted? (c.body.settings a c.call (.start c.group) w') = some v →
        ((finishGroup a record slot).run w).1.result =
          .ok (.ofValue (r.resultType.coerced [] v))
  /-- A type that names an argument asks for nothing then. -/
  noArguments : ∀ n, AsksFor [] (.argument n) .args

end HostSql
