import HostSql.Proofs.Registration.History

/-!
# The codes of declared types

A type is declared by a code and told by one. `ofCode?_eq_some_iff` says that reading a code undoes
writing it: every code from -3 on is the code of one type, and only positions past the largest code
have to share that one. A declaration goes through the connection's registry into the records of the
functions, and from there into the calls that begin later (`Course.run_keeps`). In a call the type
stays what it was at the beginning, however often the closure asks for it and whatever it declares
meanwhile (`Program.typesTold_eq`).

> `type_codes_lawful`: codes and types agree, and later calls are told the code that was declared.
-/

namespace HostSql

open Engine (HostFunction)

variable {σ : Type}

namespace ResultType

/-- A position past the largest code, which is `2 ^ 31 - 1`. -/
def IsPastCodes (t : ResultType) : Prop := ∃ n, t = .argument n ∧ 2147483647 < n.toNat

theorem maxCode_toInt : maxCode.toInt = 2147483647 := rfl

theorem code_argument {n : UInt64} (h : n.toNat ≤ 2147483647) :
    (argument n).code.toInt = n.toNat := by
  have hcode : (argument n).code = Int32.ofNat n.toNat := if_pos h
  rw [hcode]
  exact Int32.toInt_ofNat_of_lt (by omega)

theorem code_pastCodes {n : UInt64} (h : 2147483647 < n.toNat) : (argument n).code = maxCode :=
  if_neg (Nat.not_le.mpr h)

theorem argument_not_pastCodes {n : UInt64} :
    ¬(argument n).IsPastCodes ↔ n.toNat ≤ 2147483647 := by
  constructor
  · exact fun h => Nat.not_lt.mp fun hn => h ⟨n, rfl, hn⟩
  · rintro h ⟨m, ⟨⟩, hm⟩
    omega

/-- A code from zero on names an argument. -/
theorem ofCode?_argument {c : Int32} (h : 0 ≤ c.toInt) :
    ofCode? c = some (.argument (UInt64.ofNat c.toInt.toNat)) := by
  have hne (d : Int32) (hd : d.toInt < 0) : ¬(c == d) = true := by
    rw [beq_iff_eq]
    rintro rfl
    omega
  unfold ofCode?
  rw [if_neg (hne _ (by decide)), if_neg (hne _ (by decide)), if_neg (hne _ (by decide)), if_pos h]

/-- Codes below -3 stand for nothing. -/
theorem ofCode?_none {c : Int32} (h : c.toInt < -3) : ofCode? c = none := by
  have hne (d : Int32) (hd : -3 ≤ d.toInt) : ¬(c == d) = true := by
    rw [beq_iff_eq]
    rintro rfl
    omega
  unfold ofCode?
  rw [if_neg (hne _ (by decide)), if_neg (hne _ (by decide)), if_neg (hne _ (by decide)),
    if_neg (by omega)]

/-- The ranges that codes are told apart by. -/
theorem code_cases (c : Int32) :
    c = -1 ∨ c = -2 ∨ c = -3 ∨ 0 ≤ c.toInt ∨ c.toInt < -3 := by
  have heq (d : Int32) (h : c.toInt = d.toInt) : c = d := Int32.toInt_inj.mp h
  have hone : (-1 : Int32).toInt = -1 := rfl
  have htwo : (-2 : Int32).toInt = -2 := rfl
  have hthree : (-3 : Int32).toInt = -3 := rfl
  by_cases h1 : c.toInt = -1
  · exact .inl (heq _ h1)
  by_cases h2 : c.toInt = -2
  · exact .inr (.inl (heq _ h2))
  by_cases h3 : c.toInt = -3
  · exact .inr (.inr (.inl (heq _ h3)))
  omega

/-- Reading a code undoes writing it. -/
theorem ofCode?_eq_some_iff (c : Int32) (t : ResultType) :
    ofCode? c = some t ↔ ¬t.IsPastCodes ∧ t.code = c := by
  constructor
  · intro h
    rcases code_cases c with rfl | rfl | rfl | hc | hc
    · cases h
      exact ⟨nofun, rfl⟩
    · cases h
      exact ⟨nofun, rfl⟩
    · cases h
      exact ⟨nofun, rfl⟩
    · rw [ofCode?_argument hc] at h
      cases h
      have hbound := c.toInt_lt
      have hposition : (UInt64.ofNat c.toInt.toNat).toNat = c.toInt.toNat :=
        UInt64.toNat_ofNat_of_lt' (show c.toInt.toNat < UInt64.size by simp only [UInt64.size]; omega)
      have hle : (UInt64.ofNat c.toInt.toNat).toNat ≤ 2147483647 := by omega
      refine ⟨argument_not_pastCodes.mpr hle, Int32.toInt_inj.mp ?_⟩
      rw [code_argument hle]
      omega
    · rw [ofCode?_none hc] at h
      cases h
  · rintro ⟨hown, rfl⟩
    cases t with
    | numeric => rfl
    | text => rfl
    | args => rfl
    | argument n =>
      have hcode := code_argument (argument_not_pastCodes.mp hown)
      rw [ofCode?_argument (by omega), hcode, Int.toNat_natCast, UInt64.ofNat_toNat]

/-- The codes that stand for types. -/
theorem ofCode?_isSome_iff (c : Int32) : (∃ t, ofCode? c = some t) ↔ -3 ≤ c.toInt := by
  rcases code_cases c with rfl | rfl | rfl | hc | hc
  · exact iff_of_true ⟨_, rfl⟩ (by decide)
  · exact iff_of_true ⟨_, rfl⟩ (by decide)
  · exact iff_of_true ⟨_, rfl⟩ (by decide)
  · exact iff_of_true ⟨_, ofCode?_argument hc⟩ (by omega)
  · refine iff_of_false ?_ (by omega)
    rw [ofCode?_none hc]
    exact nofun

end ResultType

/-! ## What closures are told -/

/-- The types that a closure is told whenever it asks for its declared type, from a world on. -/
def Program.typesTold (a : Ambient σ) (call : Call) : Program → Frame → σ → List ResultType
  | finish _, _, _ => []
  | setResult v next, f, w =>
    (next (call.setResult f.pending v).1).typesTold a call
      { f with pending := (call.setResult f.pending v).2 } w
  | setError message next, f, w =>
    next.typesTold a call { f with pending := f.pending.setError message } w
  | readState next, f, w => (next (f.ofGroup (·.state))).typesTold a call f w
  | insert key v next, f, w => (next (f.insert key v).1).typesTold a call (f.insert key v).2 w
  | readCount next, f, w => (next (f.ofGroup (·.rows))).typesTold a call f w
  | readType next, f, w => call.resultType :: (next call.resultType).typesTold a call f w
  | emit event next, f, w => next.typesTold a call f ((a.emit event).run w).2
  | interrupt handle next, f, w => next.typesTold a call f ((a.interrupt handle).run w).2
  | execute c sql next, f, w =>
    (next ((a.execute c sql).run w).1).typesTold a call f ((a.execute c sql).run w).2
  | query c sql next, f, w =>
    (next ((a.query c sql).run w).1).typesTold a call f ((a.query c sql).run w).2
  | declare c name type next, f, w =>
    (next ((a.declare c name type).run w).1).typesTold a call f ((a.declare c name type).run w).2
  | register c name arity callbacks next, f, w =>
    (next ((a.register c name arity callbacks).run w).1).typesTold a call f
      ((a.register c name arity callbacks).run w).2

/-- A closure is told the type of its call, whenever it asks. -/
theorem Program.typesTold_eq (a : Ambient σ) (call : Call) {t : ResultType} :
    ∀ (p : Program) (f : Frame) (w : σ), t ∈ p.typesTold a call f w → t = call.resultType
  | .finish _, _, _ => nofun
  | .setResult v next, _, w => typesTold_eq a call (next _) _ w
  | .setError _ next, _, w => typesTold_eq a call next _ w
  | .readState next, f, w => typesTold_eq a call (next _) f w
  | .insert _ _ next, _, w => typesTold_eq a call (next _) _ w
  | .readCount next, f, w => typesTold_eq a call (next _) f w
  | .readType next, f, w => fun h => by
    rcases List.mem_cons.mp h with rfl | h
    · rfl
    · exact typesTold_eq a call (next _) f w h
  | .emit _ next, f, _ => typesTold_eq a call next f _
  | .interrupt _ next, f, _ => typesTold_eq a call next f _
  | .execute _ _ next, f, _ => typesTold_eq a call (next _) f _
  | .query _ _ next, f, _ => typesTold_eq a call (next _) f _
  | .declare _ _ _ next, f, _ => typesTold_eq a call (next _) f _
  | .register _ _ _ _ next, f, _ => typesTold_eq a call (next _) f _

/-! ## What is current after a declaration -/

/-- Whether an event changes the type of a function: a function of its folded name and arity is
registered, or a type is declared for its name. -/
def FunctionEvent.Retypes (name : String) (arity : Int) : FunctionEvent → Prop
  | registered function n _ _ (.ok _) => FunctionRegistry.key function = name ∧ n.toInt = arity
  | declared function _ (.ok _) => FunctionRegistry.key function = name
  | _ => False

/-- A declared type stays current until something changes it. -/
theorem current_declared {name function : String} {arity : Int32} {type t : ResultType}
    {callbacks : Callbacks} {later earlier : List FunctionEvent}
    (hname : FunctionRegistry.key function = name)
    (hlater : ∀ event ∈ later, ¬event.Retypes name arity.toInt)
    (h : current name arity (later ++ .declared function type (.ok ()) :: earlier) =
      some (callbacks, t)) : t = type := by
  induction later with
  | nil =>
    have hcurrent : (current name arity earlier).map (fun p =>
        (p.1, if FunctionRegistry.key function = name then type else p.2)) =
        some (callbacks, t) := h
    obtain ⟨old, -, hnew⟩ := Option.map_eq_some_iff.mp hcurrent
    have htype := (Prod.mk.inj hnew).2
    rw [if_pos hname] at htype
    exact htype.symm
  | cons event later ih =>
    have hevent := hlater event List.mem_cons_self
    refine ih (fun e he => hlater e (List.mem_cons_of_mem _ he)) ?_
    rw [← h]
    cases event with
    | registered other n others inUse answer =>
      cases answer with
      | error e => rfl
      | ok _ =>
        have hother : ¬(FunctionRegistry.key other = name ∧ n = arity) :=
          fun hsame => hevent ⟨hsame.1, congrArg Int32.toInt hsame.2⟩
        rw [List.cons_append]
        simp only [current, if_neg hother]
    | declared other otherType answer =>
      cases answer with
      | error e => rfl
      | ok _ =>
        have hother : ¬FunctionRegistry.key other = name := hevent
        rw [List.cons_append]
        simp only [current, if_neg hother, Option.map_id']
    | invoked f invocation callee? => rfl
    | replied callee? reply => rfl

/-- An event of a past is right after the ones before it. -/
theorem AllRight.right {event : FunctionEvent} {before : List FunctionEvent} :
    ∀ {after : List FunctionEvent}, AllRight (after ++ event :: before) → event.Right before
  | [], .next h _ => h
  | _ :: _, .next _ h => h.right

/-! ## What is promised of type codes -/

/-- What is expected of the codes of types. -/
structure TypeCodesLawful : Prop where
  /-- A code stands for a type from -3 on. -/
  read : ∀ c : Int32, (∃ t, ResultType.ofCode? c = some t) ↔ -3 ≤ c.toInt
  code : ∀ (c : Int32) t, ResultType.ofCode? c = some t → t.code = c
  /-- A type is read back from its code, unless it is past the codes. -/
  back : ∀ t : ResultType, ResultType.ofCode? t.code = some t ↔ ¬t.IsPastCodes
  /-- Positions past the codes have the largest code, which stands for the largest position. -/
  saturated : ∀ t : ResultType, t.IsPastCodes → t.code.toInt = 2147483647 ∧
    ResultType.ofCode? t.code = some (.argument 2147483647)
  distinct : ∀ t u : ResultType, ¬t.IsPastCodes → ¬u.IsPastCodes → t.code = u.code → t = u
  /-- On any connection and in any course of events on it, a call that begins after a type was declared
  by a code is told this code, however often it asks, if nothing has changed the type in between. -/
  told : ∀ (o : Watched) (w : SessionWorld) (c : Course o), o.Opened w →
    ∀ (code : Int32) (type : ResultType), ResultType.ofCode? code = some type →
    ∀ (name : String) (f : HostFunction) (invocation : Invocation) (callee : Callee)
      (after later before : List FunctionEvent),
    (c.run.run ⟨w, .start⟩).2.own.past =
      after ++ .invoked f invocation (some callee) ::
        (later ++ .declared name type (.ok ()) :: before) →
    FunctionRegistry.key f.name = FunctionRegistry.key name →
    (∀ event ∈ later, ¬event.Retypes (FunctionRegistry.key f.name) f.arity) →
    callee.call.resultType.code = code ∧
      ∀ (σ : Type) (a : Ambient σ) frame w,
        ∀ t ∈ callee.body.typesTold a callee.call frame w, t.code = code

/-- Codes and types agree, and what is declared by a code is told by it. -/
theorem type_codes_lawful : TypeCodesLawful where
  read := ResultType.ofCode?_isSome_iff
  code c t h := ((ResultType.ofCode?_eq_some_iff c t).mp h).2
  back t := (ResultType.ofCode?_eq_some_iff t.code t).trans (and_iff_left rfl)
  saturated := by
    rintro _ ⟨n, rfl, hn⟩
    rw [ResultType.code_pastCodes hn]
    exact ⟨ResultType.maxCode_toInt, rfl⟩
  distinct t u ht hu hsame := by
    have htCode := (ResultType.ofCode?_eq_some_iff u.code t).mpr ⟨ht, hsame⟩
    have huCode := (ResultType.ofCode?_eq_some_iff u.code u).mpr ⟨hu, rfl⟩
    exact Option.some.inj (htCode.symm.trans huCode)
  told o w c hopened code type hcode name f invocation callee after later before hpast hname
      hlater := by
    have hall : AllRight (c.run.run ⟨w, .start⟩).2.own.past :=
      (c.run_keeps _ hopened.sound).right
    rw [hpast] at hall
    obtain ⟨arity, callbacks, told, harity, hcurrent, hcallee⟩ := hall.right
    rw [harity] at hlater
    have htold : told = type := current_declared hname.symm hlater hcurrent
    have hcall : callee.call.resultType = type := by
      cases hclosure : callbacks.closure? invocation with
      | none =>
        rw [hclosure] at hcallee
        cases hcallee
      | some body =>
        rw [hclosure, htold] at hcallee
        exact (Prod.mk.inj (Option.some.inj hcallee)).2
    have hsame := ((ResultType.ofCode?_eq_some_iff code type).mp hcode).2
    refine ⟨by rw [hcall, hsame], fun σ a frame w t ht => ?_⟩
    rw [Program.typesTold_eq a callee.call callee.body frame w ht, hcall, hsame]

end HostSql
