import HostSql.OpenFlags

/-!
# Which open modes are accepted

A mode is looked at bit by bit. Every named flag is one bit and no two share it, so a mode is known by
the flags that it has, and a union of flags has exactly the flags that went into it.

> `modes_lawful`: which modes are accepted, why the others are refused, and what an accepted mode
> contains; the same for unions of flags.

`ofMode` tests with masks. `and_not_eq_zero`, `and_eq_self` and `and_union_eq` say of the three forms of
its tests which flags they ask for.
-/

namespace HostSql.OpenFlags

/-! ## Bits -/

/-- Whether a bit is set. -/
def hasBit (m : Int32) (i : Nat) : Bool := m.toBitVec.getLsbD i

@[simp]
theorem hasBit_and (m k : Int32) (i : Nat) : hasBit (m &&& k) i = (hasBit m i && hasBit k i) := by
  simp [hasBit]

@[simp]
theorem hasBit_or (m k : Int32) (i : Nat) : hasBit (m ||| k) i = (hasBit m i || hasBit k i) := by
  simp [hasBit]

@[simp]
theorem hasBit_zero (i : Nat) : hasBit 0 i = false := by
  simp [hasBit]

theorem hasBit_lt {m : Int32} {i : Nat} (h : hasBit m i = true) : i < 32 :=
  BitVec.lt_of_getLsbD h

theorem hasBit_not {m : Int32} {i : Nat} (hi : i < 32) : hasBit (~~~m) i = !hasBit m i := by
  simp [hasBit, hi]

/-- Modes with the same bits are the same. -/
theorem ext_bits {m k : Int32} (h : ∀ i, hasBit m i = hasBit k i) : m = k :=
  Int32.toBitVec_inj.mp (BitVec.eq_of_getLsbD_eq fun i _ => h i)

/-- A mode has a flag when it has all of its bits. -/
def Has (m : Int32) (f : OpenFlags) : Prop := ∀ i, hasBit f.bits i = true → hasBit m i = true

/-! ## Flags -/

/-- The flags that have names. -/
def flags : List OpenFlags := named.map (·.2)

/-- The flags that say how the database may be used. -/
def accessFlags : List OpenFlags := [readOnly, readWrite, create]

theorem accessFlags_named : ∀ f ∈ accessFlags, f ∈ flags := by decide

/-- Each flag is a single bit. -/
theorem flag_twoPow : ∀ f ∈ flags, ∃ k < 32, f.bits.toBitVec = BitVec.twoPow 32 k := by decide

/-- The bit of a flag. -/
theorem exists_bit {f : OpenFlags} (hf : f ∈ flags) : ∃ k, ∀ i, hasBit f.bits i = true ↔ i = k := by
  obtain ⟨k, hk, hbits⟩ := flag_twoPow f hf
  refine ⟨k, fun i => ?_⟩
  unfold hasBit
  rw [hbits, BitVec.getLsbD_twoPow]
  simp only [Bool.and_eq_true, decide_eq_true_eq]
  exact ⟨fun h => h.2.symm, fun h => ⟨by omega, h.symm⟩⟩

/-- Having a flag is having one of its bits. -/
theorem has_iff {f : OpenFlags} (hf : f ∈ flags) {i : Nat} (hi : hasBit f.bits i = true)
    (m : Int32) : Has m f ↔ hasBit m i = true := by
  obtain ⟨k, hk⟩ := exists_bit hf
  have hik := (hk i).mp hi
  refine ⟨fun h => h i hi, fun h j hj => ?_⟩
  rw [(hk j).mp hj, ← hik]
  exact h

/-- Flags that share a bit are the same. -/
theorem flag_unique {f g : OpenFlags} (hf : f ∈ flags) (hg : g ∈ flags) {i : Nat}
    (hfi : hasBit f.bits i = true) (hgi : hasBit g.bits i = true) : f = g := by
  have hapart : ∀ f ∈ flags, ∀ g ∈ flags, f.bits &&& g.bits ≠ 0 → f = g := by decide
  refine hapart f hf g hg fun hzero => ?_
  have hbit := congrArg (hasBit · i) hzero
  simp [hfi, hgi] at hbit

theorem hasBit_known (i : Nat) :
    hasBit knownBits i = true ↔ ∃ f ∈ flags, hasBit f.bits i = true := by
  simp [knownBits, accessBits, mutexBits, flags, named, or_assoc]

theorem hasBit_access (i : Nat) :
    hasBit accessBits i = true ↔ ∃ f ∈ accessFlags, hasBit f.bits i = true := by
  simp [accessBits, accessFlags, or_assoc]

/-! ## The three tests -/

/-- No bit lies outside a mask. -/
theorem and_not_eq_zero (m k : Int32) :
    m &&& ~~~k = 0 ↔ ∀ i, hasBit m i = true → hasBit k i = true := by
  refine ⟨fun h i hi => ?_, fun h => ext_bits fun i => ?_⟩
  · have hbit := congrArg (hasBit · i) h
    simpa [hasBit_not (hasBit_lt hi), hi] using hbit
  · cases hi : hasBit m i with
    | false => simp [hi]
    | true => simp [hasBit_not (hasBit_lt hi), h i hi]

/-- All bits of a mask are set. -/
theorem and_eq_self (m : Int32) (f : OpenFlags) : m &&& f.bits = f.bits ↔ Has m f := by
  refine ⟨fun h i hi => ?_, fun h => ext_bits fun i => ?_⟩
  · have hbit := congrArg (hasBit · i) h
    simpa [hi] using hbit
  · cases hi : hasBit f.bits i with
    | false => simp [hi]
    | true => simp [hi, h i hi]

/-- Of some flags a mode has the same as another one that has no bits besides. -/
theorem and_union_eq {fs : List OpenFlags} (hfs : ∀ f ∈ fs, f ∈ flags) {k a : Int32}
    (hk : ∀ i, hasBit k i = true ↔ ∃ f ∈ fs, hasBit f.bits i = true)
    (ha : ∀ i, hasBit a i = true → hasBit k i = true) (m : Int32) :
    m &&& k = a ↔ ∀ f ∈ fs, (Has m f ↔ Has a f) := by
  refine ⟨fun h f hf => ?_, fun h => ext_bits fun i => ?_⟩
  · obtain ⟨i, hi⟩ := exists_bit (hfs f hf)
    have hfi := (hi i).mpr rfl
    rw [has_iff (hfs f hf) hfi, has_iff (hfs f hf) hfi, ← h, hasBit_and, (hk i).mpr ⟨f, hf, hfi⟩,
      Bool.and_true]
  · rw [hasBit_and]
    cases hki : hasBit k i with
    | false =>
      cases hai : hasBit a i with
      | false => rw [Bool.and_false]
      | true => exact absurd (ha i hai) (by simp [hki])
    | true =>
      obtain ⟨f, hf, hfi⟩ := (hk i).mp hki
      have hsame := h f hf
      rw [has_iff (hfs f hf) hfi, has_iff (hfs f hf) hfi] at hsame
      rw [Bool.and_true]
      exact Bool.eq_iff_iff.mpr hsame

/-! ## Unions -/

/-- The union of some flags. -/
def joined (fs : List OpenFlags) : OpenFlags := fs.foldl union ⟨0⟩

theorem hasBit_foldl_union (fs : List OpenFlags) (f : OpenFlags) (i : Nat) :
    hasBit (fs.foldl union f).bits i = true ↔
      hasBit f.bits i = true ∨ ∃ g ∈ fs, hasBit g.bits i = true := by
  induction fs generalizing f with
  | nil => simp
  | cons g fs ih =>
    rw [List.foldl_cons, ih]
    simp [union, or_assoc]

theorem hasBit_joined (fs : List OpenFlags) (i : Nat) :
    hasBit (joined fs).bits i = true ↔ ∃ g ∈ fs, hasBit g.bits i = true := by
  rw [joined, hasBit_foldl_union]
  simp

theorem joined_cons (f : OpenFlags) (fs : List OpenFlags) : joined (f :: fs) = fs.foldl union f := by
  simp [joined, union]

/-- A union of flags has exactly the flags that went into it. -/
theorem has_joined {fs : List OpenFlags} (hfs : ∀ f ∈ fs, f ∈ flags) {f : OpenFlags}
    (hf : f ∈ flags) : Has (joined fs).bits f ↔ f ∈ fs := by
  obtain ⟨i, hi⟩ := exists_bit hf
  have hfi := (hi i).mpr rfl
  rw [has_iff hf hfi, hasBit_joined]
  constructor
  · rintro ⟨g, hg, hgi⟩
    rwa [flag_unique hf (hfs g hg) hfi hgi]
  · exact fun h => ⟨f, h, hfi⟩

theorem joined_ne_zero {fs : List OpenFlags} {f : OpenFlags} (hf : f ∈ flags) (h : f ∈ fs) :
    (joined fs).bits ≠ 0 := by
  obtain ⟨i, hi⟩ := exists_bit hf
  intro hzero
  have hbit := (hasBit_joined fs i).mpr ⟨f, h, (hi i).mpr rfl⟩
  rw [hzero, hasBit_zero] at hbit
  cases hbit

/-! ## Modes -/

/-- All bits are those of flags. -/
def IsKnown (m : Int32) : Prop := ∀ i, hasBit m i = true → ∃ f ∈ flags, hasBit f.bits i = true

/-- The accesses that may be asked for. -/
def accesses : List (List OpenFlags) := [[readOnly], [readWrite], [readWrite, create]]

/-- Of the access flags, a mode has those of one access. -/
def HasAccess (m : Int32) : Prop := ∃ a ∈ accesses, ∀ f ∈ accessFlags, (Has m f ↔ f ∈ a)

/-- Both threading modes are asked for. -/
def HasBothMutexes (m : Int32) : Prop := Has m noMutex ∧ Has m fullMutex

/-- What a mode other than zero must be like. -/
structure IsMode (m : Int32) : Prop where
  known : IsKnown m
  access : HasAccess m
  mutex : ¬ HasBothMutexes m

theorem isKnown_iff (m : Int32) : m &&& ~~~knownBits = 0 ↔ IsKnown m := by
  rw [and_not_eq_zero]
  exact forall_congr' fun i => imp_congr_right fun _ => hasBit_known i

theorem isAccess_iff (m : Int32) : isAccess (m &&& accessBits) = true ↔ HasAccess m := by
  have hsub : ∀ a ∈ accesses, (joined a).bits &&& ~~~accessBits = 0 := by decide
  have hnamed : ∀ a ∈ accesses, ∀ f ∈ a, f ∈ flags := by decide
  have htest {a : List OpenFlags} (ha : a ∈ accesses) :
      m &&& accessBits = (joined a).bits ↔ ∀ f ∈ accessFlags, (Has m f ↔ f ∈ a) := by
    rw [and_union_eq accessFlags_named hasBit_access ((and_not_eq_zero _ _).mp (hsub a ha))]
    exact forall₂_congr fun f hf => by rw [has_joined (hnamed a ha) (accessFlags_named f hf)]
  have hcases : isAccess (m &&& accessBits) = true ↔
      ∃ a ∈ accesses, m &&& accessBits = (joined a).bits := by
    simp [isAccess, accesses, joined, union, or_assoc]
  rw [hcases]
  exact exists_congr fun a => and_congr_right htest

theorem hasBothMutexes_iff (m : Int32) : m &&& mutexBits = mutexBits ↔ HasBothMutexes m := by
  rw [and_eq_self m ⟨mutexBits⟩]
  refine ⟨fun h => ⟨fun i hi => h i ?_, fun i hi => h i ?_⟩, fun h i hi => ?_⟩
  · simp [mutexBits, hi]
  · simp [mutexBits, hi]
  · rw [mutexBits, hasBit_or, Bool.or_eq_true] at hi
    exact hi.elim (h.1 i) (h.2 i)

/-! ## Reading a mode -/

/-- The refusal of a mode. -/
def refusal (reason : String) : Except Error OpenFlags := .error (.opening (-1) reason)

theorem ofMode_zero : ofMode 0 = .ok default := rfl

theorem ne_zero_of_not_isKnown {m : Int32} (h : ¬ IsKnown m) : m ≠ 0 := by
  rintro rfl
  exact h fun i hi => by simp at hi

theorem ofMode_unknown {m : Int32} (h : ¬ IsKnown m) :
    ofMode m = refusal ("unrecognized open mode bits " ++ hexText (m &&& ~~~knownBits)) := by
  have hzero := ne_zero_of_not_isKnown h
  rw [← isKnown_iff] at h
  simp [ofMode, hzero, h, refusal, bindingError]

theorem ofMode_access {m : Int32} (hzero : m ≠ 0) (hknown : IsKnown m) (h : ¬ HasAccess m) :
    ofMode m = refusal ("invalid access mode " ++ hexText (m &&& accessBits) ++ " in open mode "
      ++ hexText m) := by
  rw [← isKnown_iff] at hknown
  rw [← isAccess_iff, Bool.not_eq_true] at h
  simp [ofMode, hzero, hknown, h, refusal, bindingError]

theorem ofMode_mutexes {m : Int32} (hzero : m ≠ 0) (hknown : IsKnown m) (haccess : HasAccess m)
    (h : HasBothMutexes m) :
    ofMode m = refusal ("conflicting threading modes in open mode " ++ hexText m) := by
  rw [← isKnown_iff] at hknown
  rw [← isAccess_iff] at haccess
  rw [← hasBothMutexes_iff] at h
  simp [ofMode, hzero, hknown, haccess, h, refusal, bindingError]

theorem ofMode_isMode {m : Int32} (hzero : m ≠ 0) (h : IsMode m) : ofMode m = .ok ⟨m⟩ := by
  obtain ⟨hknown, haccess, hmutex⟩ := h
  rw [← isKnown_iff] at hknown
  rw [← isAccess_iff] at haccess
  rw [← hasBothMutexes_iff] at hmutex
  simp [ofMode, hzero, hknown, haccess, hmutex]

/-- A mode other than zero that is not as it must be is refused. -/
theorem ofMode_refused {m : Int32} (hzero : m ≠ 0) (h : ¬ IsMode m) :
    ∃ reason, ofMode m = refusal reason := by
  by_cases hknown : IsKnown m
  · by_cases haccess : HasAccess m
    · by_cases hmutex : HasBothMutexes m
      · exact ⟨_, ofMode_mutexes hzero hknown haccess hmutex⟩
      · exact absurd ⟨hknown, haccess, hmutex⟩ h
    · exact ⟨_, ofMode_access hzero hknown haccess⟩
  · exact ⟨_, ofMode_unknown hknown⟩

/-- An accepted mode is zero, for the default, or its own bits. -/
theorem ofMode_ok {m : Int32} {f : OpenFlags} (h : ofMode m = .ok f) :
    m = 0 ∧ f = default ∨ m ≠ 0 ∧ IsMode m ∧ f = ⟨m⟩ := by
  by_cases hzero : m = 0
  · subst hzero
    exact .inl ⟨rfl, Except.ok.inj h.symm⟩
  · by_cases hm : IsMode m
    · rw [ofMode_isMode hzero hm] at h
      exact .inr ⟨hzero, hm, Except.ok.inj h.symm⟩
    · obtain ⟨reason, hreason⟩ := ofMode_refused hzero hm
      rw [hreason] at h
      cases h

/-- What is read of a mode is read again of its bits. -/
theorem ofMode_bits {m : Int32} {f : OpenFlags} (h : ofMode m = .ok f) : ofMode f.bits = .ok f := by
  rcases ofMode_ok h with ⟨-, rfl⟩ | ⟨hzero, hm, rfl⟩
  · rfl
  · exact ofMode_isMode hzero hm

theorem contains_iff (f g : OpenFlags) : f.contains g = true ↔ Has f.bits g := by
  rw [← and_eq_self]
  exact beq_iff_eq

/-! ## Modes made of flags -/

/-- What flags must be like for their union to be a mode. -/
structure AreMode (fs : List OpenFlags) : Prop where
  access : ∃ a ∈ accesses, ∀ f ∈ accessFlags, (f ∈ fs ↔ f ∈ a)
  mutex : ¬ (noMutex ∈ fs ∧ fullMutex ∈ fs)

theorem joined_isMode_iff {fs : List OpenFlags} (hfs : ∀ f ∈ fs, f ∈ flags) :
    IsMode (joined fs).bits ↔ AreMode fs := by
  have haccess : HasAccess (joined fs).bits ↔
      ∃ a ∈ accesses, ∀ f ∈ accessFlags, (f ∈ fs ↔ f ∈ a) :=
    exists_congr fun a => and_congr_right fun _ => forall₂_congr fun f hf => by
      rw [has_joined hfs (accessFlags_named f hf)]
  have hmutex : HasBothMutexes (joined fs).bits ↔ noMutex ∈ fs ∧ fullMutex ∈ fs :=
    and_congr (has_joined hfs (by decide)) (has_joined hfs (by decide))
  constructor
  · rintro ⟨-, ha, hm⟩
    exact ⟨haccess.mp ha, mt hmutex.mpr hm⟩
  · rintro ⟨ha, hm⟩
    refine ⟨fun i hi => ?_, haccess.mpr ha, mt hmutex.mp hm⟩
    obtain ⟨f, hf, hfi⟩ := (hasBit_joined fs i).mp hi
    exact ⟨f, hfs f hf, hfi⟩

/-! ## Open modes -/

/-- What is expected of reading a mode. -/
structure ModeLawful (m : Int32) : Prop where
  accepted : (∃ f, ofMode m = .ok f) ↔ m = 0 ∨ IsMode m
  /-- Unknown bits are refused first, and named. -/
  unknown : ¬ IsKnown m → ∃ bits,
    (∀ i, hasBit bits i = true ↔ hasBit m i = true ∧ ¬ ∃ f ∈ flags, hasBit f.bits i = true) ∧
    ofMode m = refusal ("unrecognized open mode bits " ++ hexText bits)
  /-- Then the access is refused, and its bits are named. -/
  access : m ≠ 0 → IsKnown m → ¬ HasAccess m → ∃ bits,
    (∀ i, hasBit bits i = true ↔
      hasBit m i = true ∧ ∃ f ∈ accessFlags, hasBit f.bits i = true) ∧
    ofMode m =
      refusal ("invalid access mode " ++ hexText bits ++ " in open mode " ++ hexText m)
  /-- Both threading modes at once are refused last. -/
  mutex : m ≠ 0 → IsKnown m → HasAccess m → HasBothMutexes m →
    ofMode m = refusal ("conflicting threading modes in open mode " ++ hexText m)
  /-- An accepted mode is read as its own bits, and zero as the default. -/
  bits : ∀ f, ofMode m = .ok f →
    if m = 0 then f = (readWrite.union create).union fullMutex else f.bits = m
  again : ∀ f, ofMode m = .ok f → ofMode f.bits = .ok f
  contains : ∀ f, ofMode m = .ok f → ∀ g, f.contains g = true ↔ Has f.bits g

/-- Reading a mode is as expected, for every integer. -/
theorem mode_lawful (m : Int32) : ModeLawful m where
  accepted := by
    constructor
    · rintro ⟨f, hf⟩
      rcases ofMode_ok hf with ⟨hzero, -⟩ | ⟨-, hm, -⟩
      · exact .inl hzero
      · exact .inr hm
    · intro h
      by_cases hzero : m = 0
      · exact ⟨default, hzero ▸ ofMode_zero⟩
      · exact ⟨⟨m⟩, ofMode_isMode hzero (h.resolve_left hzero)⟩
  unknown h := by
    refine ⟨m &&& ~~~knownBits, fun i => ?_, ofMode_unknown h⟩
    rw [← hasBit_known, hasBit_and, Bool.and_eq_true]
    refine and_congr_right fun hi => ?_
    rw [hasBit_not (hasBit_lt hi), Bool.not_eq_true', Bool.not_eq_true]
  access hzero hknown h := by
    refine ⟨m &&& accessBits, fun i => ?_, ofMode_access hzero hknown h⟩
    rw [← hasBit_access, hasBit_and, Bool.and_eq_true]
  mutex := ofMode_mutexes
  bits f hf := by
    rcases ofMode_ok hf with ⟨hzero, rfl⟩ | ⟨hzero, -, rfl⟩
    · rw [if_pos hzero]
      rfl
    · rw [if_neg hzero]
  again _ := ofMode_bits
  contains f _ := contains_iff f

/-- Which modes are accepted and why others are not, and that flags make up a mode by the same
rules, in whatever order and however often they are given. -/
theorem modes_lawful :
    (∀ m, ModeLawful m) ∧
    ∀ (f : OpenFlags) (fs : List OpenFlags), (∀ g ∈ f :: fs, g ∈ flags) →
      (AreMode (f :: fs) → ofMode (fs.foldl union f).bits = .ok (fs.foldl union f)) ∧
      (¬ AreMode (f :: fs) → ∃ reason, ofMode (fs.foldl union f).bits = refusal reason) := by
  refine ⟨mode_lawful, fun f fs hfs => ?_⟩
  have hzero : (joined (f :: fs)).bits ≠ 0 :=
    joined_ne_zero (hfs f List.mem_cons_self) List.mem_cons_self
  rw [← joined_cons, ← joined_isMode_iff hfs]
  exact ⟨ofMode_isMode hzero, ofMode_refused hzero⟩

end HostSql.OpenFlags
