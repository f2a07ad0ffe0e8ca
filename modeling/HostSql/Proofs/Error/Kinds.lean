import HostSql.Error
import Mathlib.Data.List.Nodup

/-!
# Result codes and kinds

The table `ErrorKind.all` is read in both directions: `ofCode` looks up what stands at a place, `code?`
searches the place of a kind. All kinds stand in the table and none stands there twice
(`findIdx?_eq_some_iff`), so the two undo each other, whatever the order of the table is. Signs and the
bytes above the lowest one come first: `ofCode` has no place for codes that are not positive, and for
the others it asks the low byte.

> `codes_lawful`: which kind every 32-bit code belongs to, and which code every kind has.
-/

namespace HostSql.ErrorKind

/-- Any kind but the root. -/
def IsLeaf (k : ErrorKind) : Prop := k ≠ .database

/-- The primary code of a result code is what its low byte says. -/
def primary (c : Int32) : Int32 := Int32.ofInt (c.toInt % 256)

/-- The primary codes of failures. -/
def IsPrimaryFailure (c : Int32) : Prop := 1 ≤ c.toInt ∧ c.toInt ≤ 26

/-! ## The table -/

theorem all_length : all.length = 27 := rfl

theorem all_nodup : all.Nodup := by decide

theorem mem_all (k : ErrorKind) : k ∈ all := by
  cases k <;> decide

/-- A kind is found at the place where it stands. -/
theorem findIdx?_eq_some_iff {k : ErrorKind} {i : Nat} :
    all.findIdx? (· == k) = some i ↔ all[i]? = some k := by
  rw [List.findIdx?_eq_some_iff_getElem, List.getElem?_eq_some_iff]
  constructor
  · rintro ⟨hi, hk, -⟩
    exact ⟨hi, eq_of_beq hk⟩
  · rintro ⟨hi, rfl⟩
    refine ⟨hi, beq_self_eq_true _, fun j hj hsame => ?_⟩
    have hplace := (all_nodup.getElem_inj_iff).mp (eq_of_beq hsame)
    omega

/-- The kind at a place after the first is a leaf, and its code is the place. -/
theorem code?_of_getElem? {k : ErrorKind} {i : Nat} (h : all[i]? = some k) (hi : 0 < i) :
    k.IsLeaf ∧ k.code? = some (Int32.ofNat i) := by
  have hfound := findIdx?_eq_some_iff.mpr h
  constructor
  · rintro rfl
    have hfirst : all.findIdx? (· == ErrorKind.database) = some 0 := rfl
    rw [hfirst] at hfound
    cases hfound
    omega
  · simp [code?, hfound, hi]

/-! ## Codes -/

theorem primary_toInt (c : Int32) : (primary c).toInt = c.toInt % 256 := by
  unfold primary
  rw [Int32.toInt_ofInt_of_le] <;> omega

/-- A failure's primary code is its own primary code. -/
theorem IsPrimaryFailure.primary_eq {c : Int32} (h : IsPrimaryFailure c) : primary c = c := by
  obtain ⟨hlow, hhigh⟩ := h
  refine Int32.toInt_inj.mp ?_
  rw [primary_toInt]
  omega

theorem IsPrimaryFailure.pos {c : Int32} (h : IsPrimaryFailure c) : 0 < c.toInt := by
  have := h.1
  omega

theorem isKnownFailure_iff (c : Int32) : isKnownFailure c = true ↔ IsPrimaryFailure c := by
  unfold isKnownFailure IsPrimaryFailure
  rw [Bool.and_eq_true, decide_eq_true_eq, decide_eq_true_eq, all_length]
  omega

theorem ofCode_of_pos {c : Int32} (h : 0 < c.toInt) :
    ofCode c = (all[(c.toInt % 256).toNat]?).getD .database :=
  if_neg (by omega)

/-- A positive code whose low byte is a failure code stands in the table. -/
theorem ofCode_primary {c : Int32} (hc : 0 < c.toInt) (h : IsPrimaryFailure (primary c)) :
    (ofCode c).IsLeaf ∧ (ofCode c).code? = some (primary c) := by
  obtain ⟨hlow, hhigh⟩ := h
  rw [primary_toInt] at hlow hhigh
  obtain ⟨k, hk⟩ : ∃ k, all[(c.toInt % 256).toNat]? = some k :=
    ⟨_, List.getElem?_eq_getElem (by rw [all_length]; omega)⟩
  have hplace : Int32.ofNat (c.toInt % 256).toNat = primary c := by
    unfold primary
    rw [← Int32.ofInt_eq_ofNat, Int.toNat_of_nonneg (by omega)]
  rw [ofCode_of_pos hc, hk, Option.getD_some, ← hplace]
  exact code?_of_getElem? hk (by omega)

/-- Any other code belongs to the root. -/
theorem ofCode_root {c : Int32} (h : ¬(0 < c.toInt ∧ IsPrimaryFailure (primary c))) :
    ofCode c = .database := by
  by_cases hc : 0 < c.toInt
  · rw [ofCode_of_pos hc]
    have hbyte : ¬(1 ≤ c.toInt % 256 ∧ c.toInt % 256 ≤ 26) := by
      rw [← primary_toInt]
      exact fun hprimary => h ⟨hc, hprimary⟩
    by_cases hzero : c.toInt % 256 = 0
    · rw [hzero]
      rfl
    · rw [List.getElem?_eq_none (by rw [all_length]; omega), Option.getD_none]
  · exact if_pos (by omega)

/-- The bytes above the lowest one say nothing about the kind. -/
theorem ofCode_extended {c : Int32} (hc : 0 < c.toInt) : ofCode c = ofCode (primary c) := by
  have hbyte : (primary c).toInt % 256 = c.toInt % 256 := by
    rw [primary_toInt]
    omega
  by_cases hzero : (primary c).toInt = 0
  · rw [ofCode_of_pos hc, ← primary_toInt, hzero]
    exact (if_pos (by omega)).symm
  · have hpos : 0 < (primary c).toInt := by
      have := primary_toInt c
      omega
    rw [ofCode_of_pos hc, ofCode_of_pos hpos, hbyte]

/-- A failure that the table knows stands under its own code. -/
theorem ofCode_known {code : Int32} (h : isKnownFailure code = true) :
    (ofCode code).IsLeaf ∧ (ofCode code).code? = some code := by
  have hprimary := (isKnownFailure_iff code).mp h
  have hself := hprimary.primary_eq
  have hkind := ofCode_primary hprimary.pos (hself.symm ▸ hprimary)
  rwa [hself] at hkind

/-- Every leaf has the code under which it is found. -/
theorem IsLeaf.code {k : ErrorKind} (h : k.IsLeaf) :
    ∃ c, k.code? = some c ∧ IsPrimaryFailure c ∧ ofCode c = k := by
  obtain ⟨i, hk⟩ := List.mem_iff_getElem?.mp (mem_all k)
  have hi : i < 27 := (List.getElem?_eq_some_iff.mp hk).1
  have hpos : 0 < i := by
    refine Nat.pos_of_ne_zero ?_
    rintro rfl
    exact h (Option.some.inj hk).symm
  have hvalue : (Int32.ofNat i).toInt = i := Int32.toInt_ofNat_of_lt (by omega)
  refine ⟨Int32.ofNat i, (code?_of_getElem? hk hpos).2, ⟨by omega, by omega⟩, ?_⟩
  have hbyte : ((Int32.ofNat i).toInt % 256).toNat = i := by omega
  rw [ofCode_of_pos (by omega), hbyte, hk, Option.getD_some]

/-! ## What is promised of codes and kinds -/

/-- What is expected of the codes of kinds and of the kinds of codes. -/
structure CodesLawful : Prop where
  /-- A positive code whose low byte is a failure code belongs to the leaf that has this code. -/
  leaf : ∀ c : Int32, 0 < c.toInt → 1 ≤ c.toInt % 256 → c.toInt % 256 ≤ 26 →
    (ofCode c).IsLeaf ∧ (ofCode c).code? = some (Int32.ofInt (c.toInt % 256))
  /-- All other codes belong to the root, which has none. -/
  root : ∀ c : Int32, ¬(0 < c.toInt ∧ 1 ≤ c.toInt % 256 ∧ c.toInt % 256 ≤ 26) →
    ofCode c = .database ∧ (ofCode c).code? = none
  /-- An extended code belongs to the kind of its primary code. -/
  extended : ∀ c : Int32, 0 < c.toInt → ofCode c = ofCode (primary c)
  /-- Every leaf has the code of a failure, and is found under it. -/
  inverse : ∀ k : ErrorKind, k.IsLeaf →
    ∃ c, k.code? = some c ∧ IsPrimaryFailure c ∧ ofCode c = k
  distinct : ∀ c d : Int32, IsPrimaryFailure c → IsPrimaryFailure d → ofCode c = ofCode d → c = d
  /-- What counts as a known failure are the primary codes of failures. -/
  primaries : ∀ c : Int32, isKnownFailure c = true ↔ IsPrimaryFailure c
  known : ∀ c : Int32, isKnownFailure c = true → (ofCode c).IsLeaf ∧ (ofCode c).code? = some c

/-- Codes and kinds agree, for all codes of 32 bits and all kinds. -/
theorem codes_lawful : CodesLawful where
  leaf c hc hlow hhigh := by
    have hprimary : IsPrimaryFailure (primary c) := by
      unfold IsPrimaryFailure
      rw [primary_toInt]
      exact ⟨hlow, hhigh⟩
    exact ofCode_primary hc hprimary
  root c h := by
    have hroot : ofCode c = .database := by
      refine ofCode_root fun ⟨hc, hprimary⟩ => h ?_
      unfold IsPrimaryFailure at hprimary
      rw [primary_toInt] at hprimary
      exact ⟨hc, hprimary⟩
    exact ⟨hroot, hroot ▸ rfl⟩
  extended _ := ofCode_extended
  inverse _ hk := hk.code
  distinct c d hc hd hsame := by
    have hcCode := (ofCode_known ((isKnownFailure_iff c).mpr hc)).2
    have hdCode := (ofCode_known ((isKnownFailure_iff d).mpr hd)).2
    rw [hsame] at hcCode
    exact Option.some.inj (hcCode.symm.trans hdCode)
  primaries := isKnownFailure_iff
  known _ := ofCode_known

end HostSql.ErrorKind
