import HostSql.ResultType
import HostSql.Proofs.Number.Rounding
import HostSql.Proofs.Number.Spelling

/-!
# What a numeric text is read as

`numericValue?` reads a text as a number. This file says of every text whether it is read and what
it is read as, in terms of the exact rational number `Numeral.value` that the text spells: an
integer if it is spelled as one and fits, else the nearest double, as long as that is finite.

> `numericValue?_lawful`

The two halves are apart: the reader decides the grammar (`Numeral.read?_iff`), and a numeral is
then rounded once (`Binary64.ofDecimal_rounds`); `Numeral.value_eq` is the bridge, as the digits
before and after the point are rounded as one number with a scale.
-/

namespace HostSql

/-! ## The number a numeral spells -/

theorem digitsValue_snoc (ds : List Char) (c : Char) :
    digitsValue (ds ++ [c]) = 10 * digitsValue ds + (c.toNat - '0'.toNat) := by
  unfold digitsValue
  rw [List.foldl_append]
  rfl

theorem digitsValue_append (ds fs : List Char) :
    digitsValue (ds ++ fs) = digitsValue ds * 10 ^ fs.length + digitsValue fs := by
  induction fs using List.reverseRecOn with
  | nil => simp [digitsValue]
  | append_singleton fs c ih =>
    rw [← List.append_assoc, digitsValue_snoc, digitsValue_snoc, ih, List.length_append,
      List.length_singleton, pow_succ]
    ring

namespace Numeral

/-- The exponent as a number. -/
def Exponent.value (e : Exponent) : Int :=
  if e.negative then -(digitsValue e.digits : Int) else digitsValue e.digits

/-- The size of what is before the exponent: the whole part, and the digits after the point over as
many tens. -/
def mantissa (n : Numeral) : ℚ :=
  digitsValue n.whole + digitsValue (n.fraction.getD []) / 10 ^ (n.fraction.getD []).length

/-- The exact number that a numeral spells. -/
def value (n : Numeral) : ℚ :=
  (if n.negative then -1 else 1) * (n.mantissa * 10 ^ (n.exponent.elim 0 Exponent.value))

/-- A numeral with neither point nor exponent. -/
def IsWhole (n : Numeral) : Prop := n.fraction = none ∧ n.exponent = none

/-- A numeral that is spelled as an integer and fits 64 bits. -/
def IsInteger64 (n : Numeral) : Prop := n.IsWhole ∧ -2 ^ 63 ≤ n.value ∧ n.value ≤ 2 ^ 63 - 1

theorem size_eq (n : Numeral) :
    n.mantissa * 10 ^ (n.exponent.elim 0 Exponent.value) = (n.significand : ℚ) * 10 ^ n.scale := by
  have hscale : n.scale =
      n.exponent.elim 0 Exponent.value - ((n.fraction.getD []).length : Int) := by
    unfold scale
    cases n.exponent <;> rfl
  have hten : (10 : ℚ) ^ (n.fraction.getD []).length ≠ 0 := by positivity
  rw [hscale, zpow_sub₀ (by norm_num), zpow_natCast, mantissa, significand, digitsValue_append]
  push_cast
  field_simp

/-- All digits are one number with a scale. -/
theorem value_eq (n : Numeral) : n.value =
    if n.negative then -((n.significand : ℚ) * 10 ^ n.scale) else n.significand * 10 ^ n.scale := by
  rw [value, size_eq]
  split <;> ring

theorem abs_value (n : Numeral) : |n.value| = (n.significand : ℚ) * 10 ^ n.scale := by
  have hpos : (0 : ℚ) ≤ n.significand * 10 ^ n.scale :=
    mul_nonneg (Nat.cast_nonneg _) (zpow_nonneg (by norm_num) _)
  rw [value_eq]
  split
  · rw [abs_neg, abs_of_nonneg hpos]
  · exact abs_of_nonneg hpos

theorem exactInt?_of_whole {n : Numeral} (h : n.IsWhole) :
    ∃ i, n.exactInt? = some i ∧ (i : ℚ) = n.value := by
  unfold exactInt?
  rw [h.1, h.2]
  refine ⟨_, rfl, ?_⟩
  rw [value_eq, significand, scale, h.1, h.2]
  simp only [Option.getD_none, List.append_nil, List.length_nil, Nat.cast_zero, sub_zero, zpow_zero,
    mul_one]
  split <;> push_cast <;> rfl

theorem exactInt?_of_not_whole {n : Numeral} (h : ¬ n.IsWhole) : n.exactInt? = none := by
  unfold exactInt?
  split
  · next hfraction hexponent => exact absurd ⟨hfraction, hexponent⟩ h
  · rfl

/-- Rounding a numeral finds the nearest finite double if the number is below the limit. -/
theorem toBinary64_rounds (n : Numeral) :
    n.toBinary64.negative = n.negative ∧
      (n.toBinary64.isFinite = true ↔ |n.value| < Binary64.overflowLimit) ∧
      (n.toBinary64.isFinite = true → n.toBinary64.RoundsTo n.value) := by
  rw [abs_value, value_eq]
  exact Binary64.ofDecimal_rounds n.negative n.significand n.scale

end Numeral

/-! ## What a text is read as -/

/-- What the numeral `n` is read as, if it is read: an integer of its value if it is spelled as one
and fits, else the nearest double, which keeps the sign also where it is a zero. -/
inductive Numeral.ReadAs (n : Numeral) : Value → Prop
  | integer (i : Int64) (h : n.IsInteger64) (hvalue : (i.toInt : ℚ) = n.value) :
    ReadAs n (.integer i)
  | float (x : Binary64) (h : ¬ n.IsInteger64) (hvalue : x.RoundsTo n.value)
    (hsign : x.negative = n.negative) : ReadAs n (.float x)

theorem Numeral.isInteger64_iff {n : Numeral} {i : Int} (hwhole : n.IsWhole)
    (hvalue : (i : ℚ) = n.value) :
    n.IsInteger64 ↔ Int64.minValue.toInt ≤ i ∧ i ≤ Int64.maxValue.toInt := by
  have hmin : Int64.minValue.toInt = -2 ^ 63 := rfl
  have hmax : Int64.maxValue.toInt = 2 ^ 63 - 1 := rfl
  unfold IsInteger64
  rw [hmin, hmax, ← hvalue]
  constructor
  · intro h
    exact ⟨by exact_mod_cast h.2.1, by exact_mod_cast h.2.2⟩
  · intro h
    exact ⟨hwhole, by exact_mod_cast h.1, by exact_mod_cast h.2⟩

/-- A text that spells an integer of 64 bits is read as it. -/
theorem numericValue?_integer {s : String} {n : Numeral} (hn : n.WrittenIn s)
    (h : n.IsInteger64) :
    ∃ i : Int64, numericValue? s = some (.integer i) ∧ (i.toInt : ℚ) = n.value := by
  obtain ⟨i, hi, hvalue⟩ := Numeral.exactInt?_of_whole h.1
  have hfits := (Numeral.isInteger64_iff h.1 hvalue).mp h
  refine ⟨Int64.ofInt i, ?_, ?_⟩
  · unfold numericValue?
    rw [Numeral.read?_iff.mpr hn]
    simp only [hi]
    rw [if_pos hfits]
  · have hmax : Int64.maxValue.toInt = 2 ^ 63 - 1 := rfl
    rw [hmax] at hfits
    rw [Int64.toInt_ofInt_of_le hfits.1 (by omega)]
    exact hvalue

/-- A text that spells another number is read as the nearest double if that is finite. -/
theorem numericValue?_float {s : String} {n : Numeral} (hn : n.WrittenIn s)
    (h : ¬ n.IsInteger64) : numericValue? s =
      if n.toBinary64.isFinite then some (.float n.toBinary64) else none := by
  unfold numericValue?
  rw [Numeral.read?_iff.mpr hn]
  by_cases hwhole : n.IsWhole
  · obtain ⟨i, hi, hvalue⟩ := Numeral.exactInt?_of_whole hwhole
    rw [Numeral.isInteger64_iff hwhole hvalue] at h
    simp only [hi]
    rw [if_neg h]
  · simp only [Numeral.exactInt?_of_not_whole hwhole]

theorem numericValue?_unwritten {s : String} (h : ∀ n : Numeral, ¬ n.WrittenIn s) :
    numericValue? s = none := by
  unfold numericValue?
  cases hread : Numeral.read? s with
  | none => rfl
  | some n => exact absurd (Numeral.read?_iff.mp hread) (h n)

/-- Reading a text as a number. A text spells one numeral at most. It is read if it spells one whose
number is below the limit of the doubles or is an integer of 64 bits, and then as `ReadAs` says. A
text with another character in it, with a blank inside, or with a second point, a second exponent
letter or two signs side by side is never read. -/
theorem numericValue?_lawful (s : String) :
    (∀ n m : Numeral, n.WrittenIn s → m.WrittenIn s → n = m) ∧
    ((numericValue? s).isSome = true ↔
      ∃ n : Numeral, n.WrittenIn s ∧ (|n.value| < 2 ^ 1024 - 2 ^ 970 ∨ n.IsInteger64)) ∧
    (∀ v, numericValue? s = some v → ∃ n : Numeral, n.WrittenIn s ∧ n.ReadAs v) ∧
    ((∃ c ∈ s.toList, Text.isBlank c = false ∧ ¬ Numeral.IsNumeralChar c) ∨
      (∃ a c b, s.toList = a ++ c :: b ∧ Text.isBlank c = true ∧ ¬ Numeral.IsBlanks a ∧
        ¬ Numeral.IsBlanks b) ∨
      2 ≤ s.toList.countP (· == '.') ∨ 2 ≤ s.toList.countP Numeral.isExponentLetter ∨
      (∃ a c d b, s.toList = a ++ c :: d :: b ∧ Numeral.IsSign c ∧ Numeral.IsSign d) →
      numericValue? s = none) := by
  have hread {n : Numeral} (hn : n.WrittenIn s) (h : ¬ n.IsInteger64) :
      numericValue? s = some (.float n.toBinary64) ↔ |n.value| < 2 ^ 1024 - 2 ^ 970 := by
    rw [numericValue?_float hn h, ← Binary64.overflowLimit, ← n.toBinary64_rounds.2.1]
    split
    · next hfinite => exact ⟨fun _ => hfinite, fun _ => rfl⟩
    · next hinfinite =>
      constructor
      · intro h
        cases h
      · intro h
        exact absurd h hinfinite
  refine ⟨fun n m hn hm => hn.unique hm, ⟨?_, ?_⟩, ?_, ?_⟩
  · intro hsome
    by_cases hwritten : ∃ n : Numeral, n.WrittenIn s
    · obtain ⟨n, hn⟩ := hwritten
      refine ⟨n, hn, ?_⟩
      by_cases h : n.IsInteger64
      · exact .inr h
      · left
        rw [numericValue?_float hn h] at hsome
        refine n.toBinary64_rounds.2.1.mp ?_
        by_contra hinfinite
        rw [if_neg hinfinite] at hsome
        cases hsome
    · rw [numericValue?_unwritten (not_exists.mp hwritten)] at hsome
      cases hsome
  · intro hwritten
    obtain ⟨n, hn, hfits⟩ := hwritten
    by_cases h : n.IsInteger64
    · obtain ⟨i, hi, -⟩ := numericValue?_integer hn h
      rw [hi]
      rfl
    · rw [(hread hn h).mpr (hfits.resolve_right h)]
      rfl
  · intro v hv
    by_cases hwritten : ∃ n : Numeral, n.WrittenIn s
    · obtain ⟨n, hn⟩ := hwritten
      refine ⟨n, hn, ?_⟩
      by_cases h : n.IsInteger64
      · obtain ⟨i, hi, hvalue⟩ := numericValue?_integer hn h
        rw [hi] at hv
        cases hv
        exact .integer i h hvalue
      · rw [numericValue?_float hn h] at hv
        split at hv
        · next hfinite =>
          cases hv
          exact .float _ h (n.toBinary64_rounds.2.2 hfinite) n.toBinary64_rounds.1
        · cases hv
    · rw [numericValue?_unwritten (not_exists.mp hwritten)] at hv
      cases hv
  · intro hbad
    refine numericValue?_unwritten fun n hn => ?_
    rcases hbad with ⟨c, hc, hblank, hchar⟩ | ⟨a, c, b, hs, hblank, ha, hb⟩ | hpoints | hletters |
      ⟨a, c, d, b, hs, hc, hd⟩
    · rcases hn.characters c hc with h | h
      · rw [h] at hblank
        cases hblank
      · exact hchar h
    · exact (hn.blanks_outside hs hblank).elim ha hb
    · have := hn.count_point
      omega
    · have := hn.count_letter
      omega
    · exact hn.signs_apart hs ⟨hc, hd⟩

end HostSql
