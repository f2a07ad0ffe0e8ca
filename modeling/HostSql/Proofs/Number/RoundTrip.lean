import HostSql.Proofs.Number.Literal

/-!
# A number's text reads back as the number

Coerced to text and back, an integer is itself again, and a finite double is the double nearest to
what its text spells. The text of a double is a decimal that rounds to the double
(`Binary64.shortest_rounds`): each candidate of the search is kept only if it does, and the exact
decimal, with which the search ends, does so because it is exact. How the digits are laid out does not
matter, as rounding depends on the number only (`Decimal.positional_spelling` with
`Binary64.ofDecimal_congr`).

> `ResultType.coerce_integer_text`, `ResultType.coerce_float_text`, `ResultType.coerce_text_kept`
-/

namespace HostSql

open Numeral

/-! ## Digits -/

theorem isDigits_toDigits (n : Nat) : IsDigits (Nat.toDigits 10 n) :=
  fun _ hc => Nat.isDigit_of_mem_toDigits (by decide) (by decide) hc

theorem digitsValue_toDigits (n : Nat) : digitsValue (Nat.toDigits 10 n) = n :=
  Nat.ofDigitChars_toDigits (by decide) (by decide)

theorem isDigits_zeros (n : Nat) : IsDigits (List.replicate n '0') := by
  intro c hc
  rw [List.eq_of_mem_replicate hc]
  rfl

theorem digitsValue_zeros (n : Nat) : digitsValue (List.replicate n '0') = 0 := by
  induction n with
  | zero => rfl
  | succ n ih => rw [List.replicate_succ', digitsValue_snoc, ih]; rfl

theorem Numeral.IsDigits.append {ds fs : List Char} (hds : IsDigits ds) (hfs : IsDigits fs) :
    IsDigits (ds ++ fs) := by
  intro c hc
  rcases List.mem_append.mp hc with hc | hc
  · exact hds c hc
  · exact hfs c hc

/-! ## Layout -/

namespace Decimal

/-- The number that a decimal stands for. -/
def value (d : Decimal) : ℚ := d.digits * 10 ^ d.scale

/-- Written without an exponent, a decimal is a mantissa of the same value. It has a point if the
last digit stands right of the ones. -/
theorem positional_spelling (d : Decimal) :
    ∃ whole fraction, MantissaSpelling whole fraction d.positional ∧
      (digitsValue whole + digitsValue (fraction.getD []) / 10 ^ (fraction.getD []).length : ℚ) =
        d.value := by
  have hdigits := isDigits_toDigits d.digits
  have hvalue := digitsValue_toDigits d.digits
  have hne : Nat.toDigits 10 d.digits ≠ [] := Nat.toDigits_ne_nil
  unfold positional value
  generalize Nat.toDigits 10 d.digits = ds at hdigits hvalue hne
  simp only []
  split
  · next hscale =>
    obtain ⟨k, hk⟩ := Int.eq_ofNat_of_zero_le hscale
    refine ⟨_, none, .whole (hdigits.append (isDigits_zeros _)) (by simp [hne]), ?_⟩
    rw [hk, Int.toNat_natCast, zpow_natCast, digitsValue_append, digitsValue_zeros, hvalue,
      List.length_replicate]
    simp [digitsValue]
  · next hscale =>
    obtain ⟨places, hplaces⟩ := Int.eq_ofNat_of_zero_le (show 0 ≤ -d.scale by omega)
    have hten : (10 : ℚ) ^ places ≠ 0 := by positivity
    rw [hplaces, Int.toNat_natCast, show d.scale = -(places : Int) by omega, zpow_neg, zpow_natCast,
      ← div_eq_mul_inv]
    split
    · next hlt =>
      -- The point stands between two of the digits.
      have hlength : (ds.drop (ds.length - places)).length = places := by
        rw [List.length_drop]
        omega
      refine ⟨_, some _, .pointed (fun c hc => hdigits c (List.mem_of_mem_take hc))
        (fun c hc => hdigits c (List.mem_of_mem_drop hc)) (.inl ?_), ?_⟩
      · intro htake
        rcases List.take_eq_nil_iff.mp htake with h | h
        · omega
        · exact hne h
      · have hsplit := digitsValue_append (ds.take (ds.length - places))
          (ds.drop (ds.length - places))
        rw [List.take_append_drop, hvalue, hlength] at hsplit
        rw [Option.getD_some, hlength, hsplit]
        push_cast
        field_simp
    · next hge =>
      have hlength : (List.replicate (places - ds.length) '0' ++ ds).length = places := by
        rw [List.length_append, List.length_replicate]
        omega
      refine ⟨['0'], some _, .pointed (isDigits_zeros 1) ((isDigits_zeros _).append hdigits)
        (.inl (List.cons_ne_nil _ _)), ?_⟩
      rw [Option.getD_some, hlength, digitsValue_append, digitsValue_zeros, hvalue]
      simp [digitsValue]

theorem stripZeros_value (d : Decimal) : d.stripZeros.value = d.value := by
  have hgo : ∀ fuel d, (stripZeros.go fuel d).value = d.value := by
    intro fuel
    induction fuel with
    | zero => intro d; rfl
    | succ fuel ih =>
      intro d
      unfold stripZeros.go
      split
      · next hzero =>
        have hten : (10 : ℚ) * (d.digits / 10 : Nat) = d.digits := by
          exact_mod_cast Nat.mul_div_cancel' (Nat.dvd_of_mod_eq_zero hzero.2)
        rw [ih, value, value, zpow_add_one₀ (by norm_num), ← hten]
        ring
      · rfl
  exact hgo _ d

end Decimal

/-! ## The decimal found reads back -/

namespace Binary64

/-- A decimal rounds to a double of the size of `x`. -/
def ReadsBack (x : Binary64) (d : Decimal) : Prop :=
  ∀ neg, ofDecimal neg d.digits d.scale = ofMagnitude neg x.magnitude

theorem readsBack_of_magnitude {x : Binary64} {d : Decimal}
    (h : d.toBinary64.magnitude = x.magnitude) : x.ReadsBack d := by
  intro neg
  obtain ⟨m, hm, hread⟩ := ofDecimal_nearest false d.digits d.scale
  obtain ⟨n, hn, hneg⟩ := ofDecimal_nearest neg d.digits d.scale
  have hbits : min m infinityBits < signBit :=
    (Nat.min_le_right _ _).trans_lt infinityBits_lt_signBit
  rw [Decimal.toBinary64, hread, magnitude_ofMagnitude false hbits] at h
  rw [hneg, hn.unique hm, h]

theorem ReadsBack.congr {x : Binary64} {d e : Decimal} (h : x.ReadsBack d)
    (hvalue : e.value = d.value) : x.ReadsBack e := by
  intro neg
  rw [← h neg]
  exact ofDecimal_congr neg hvalue

/-- The exact decimal of a finite double is the double. -/
theorem exactDecimal_readsBack {x : Binary64} (hx : x.isFinite = true) :
    x.ReadsBack x.exactDecimal := by
  intro neg
  obtain ⟨m, hm, hread⟩ := ofDecimal_nearest neg x.exactDecimal.digits x.exactDecimal.scale
  have hunits : decimalUnits x.exactDecimal.digits x.exactDecimal.scale = unitsOf x.magnitude := by
    have hpow : Nat.pow 5 1074 * unitsPerOne = 10 ^ 1074 := by decide +kernel
    have hpow : ((Nat.pow 5 1074 : Nat) : ℚ) * unitsPerOne = 10 ^ (1074 : Int) := by
      rw [← Nat.cast_mul, hpow, Nat.cast_pow, Nat.cast_ofNat]
      rfl
    have hten : (10 : ℚ) ^ (-1074 : Int) * 10 ^ (1074 : Int) = 1 := by
      rw [← zpow_add₀ (by norm_num)]
      rfl
    unfold decimalUnits exactDecimal
    rw [← units_eq, Nat.cast_mul, mul_assoc, mul_assoc, mul_comm ((10 : ℚ) ^ _), ← mul_assoc _ (unitsPerOne : ℚ),
      hpow, mul_comm ((10 : ℚ) ^ (1074 : Int)), hten, mul_one]
  have hsame : m = x.magnitude := by
    have hnear := hm.nearest x.magnitude
    rw [hunits, sub_self, abs_zero] at hnear
    have hzero := abs_nonpos_iff.mp hnear
    exact unitsOf_strictMono.injective (by exact_mod_cast sub_eq_zero.mp hzero)
  have hlt : x.magnitude < infinityBits := by simpa [isFinite] using hx
  rw [hread, hsame, Nat.min_eq_left hlt.le]

theorem searchGrids_readsBack {x : Binary64} (hx : x.isFinite = true) (fuel : Nat) (k : Int) :
    x.ReadsBack (x.searchGrids fuel k) := by
  induction fuel generalizing k with
  | zero => exact exactDecimal_readsBack hx
  | succ fuel ih =>
    unfold searchGrids
    split
    · next d rest hfound =>
      have hmem : d ∈ x.readBackOnGrid k := by
        rw [hfound]
        exact List.mem_cons_self
      exact readsBack_of_magnitude (beq_iff_eq.mp (List.mem_filter.mp hmem).2)
    · exact ih (k - 1)

/-- The decimal that a finite double prints rounds to the double. -/
theorem shortest_readsBack {x : Binary64} (hx : x.isFinite = true) : x.ReadsBack x.shortest := by
  unfold shortest
  split
  · next hzero =>
    intro neg
    rw [beq_iff_eq.mp hzero]
    rfl
  · exact (searchGrids_readsBack hx _ _).congr (Decimal.stripZeros_value _)

/-- A finite double prints as a numeral without exponent that rounds to it. -/
theorem display_spelling {x : Binary64} (hx : x.isFinite = true) :
    ∃ n : Numeral, n.WrittenIn x.display ∧ n.exponent = none ∧ |n.value| = x.shortest.value ∧
      n.toBinary64 = x := by
  have hlt : x.magnitude < infinityBits := by simpa [isFinite] using hx
  obtain ⟨whole, fraction, hspelling, hvalue⟩ := x.shortest.positional_spelling
  have hsign : SignSpelling x.negative x.signChars := by
    unfold signChars
    cases x.negative with
    | true => exact .minus
    | false => exact .absent
  have hsize : |(⟨x.negative, whole, fraction, none⟩ : Numeral).value| = x.shortest.value := by
    rw [abs_value, ← size_eq, mantissa, hvalue]
    simp
  refine ⟨⟨x.negative, whole, fraction, none⟩, ?_, rfl, hsize, ?_⟩
  · have hdisplay : x.display = String.ofList (x.signChars ++ x.shortest.positional) := by
      unfold display
      rw [if_neg (by simp [isNaN]; omega), if_neg (by simp [isInfinite]; omega)]
    rw [hdisplay]
    refine ⟨[], _, [], ?_, (fun _ hc => by cases hc), (fun _ hc => by cases hc),
      .mk hsign hspelling .absent⟩
    simp
  · rw [toBinary64, ofDecimal_congr _ ((abs_value _).symm.trans hsize)]
    rw [shortest_readsBack hx, ofMagnitude_self]

end Binary64

/-! ## Integers -/

/-- Converting an integer to a double is reading its digits. -/
theorem Binary64.ofInt_eq (i : Int) : ofInt i = ofDecimal (i < 0) i.natAbs 0 := by
  obtain ⟨m, hm, hnonneg, -⟩ := exists_nearest_decimal i.natAbs 0
  obtain ⟨n, hn, hread⟩ := ofDecimal_nearest (decide (i < 0)) i.natAbs 0
  have hbits := hnonneg (Int.le_refl 0)
  rw [Int.toNat_zero, show powTen 0 = 1 from rfl, Nat.mul_one] at hbits
  rw [ofInt, nearest, hbits, hread, hn.unique hm]

/-- An integer prints as a numeral of its value. -/
theorem Int.display_spelling (i : Int) :
    ∃ n : Numeral, n.WrittenIn (toString i) ∧ n.IsWhole ∧ n.value = i := by
  have hspelling (k : Nat) : MantissaSpelling (Nat.toDigits 10 k) none (Nat.toDigits 10 k) :=
    .whole (isDigits_toDigits k) Nat.toDigits_ne_nil
  have hvalue (neg : Bool) (k : Nat) :
      (⟨neg, Nat.toDigits 10 k, none, none⟩ : Numeral).value = (if neg then -1 else 1) * (k : ℚ) := by
    have hnone : digitsValue [] = 0 := rfl
    unfold value mantissa
    simp [digitsValue_toDigits, hnone]
  have hwritten {n : Numeral} {cs : List Char} (hspelling : n.Spelling cs)
      (hcs : (toString i).toList = cs) : n.WrittenIn (toString i) :=
    ⟨[], cs, [], by rw [hcs]; simp, (fun _ hc => by cases hc), (fun _ hc => by cases hc), hspelling⟩
  cases i with
  | ofNat k =>
    refine ⟨_, hwritten (.mk .absent (hspelling k) .absent) ?_, ⟨rfl, rfl⟩, ?_⟩
    · simp [Int.toString_eq_repr, Int.repr, Nat.toList_repr]
    · rw [hvalue]
      simp
  | negSucc k =>
    refine ⟨_, hwritten (.mk .minus (hspelling (k + 1)) .absent) ?_, ⟨rfl, rfl⟩, ?_⟩
    · simp [Int.toString_eq_repr, Int.repr, Nat.toList_repr]
    · rw [hvalue]
      simp [Int.negSucc_eq]

theorem Int64.inRange (i : Int64) : -2 ^ 63 ≤ i.toInt ∧ i.toInt ≤ 2 ^ 63 - 1 :=
  ⟨Int64.le_toInt i, by have := Int64.toInt_lt i; omega⟩

/-- The text of an integer is read as the integer. -/
theorem numericValue?_toString (i : Int64) :
    numericValue? (toString i.toInt) = some (.integer i) := by
  obtain ⟨n, hn, hwhole, hvalue⟩ := Int.display_spelling i.toInt
  obtain ⟨hlow, hhigh⟩ := Int64.inRange i
  have hinteger : n.IsInteger64 := by
    refine ⟨hwhole, ?_, ?_⟩ <;> rw [hvalue]
    · exact_mod_cast hlow
    · exact_mod_cast hhigh
  obtain ⟨j, hj, hsame⟩ := numericValue?_integer hn hinteger
  rw [hvalue] at hsame
  rw [hj, Int64.toInt_inj.mp (by exact_mod_cast hsame : j.toInt = i.toInt)]

/-! ## Doubles -/

/-- An integer of a numeral's value is converted to the double that the numeral rounds to; only a
zero can have the other sign. -/
theorem Numeral.ofInt_eq {n : Numeral} {i : Int} (hvalue : (i : ℚ) = n.value)
    (hfinite : n.toBinary64.isFinite = true) : (Binary64.ofInt i).eq n.toBinary64 = true := by
  have hdecimal : (i.natAbs : ℚ) * 10 ^ (0 : Int) = n.significand * 10 ^ n.scale := by
    rw [zpow_zero, mul_one, Nat.cast_natAbs, Int.cast_abs, hvalue, abs_value]
  have hconverted : Binary64.ofInt i = Binary64.ofDecimal (i < 0) n.significand n.scale := by
    rw [Binary64.ofInt_eq, Binary64.ofDecimal_congr _ hdecimal]
  have hsize : (0 : ℚ) ≤ n.significand * 10 ^ n.scale := hdecimal ▸ by positivity
  by_cases hsign : decide (i < 0) = n.negative
  · have hsame : Binary64.ofInt i = n.toBinary64 := by rw [hconverted, hsign, toBinary64]
    have hnan : n.toBinary64.isNaN = false := by
      simp only [Binary64.isFinite, Binary64.isNaN, decide_eq_true_eq, decide_eq_false_iff_not]
        at hfinite ⊢
      omega
    rw [hsame, Binary64.eq, hnan]
    simp
  · -- Of two signs one is wrong, unless the value is zero.
    have hzero : i = 0 := by
      rw [value_eq] at hvalue
      cases hneg : n.negative with
      | true =>
        rw [hneg, if_pos rfl] at hvalue
        have hnonneg : 0 ≤ i := by simpa [hneg] using hsign
        have hnonpos : i ≤ 0 := by exact_mod_cast (by linarith : (i : ℚ) ≤ 0)
        omega
      | false =>
        rw [hneg, if_neg (by simp)] at hvalue
        have hlt : i < 0 := by simpa [hneg] using hsign
        have hnonneg : 0 ≤ i := by exact_mod_cast (by linarith : (0 : ℚ) ≤ i)
        omega
    have hread : n.toBinary64 = Binary64.ofDecimal n.negative 0 0 := by
      refine Binary64.ofDecimal_congr _ ?_
      rw [← hdecimal, hzero]
      simp
    have hread_zero (neg : Bool) : Binary64.ofDecimal neg 0 0 = Binary64.zero neg := if_pos rfl
    rw [hread, hzero, Binary64.ofInt_eq, Int.natAbs_zero, hread_zero, hread_zero]
    cases n.negative <;> decide

/-- The text of a finite double is read as an integer that rounds to the double, if it has no point
and fits, and else as the double itself. -/
theorem numericValue?_display {x : Binary64} (hx : x.isFinite = true) {n : Numeral}
    (hn : n.WrittenIn x.display) :
    (n.IsInteger64 → ∃ i : Int64, numericValue? x.display = some (.integer i) ∧
      (i.toInt : ℚ) = n.value ∧ x.RoundsTo i.toInt ∧ (Binary64.ofInt i.toInt).eq x = true) ∧
    (¬ n.IsInteger64 → numericValue? x.display = some (.float x)) := by
  obtain ⟨m, hm, -, -, hread⟩ := x.display_spelling hx
  cases hn.unique hm
  have hfinite : n.toBinary64.isFinite = true := by rw [hread]; exact hx
  constructor
  · intro hinteger
    obtain ⟨i, hi, hvalue⟩ := numericValue?_integer hn hinteger
    refine ⟨i, hi, hvalue, ?_, ?_⟩
    · rw [hvalue, ← hread]
      exact n.toBinary64_rounds.2.2 hfinite
    · rw [← hread]
      exact Numeral.ofInt_eq hvalue hfinite
  · intro hfloat
    rw [numericValue?_float hn hfloat, hread, if_pos hx]

theorem numericValue?_display_of_infinite {x : Binary64} (hx : x.isFinite = false) :
    numericValue? x.display = none := by
  have hletter {s : String} {c : Char} (hc : c ∈ s.toList) (hblank : Text.isBlank c = false)
      (hchar : ¬ IsNumeralChar c) : numericValue? s = none := by
    refine numericValue?_unwritten fun n hn => ?_
    rcases hn.characters c hc with h | h
    · rw [h] at hblank
      cases hblank
    · exact hchar h
  have hword {c : Char} (hdigit : c.isDigit = false) (hplus : c ≠ '+') (hminus : c ≠ '-')
      (hpoint : c ≠ '.') (hexponent : isExponentLetter c = false) : ¬ IsNumeralChar c := by
    intro h
    rcases h with h | h | h | h
    · rw [hdigit] at h
      cases h
    · exact h.elim hplus hminus
    · exact hpoint h
    · rw [hexponent] at h
      cases h
  unfold Binary64.display
  split
  · exact hletter (c := 'N') (by decide) (by decide)
      (hword (by decide) (by decide) (by decide) (by decide) (by decide))
  · next hnan =>
    have hinfinite : x.isInfinite = true := by
      simp only [Binary64.isNaN, Binary64.isFinite, Binary64.isInfinite, decide_eq_true_eq,
        decide_eq_false_iff_not, beq_iff_eq] at hnan hx ⊢
      omega
    rw [if_pos hinfinite]
    exact hletter (c := 'n') (by simp) (by decide)
      (hword (by decide) (by decide) (by decide) (by decide) (by decide))

/-! ## To text and back -/

namespace ResultType

theorem coerce_numeric_text (s : String) (classes : List StorageClass) :
    coerce .numeric (.text s) classes = (numericValue? s).getD (.text s) := rfl

theorem coerce_text_integer (i : Int64) (classes : List StorageClass) :
    coerce .text (.integer i) classes = .text (toString i.toInt) := rfl

theorem coerce_text_float (x : Binary64) (classes : List StorageClass) :
    coerce .text (.float x) classes = .text x.display := rfl

/-- Coercing a number to text and the text to a number, in calls with any arguments. An integer is
itself again. A finite double has a text without an exponent; that is read as an integer exactly if it
has no point and its value fits 64 bits, an integer that rounds to the double, and else as the
double itself. The texts of the other doubles stay texts. -/
theorem coerce_there_and_back (classes classes' : List StorageClass) :
    (∀ i : Int64,
      coerce .numeric (coerce .text (.integer i) classes) classes' = .integer i) ∧
    (∀ x : Binary64, x.isFinite = true → ∃ s, ∃ n : Numeral,
      coerce .text (.float x) classes = .text s ∧ n.WrittenIn s ∧
      (∀ c ∈ s.toList, Numeral.isExponentLetter c = false) ∧
      if '.' ∉ s.toList ∧ -2 ^ 63 ≤ n.value ∧ n.value ≤ 2 ^ 63 - 1 then
        ∃ i : Int64, coerce .numeric (.text s) classes' = .integer i ∧ (i.toInt : ℚ) = n.value ∧
          x.RoundsTo i.toInt ∧ (Binary64.ofInt i.toInt).eq x = true
      else coerce .numeric (.text s) classes' = .float x) ∧
    (∀ x : Binary64, x.isFinite = false → ∃ s, coerce .text (.float x) classes = .text s ∧
      coerce .numeric (.text s) classes' = .text s) := by
  refine ⟨?_, ?_, ?_⟩
  · intro i
    rw [coerce_text_integer, coerce_numeric_text, numericValue?_toString, Option.getD_some]
  · intro x hx
    obtain ⟨n, hn, hexponent, -, -⟩ := x.display_spelling hx
    obtain ⟨hinteger, hfloat⟩ := numericValue?_display hx hn
    have hform : ('.' ∉ x.display.toList ∧ -2 ^ 63 ≤ n.value ∧ n.value ≤ 2 ^ 63 - 1) ↔
        n.IsInteger64 := by
      rw [hn.mem_point_iff, not_not]
      exact ⟨fun h => ⟨⟨h.1, hexponent⟩, h.2⟩, fun h => ⟨h.1.1, h.2⟩⟩
    refine ⟨x.display, n, rfl, hn, hn.not_mem_letter hexponent, ?_⟩
    split
    · next h =>
      obtain ⟨i, hi, hinteger⟩ := hinteger (hform.mp h)
      refine ⟨i, ?_, hinteger⟩
      rw [coerce_numeric_text, hi, Option.getD_some]
    · next h =>
      rw [coerce_numeric_text, hfloat (mt hform.mpr h), Option.getD_some]
  · intro x hx
    refine ⟨x.display, rfl, ?_⟩
    rw [coerce_numeric_text, numericValue?_display_of_infinite hx, Option.getD_none]

end ResultType

end HostSql
