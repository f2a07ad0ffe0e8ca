import HostSql.Number.Decimal
import Mathlib.Data.List.Chain

/-!
# How numerals are spelled

The grammar of a numeral with `D` a decimal digit is

> `[+-]?(D+(.D*)?|.D+)([eE][+-]?D+)?`

and blanks may stand around it. `Spelling n cs` says that `cs` is a spelling of `n` by the grammar,
`WrittenIn n s` that the text `s` is one with blanks around it. The reader accepts exactly the texts
of the grammar, and returns what they spell:

> `readTight?_iff`, `read?_iff`.

Nothing but the grammar's own characters can stand in a numeral, and of points and exponent letters
only one; two signs are never side by side (`WrittenIn.characters` and what follows it).
-/

namespace HostSql

namespace Numeral

/-! ## The grammar -/

/-- A row of decimal digits. -/
def IsDigits (ds : List Char) : Prop := ∀ c ∈ ds, c.isDigit = true

/-- An optional sign; without one the numeral is not negative. -/
inductive SignSpelling : Bool → List Char → Prop
  | absent : SignSpelling false []
  | plus : SignSpelling false ['+']
  | minus : SignSpelling true ['-']

/-- Digits, or digits on either side of a point or on both. -/
inductive MantissaSpelling : List Char → Option (List Char) → List Char → Prop
  | whole {ds : List Char} (hds : IsDigits ds) (hne : ds ≠ []) : MantissaSpelling ds none ds
  | pointed {ds fs : List Char} (hds : IsDigits ds) (hfs : IsDigits fs) (hne : ds ≠ [] ∨ fs ≠ []) :
    MantissaSpelling ds (some fs) (ds ++ '.' :: fs)

/-- An optional exponent: a letter, an optional sign and digits. -/
inductive ExponentSpelling : Option Exponent → List Char → Prop
  | absent : ExponentSpelling none []
  | present {letter : Char} {neg : Bool} {sign ds : List Char} (hletter : letter = 'e' ∨ letter = 'E')
    (hsign : SignSpelling neg sign) (hds : IsDigits ds) (hne : ds ≠ []) :
    ExponentSpelling (some ⟨neg, ds⟩) (letter :: (sign ++ ds))

/-- The characters `cs` spell the numeral `n`. -/
inductive Spelling : Numeral → List Char → Prop
  | mk {neg : Bool} {sign whole mantissa tail : List Char} {fraction : Option (List Char)}
    {exponent : Option Exponent} (hsign : SignSpelling neg sign)
    (hmantissa : MantissaSpelling whole fraction mantissa)
    (hexponent : ExponentSpelling exponent tail) :
    Spelling ⟨neg, whole, fraction, exponent⟩ (sign ++ (mantissa ++ tail))

/-- A row of blanks. -/
def IsBlanks (cs : List Char) : Prop := ∀ c ∈ cs, Text.isBlank c = true

/-- The text `s` is a spelling of `n` with blanks around it. -/
def WrittenIn (n : Numeral) (s : String) : Prop :=
  ∃ before core after, s.toList = before ++ (core ++ after) ∧ IsBlanks before ∧ IsBlanks after ∧
    n.Spelling core

/-! ## Signs and digits are read off -/

/-- A list that does not start with a sign. -/
def Unsigned (cs : List Char) : Prop := cs.head? ≠ some '+' ∧ cs.head? ≠ some '-'

/-- A list that does not start with a digit. -/
def Undigited (cs : List Char) : Prop := ∀ c ∈ cs.head?, c.isDigit = false

theorem IsDigits.unsigned {ds : List Char} (hds : IsDigits ds) (hne : ds ≠ []) (rest : List Char) :
    Unsigned (ds ++ rest) := by
  obtain ⟨c, ds, rfl⟩ := List.exists_cons_of_ne_nil hne
  have hc := hds c List.mem_cons_self
  constructor
  · intro h
    cases h
    exact absurd hc (by decide)
  · intro h
    cases h
    exact absurd hc (by decide)

theorem MantissaSpelling.unsigned {whole mantissa : List Char} {fraction : Option (List Char)}
    (h : MantissaSpelling whole fraction mantissa) (rest : List Char) :
    Unsigned (mantissa ++ rest) := by
  cases h with
  | whole hds hne => exact hds.unsigned hne _
  | pointed hds hfs hne =>
    cases whole with
    | nil =>
      constructor
      · intro h
        cases h
      · intro h
        cases h
    | cons c ds =>
      rw [List.append_assoc]
      exact hds.unsigned (List.cons_ne_nil _ _) _

theorem takeSign_spelling {neg : Bool} {sign rest : List Char} (hsign : SignSpelling neg sign)
    (hrest : Unsigned rest) : takeSign (sign ++ rest) = (neg, rest) := by
  cases hsign with
  | absent =>
    unfold takeSign
    split
    · next h => exact absurd (congrArg List.head? h) hrest.2
    · next h => exact absurd (congrArg List.head? h) hrest.1
    · rfl
  | plus => rfl
  | minus => rfl

theorem takeSign_eq {cs rest : List Char} {neg : Bool} (h : takeSign cs = (neg, rest)) :
    ∃ sign, SignSpelling neg sign ∧ cs = sign ++ rest := by
  unfold takeSign at h
  split at h
  · cases h
    exact ⟨_, .minus, rfl⟩
  · cases h
    exact ⟨_, .plus, rfl⟩
  · cases h
    exact ⟨_, .absent, rfl⟩

theorem takeDigits_append {ds rest : List Char} (hds : IsDigits ds) (hrest : Undigited rest) :
    takeDigits (ds ++ rest) = (ds, rest) := by
  have hstop : rest.takeWhile Char.isDigit = [] ∧ rest.dropWhile Char.isDigit = rest := by
    cases rest with
    | nil => exact ⟨rfl, rfl⟩
    | cons c rest =>
      have hc : c.isDigit = false := hrest c rfl
      exact ⟨List.takeWhile_cons_of_neg (by simp [hc]), List.dropWhile_cons_of_neg (by simp [hc])⟩
  unfold takeDigits
  rw [List.takeWhile_append_of_pos hds, List.dropWhile_append_of_pos hds, hstop.1, hstop.2,
    List.append_nil]

theorem takeDigits_eq {cs ds rest : List Char} (h : takeDigits cs = (ds, rest)) :
    cs = ds ++ rest ∧ IsDigits ds := by
  cases h
  refine ⟨List.takeWhile_append_dropWhile.symm, ?_⟩
  intro c hc
  exact List.all_eq_true.mp (List.all_takeWhile (p := Char.isDigit) (l := cs)) c hc

/-! ## The reader accepts the grammar -/

theorem readExponent?_iff {cs : List Char} {e : Option Exponent} :
    readExponent? cs = some e ↔ ExponentSpelling e cs := by
  constructor
  · intro h
    cases cs with
    | nil =>
      cases h
      exact .absent
    | cons letter rest =>
      cases hs : takeSign rest with
      | mk neg rest' =>
      cases hd : takeDigits rest' with
      | mk ds left =>
      obtain ⟨sign, hsign, hrest⟩ := takeSign_eq hs
      obtain ⟨hrest', hds⟩ := takeDigits_eq hd
      simp only [readExponent?, hs, hd] at h
      split at h
      · next hletter =>
        split at h
        · cases h
        · next hread =>
          rw [not_or] at hread
          have hne : ds ≠ [] := by simpa using hread.1
          have hleft : left = [] := by simpa using hread.2
          cases h
          rw [hrest, hrest', hleft, List.append_nil]
          exact .present hletter hsign hds hne
      · cases h
  · intro h
    cases h with
    | absent => rfl
    | @present letter neg sign ds hletter hsign hds hne =>
      have htake := takeSign_spelling hsign (by simpa using hds.unsigned hne [])
      have hdigits : takeDigits (ds ++ []) = (ds, []) :=
        takeDigits_append hds (by intro c hc; cases hc)
      rw [List.append_nil] at hdigits
      simp only [readExponent?, if_pos hletter, htake, hdigits]
      rw [if_neg (by simpa using hne)]

theorem ExponentSpelling.undigited {e : Option Exponent} {cs : List Char}
    (h : ExponentSpelling e cs) : Undigited cs := by
  intro c hc
  cases h with
  | absent => cases hc
  | present hletter _ _ _ =>
    cases hc
    rcases hletter with rfl | rfl <;> rfl

theorem ExponentSpelling.head_ne_point {e : Option Exponent} {cs : List Char}
    (h : ExponentSpelling e cs) (rest : List Char) : cs ≠ '.' :: rest := by
  cases h with
  | absent => exact fun h => List.cons_ne_nil _ _ h.symm
  | present hletter _ _ _ =>
    intro heq
    have hhead := (List.cons.inj heq).1
    rcases hletter with rfl | rfl <;> exact absurd hhead (by decide)

/-- The reader accepts exactly the spellings of numerals. -/
theorem readTight?_iff {cs : List Char} {n : Numeral} : readTight? cs = some n ↔ n.Spelling cs := by
  constructor
  · intro h
    cases hs : takeSign cs with
    | mk neg rest =>
    cases hw : takeDigits rest with
    | mk whole rest' =>
    obtain ⟨sign, hsign, hcs⟩ := takeSign_eq hs
    obtain ⟨hrest, hwhole⟩ := takeDigits_eq hw
    simp only [readTight?, hs, hw] at h
    rw [hcs, hrest]
    split at h
    · next _ tail =>
      cases hf : takeDigits tail with
      | mk fraction tail' =>
      obtain ⟨htail, hfraction⟩ := takeDigits_eq hf
      simp only [hf] at h
      split at h
      · cases h
      · next hsome =>
        obtain ⟨e, he, rfl⟩ := Option.map_eq_some_iff.mp h
        have hne : whole ≠ [] ∨ fraction ≠ [] := by
          rw [Classical.not_and_iff_not_or_not] at hsome
          simpa using hsome
        rw [htail, ← List.cons_append, ← List.append_assoc whole]
        exact .mk hsign (.pointed hwhole hfraction hne) (readExponent?_iff.mp he)
    · split at h
      · cases h
      · next hsome =>
        obtain ⟨e, he, rfl⟩ := Option.map_eq_some_iff.mp h
        exact .mk hsign (.whole hwhole (by simpa using hsome)) (readExponent?_iff.mp he)
  · intro h
    cases h with
    | @mk neg sign whole mantissa tail fraction exponent hsign hmantissa hexponent =>
      have htake := takeSign_spelling hsign (hmantissa.unsigned tail)
      have hread := readExponent?_iff.mpr hexponent
      cases hmantissa with
      | whole hwhole hne =>
        have hdigits := takeDigits_append hwhole hexponent.undigited
        simp only [readTight?, htake, hdigits]
        split
        · next rest => exact absurd rfl (hexponent.head_ne_point rest)
        · rw [if_neg (by simpa using hne), hread, Option.map_some]
      | @pointed fs hwhole hfraction hne =>
        have hdigits : takeDigits (whole ++ '.' :: fs ++ tail) = (whole, '.' :: (fs ++ tail)) := by
          rw [List.append_assoc, List.cons_append]
          exact takeDigits_append hwhole (by intro c hc; cases hc; rfl)
        have hplaces := takeDigits_append hfraction hexponent.undigited
        have hsome : ¬(whole.isEmpty = true ∧ fs.isEmpty = true) := by
          rw [List.isEmpty_iff, List.isEmpty_iff]
          exact not_and_or.mpr hne
        simp only [readTight?, htake, hdigits, hplaces]
        rw [if_neg hsome, hread, Option.map_some]

theorem Spelling.unique {n m : Numeral} {cs : List Char} (hn : n.Spelling cs) (hm : m.Spelling cs) :
    n = m :=
  Option.some.inj ((readTight?_iff.mpr hn).symm.trans (readTight?_iff.mpr hm))

/-! ## The characters of a numeral -/

/-- A sign. -/
def IsSign (c : Char) : Prop := c = '+' ∨ c = '-'

/-- The letter before an exponent. -/
def isExponentLetter (c : Char) : Bool := c == 'e' || c == 'E'

/-- The characters that the grammar has a use for. -/
def IsNumeralChar (c : Char) : Prop :=
  c.isDigit = true ∨ IsSign c ∨ c = '.' ∨ isExponentLetter c = true

theorem digit_plain {c : Char} (h : c.isDigit = true) :
    Text.isBlank c = false ∧ ¬ IsSign c ∧ c ≠ '.' ∧ isExponentLetter c = false := by
  have hrange : 48 ≤ c.toNat ∧ c.toNat ≤ 57 := by
    simp only [Char.isDigit, Bool.and_eq_true, decide_eq_true_eq, ge_iff_le,
      UInt32.le_iff_toNat_le] at h
    exact h
  have hne {d : Char} (hd : d.toNat < 48 ∨ 57 < d.toNat) : c ≠ d := by
    intro heq
    rw [heq] at hrange
    omega
  refine ⟨?_, ?_, hne (by decide), ?_⟩
  · simp only [Text.isBlank, Bool.or_eq_false_iff, Bool.and_eq_false_iff, decide_eq_false_iff_not,
      beq_eq_false_iff_ne]
    omega
  · exact fun h => h.elim (hne (by decide)) (hne (by decide))
  · simp only [isExponentLetter, Bool.or_eq_false_iff, beq_eq_false_iff_ne]
    exact ⟨hne (by decide), hne (by decide)⟩

theorem IsNumeralChar.not_blank {c : Char} (h : IsNumeralChar c) : Text.isBlank c = false := by
  rcases h with hdigit | (rfl | rfl) | rfl | hletter
  · exact (digit_plain hdigit).1
  · rfl
  · rfl
  · rfl
  · simp only [isExponentLetter, Bool.or_eq_true, beq_iff_eq] at hletter
    rcases hletter with rfl | rfl <;> rfl

theorem SignSpelling.isSign {neg : Bool} {sign : List Char} (h : SignSpelling neg sign) :
    ∀ c ∈ sign, IsSign c := by
  intro c hc
  cases h with
  | absent => cases hc
  | plus => exact .inl (List.mem_singleton.mp hc)
  | minus => exact .inr (List.mem_singleton.mp hc)

theorem IsSign.plain {c : Char} (h : IsSign c) : c ≠ '.' ∧ isExponentLetter c = false := by
  rcases h with rfl | rfl <;> exact ⟨by decide, by decide⟩

theorem exponentLetter_plain {c : Char} (h : c = 'e' ∨ c = 'E') :
    ¬ IsSign c ∧ c ≠ '.' ∧ isExponentLetter c = true := by
  unfold IsSign
  rcases h with rfl | rfl <;> decide

namespace Spelling

variable {n : Numeral} {cs : List Char}

theorem characters (h : n.Spelling cs) : ∀ c ∈ cs, IsNumeralChar c := by
  intro c hc
  cases h with
  | mk hsign hmantissa hexponent =>
  rcases List.mem_append.mp hc with hc | hc
  · exact .inr (.inl (hsign.isSign c hc))
  rcases List.mem_append.mp hc with hc | hc
  · cases hmantissa with
    | whole hds _ => exact .inl (hds c hc)
    | pointed hds hfs _ =>
      rcases List.mem_append.mp hc with hc | hc
      · exact .inl (hds c hc)
      rcases List.mem_cons.mp hc with hc | hc
      · exact .inr (.inr (.inl hc))
      · exact .inl (hfs c hc)
  · cases hexponent with
    | absent => cases hc
    | present hletter hsign hds _ =>
      rcases List.mem_cons.mp hc with rfl | hc
      · exact .inr (.inr (.inr (exponentLetter_plain hletter).2.2))
      rcases List.mem_append.mp hc with hc | hc
      · exact .inr (.inl (hsign.isSign c hc))
      · exact .inl (hds c hc)

theorem ne_nil (h : n.Spelling cs) : cs ≠ [] := by
  intro hnil
  rw [hnil] at h
  cases readTight?_iff.mpr h

/-- There is one point at most. -/
theorem count_point (h : n.Spelling cs) : cs.countP (· == '.') ≤ 1 := by
  have hdigits {ds : List Char} (hds : IsDigits ds) : ds.countP (· == '.') = 0 :=
    List.countP_eq_zero.mpr fun c hc => by simpa using (digit_plain (hds c hc)).2.2.1
  have hsigns {neg : Bool} {sign : List Char} (hsign : SignSpelling neg sign) :
      sign.countP (· == '.') = 0 :=
    List.countP_eq_zero.mpr fun c hc => by simpa using (hsign.isSign c hc).plain.1
  cases h with
  | @mk _ _ _ mantissa tail _ _ hsign hmantissa hexponent =>
  have hmantissa : mantissa.countP (· == '.') ≤ 1 := by
    cases hmantissa with
    | whole hds _ => rw [hdigits hds]; exact Nat.zero_le 1
    | pointed hds hfs _ =>
      rw [List.countP_append, List.countP_cons, hdigits hds, hdigits hfs]
      exact Nat.le_refl 1
  have hexponent : tail.countP (· == '.') = 0 := by
    cases hexponent with
    | absent => rfl
    | present hletter hsign hds _ =>
      rw [List.countP_cons_of_neg (by simpa using (exponentLetter_plain hletter).2.1),
        List.countP_append, hsigns hsign, hdigits hds]
  rw [List.countP_append, List.countP_append, hsigns hsign, hexponent, Nat.zero_add]
  exact hmantissa

/-- There is one exponent letter at most. -/
theorem count_letter (h : n.Spelling cs) : cs.countP isExponentLetter ≤ 1 := by
  have hdigits {ds : List Char} (hds : IsDigits ds) : ds.countP isExponentLetter = 0 :=
    List.countP_eq_zero.mpr fun c hc => by simpa using (digit_plain (hds c hc)).2.2.2
  have hsigns {neg : Bool} {sign : List Char} (hsign : SignSpelling neg sign) :
      sign.countP isExponentLetter = 0 :=
    List.countP_eq_zero.mpr fun c hc => by simpa using (hsign.isSign c hc).plain.2
  cases h with
  | @mk _ _ _ mantissa tail _ _ hsign hmantissa hexponent =>
  have hmantissa : mantissa.countP isExponentLetter = 0 := by
    cases hmantissa with
    | whole hds _ => exact hdigits hds
    | pointed hds hfs _ =>
      rw [List.countP_append, List.countP_cons_of_neg (by decide), hdigits hds, hdigits hfs]
  have hexponent : tail.countP isExponentLetter ≤ 1 := by
    cases hexponent with
    | absent => exact Nat.zero_le 1
    | present hletter hsign hds _ =>
      rw [List.countP_cons_of_pos (exponentLetter_plain hletter).2.2, List.countP_append,
        hsigns hsign, hdigits hds]
  rw [List.countP_append, List.countP_append, hsigns hsign, hmantissa, Nat.zero_add, Nat.zero_add]
  exact hexponent

/-- There is a point exactly if there is a fraction. -/
theorem mem_point_iff (h : n.Spelling cs) : '.' ∈ cs ↔ n.fraction ≠ none := by
  have hdigits {ds : List Char} (hds : IsDigits ds) : '.' ∉ ds :=
    fun hc => (digit_plain (hds _ hc)).2.2.1 rfl
  have hsigns {neg : Bool} {sign : List Char} (hsign : SignSpelling neg sign) : '.' ∉ sign :=
    fun hc => (hsign.isSign _ hc).plain.1 rfl
  cases h with
  | @mk _ _ _ mantissa tail _ _ hsign hmantissa hexponent =>
  have htail : '.' ∉ tail := by
    cases hexponent with
    | absent => exact List.not_mem_nil
    | present hletter hsign hds _ =>
      rw [List.mem_cons, List.mem_append, not_or, not_or]
      exact ⟨(exponentLetter_plain hletter).2.1.symm, hsigns hsign, hdigits hds⟩
  rw [List.mem_append, List.mem_append]
  cases hmantissa with
  | whole hds _ =>
    exact ⟨fun h => absurd h (by simp only [hsigns hsign, hdigits hds, htail, or_self,
      not_false_eq_true]), fun h => absurd rfl h⟩
  | pointed _ _ _ =>
    refine ⟨fun _ h => Option.some_ne_none _ h, fun _ => .inr (.inl ?_)⟩
    exact List.mem_append_right _ List.mem_cons_self

/-- Without an exponent there is no letter. -/
theorem not_mem_letter (h : n.Spelling cs) (hexponent : n.exponent = none) :
    ∀ c ∈ cs, isExponentLetter c = false := by
  intro c hc
  cases h with
  | mk hsign hmantissa htail =>
  cases hexponent
  cases htail
  rw [List.append_nil] at hc
  rcases List.mem_append.mp hc with hc | hc
  · exact (hsign.isSign c hc).plain.2
  · cases hmantissa with
    | whole hds _ => exact (digit_plain (hds c hc)).2.2.2
    | pointed hds hfs _ =>
      rcases List.mem_append.mp hc with hc | hc
      · exact (digit_plain (hds c hc)).2.2.2
      rcases List.mem_cons.mp hc with rfl | hc
      · rfl
      · exact (digit_plain (hfs c hc)).2.2.2

/-- Two characters that are not both signs. -/
def Apart (c d : Char) : Prop := ¬(IsSign c ∧ IsSign d)

theorem chain_append {plain rest : List Char} (hplain : ∀ c ∈ plain, ¬ IsSign c)
    (hrest : rest.IsChain Apart) : (plain ++ rest).IsChain Apart := by
  induction plain with
  | nil => exact hrest
  | cons c plain ih =>
    rw [List.cons_append, List.isChain_cons]
    refine ⟨fun d _ hboth => hplain c List.mem_cons_self hboth.1, ih fun d hd => ?_⟩
    exact hplain d (List.mem_cons_of_mem _ hd)

theorem chain_sign {neg : Bool} {sign rest : List Char} (hsign : SignSpelling neg sign)
    (hunsigned : Unsigned rest) (hrest : rest.IsChain Apart) : (sign ++ rest).IsChain Apart := by
  have hapart (c : Char) : ∀ d ∈ rest.head?, Apart c d := by
    intro d hd hboth
    rcases hboth.2 with rfl | rfl
    · exact hunsigned.1 hd
    · exact hunsigned.2 hd
  cases hsign with
  | absent => exact hrest
  | plus => exact List.isChain_cons.mpr ⟨hapart _, hrest⟩
  | minus => exact List.isChain_cons.mpr ⟨hapart _, hrest⟩

/-- No two signs stand side by side, also if more characters follow that are not signs. -/
theorem chain {rest : List Char} (h : n.Spelling cs) (hrest : ∀ c ∈ rest, ¬ IsSign c) :
    (cs ++ rest).IsChain Apart := by
  have hdigits {ds : List Char} (hds : IsDigits ds) : ∀ c ∈ ds, ¬ IsSign c :=
    fun c hc => (digit_plain (hds c hc)).2.1
  have hend : rest.IsChain Apart := by
    have := chain_append hrest .nil
    rwa [List.append_nil] at this
  cases h with
  | @mk _ _ _ mantissa tail _ _ hsign hmantissa hexponent =>
  have htail : (tail ++ rest).IsChain Apart := by
    cases hexponent with
    | absent => exact hend
    | present hletter hsign hds hne =>
      rw [List.cons_append, List.append_assoc, List.isChain_cons]
      refine ⟨fun d _ hboth => (exponentLetter_plain hletter).1 hboth.1, ?_⟩
      exact chain_sign hsign (hds.unsigned hne _) (chain_append (hdigits hds) hend)
  rw [List.append_assoc, List.append_assoc]
  refine chain_sign hsign (hmantissa.unsigned _) (chain_append ?_ htail)
  cases hmantissa with
  | whole hds _ => exact hdigits hds
  | pointed hds hfs _ =>
    intro c hc
    rcases List.mem_append.mp hc with hc | hc
    · exact hdigits hds c hc
    rcases List.mem_cons.mp hc with rfl | hc
    · unfold IsSign
      decide
    · exact hdigits hfs c hc

end Spelling

/-! ## Blanks around it -/

/-- Trimming takes the blanks off on both sides. -/
theorem trim_append {before core after : List Char} (hbefore : IsBlanks before)
    (hafter : IsBlanks after) (hcore : ∀ c ∈ core, Text.isBlank c = false) (hne : core ≠ []) :
    Text.trim Text.isBlank (before ++ (core ++ after)) = core := by
  have hstop {cs : List Char} (hcs : ∀ c ∈ cs, Text.isBlank c = false) (hne : cs ≠ [])
      (rest : List Char) : (cs ++ rest).dropWhile Text.isBlank = cs ++ rest := by
    obtain ⟨c, cs, rfl⟩ := List.exists_cons_of_ne_nil hne
    exact List.dropWhile_cons_of_neg (by simp [hcs c List.mem_cons_self])
  unfold Text.trim Text.trimRight Text.trimLeft
  rw [List.dropWhile_append_of_pos hbefore, hstop hcore hne after, List.reverse_append,
    List.dropWhile_append_of_pos fun c hc => hafter c (List.mem_reverse.mp hc)]
  have hreverse := hstop (fun c hc => hcore c (List.mem_reverse.mp hc))
    (List.reverse_ne_nil_iff.mpr hne) []
  rw [List.append_nil] at hreverse
  rw [hreverse, List.reverse_reverse]

/-- What trimming leaves has only blanks around it. -/
theorem exists_trim (cs : List Char) :
    ∃ before after, cs = before ++ (Text.trim Text.isBlank cs ++ after) ∧ IsBlanks before ∧
      IsBlanks after := by
  have hblanks (cs : List Char) : IsBlanks (cs.takeWhile Text.isBlank) := fun c hc =>
    List.all_eq_true.mp (List.all_takeWhile (p := Text.isBlank) (l := cs)) c hc
  refine ⟨cs.takeWhile Text.isBlank,
    ((cs.dropWhile Text.isBlank).reverse.takeWhile Text.isBlank).reverse, ?_, hblanks cs, ?_⟩
  · unfold Text.trim Text.trimRight Text.trimLeft
    rw [← List.reverse_append, List.takeWhile_append_dropWhile, List.reverse_reverse,
      List.takeWhile_append_dropWhile]
  · intro c hc
    exact hblanks _ c (List.mem_reverse.mp hc)

/-- The reader accepts exactly the texts of the grammar, and returns the numeral they spell. -/
theorem read?_iff {s : String} {n : Numeral} : read? s = some n ↔ n.WrittenIn s := by
  unfold read?
  constructor
  · intro h
    obtain ⟨before, after, hs, hbefore, hafter⟩ := exists_trim s.toList
    exact ⟨before, _, after, hs, hbefore, hafter, readTight?_iff.mp h⟩
  · intro h
    obtain ⟨before, core, after, hs, hbefore, hafter, hcore⟩ := h
    rw [hs, trim_append hbefore hafter (fun c hc => (hcore.characters c hc).not_blank) hcore.ne_nil]
    exact readTight?_iff.mpr hcore

/-! ## What cannot be in a text that is read -/

namespace WrittenIn

variable {n : Numeral} {s : String}

theorem unique {m : Numeral} (hn : n.WrittenIn s) (hm : m.WrittenIn s) : n = m :=
  Option.some.inj ((read?_iff.mpr hn).symm.trans (read?_iff.mpr hm))

theorem blank_plain {c : Char} (h : Text.isBlank c = true) :
    ¬ IsSign c ∧ c ≠ '.' ∧ isExponentLetter c = false := by
  have hne {d : Char} (hd : Text.isBlank d = false) : c ≠ d := by
    intro heq
    rw [heq, hd] at h
    cases h
  refine ⟨fun h => h.elim (hne (by decide)) (hne (by decide)), hne (by decide), ?_⟩
  simp only [isExponentLetter, Bool.or_eq_false_iff, beq_eq_false_iff_ne]
  exact ⟨hne (by decide), hne (by decide)⟩

theorem characters (h : n.WrittenIn s) :
    ∀ c ∈ s.toList, Text.isBlank c = true ∨ IsNumeralChar c := by
  intro c hc
  obtain ⟨before, core, after, hs, hbefore, hafter, hcore⟩ := h
  rw [hs] at hc
  rcases List.mem_append.mp hc with hc | hc
  · exact .inl (hbefore c hc)
  rcases List.mem_append.mp hc with hc | hc
  · exact .inr (hcore.characters c hc)
  · exact .inl (hafter c hc)

/-- A blank has only blanks on one side of it. -/
theorem blanks_outside (h : n.WrittenIn s) {a b : List Char} {c : Char}
    (hs : s.toList = a ++ c :: b) (hc : Text.isBlank c = true) : IsBlanks a ∨ IsBlanks b := by
  obtain ⟨before, core, after, hparts, hbefore, hafter, hcore⟩ := h
  rw [hparts] at hs
  rcases List.append_eq_append_iff.mp hs with ⟨left, ha, hright⟩ | ⟨left, hb, -⟩
  · rcases List.append_eq_append_iff.mp hright with ⟨mid, hleft, hend⟩ | ⟨mid, hcut, hend⟩
    · right
      intro d hd
      refine hafter d ?_
      rw [hend]
      exact List.mem_append_right _ (List.mem_cons_of_mem _ hd)
    · cases mid with
      | nil =>
        right
        intro d hd
        refine hafter d ?_
        rw [List.nil_append] at hend
        rw [← hend]
        exact List.mem_cons_of_mem _ hd
      | cons d mid =>
        have hd : d = c := (List.cons.inj hend).1.symm
        have hmem : c ∈ core := by
          rw [hcut, hd]
          exact List.mem_append_right _ List.mem_cons_self
        rw [(hcore.characters c hmem).not_blank] at hc
        cases hc
  · left
    intro d hd
    refine hbefore d ?_
    rw [hb]
    exact List.mem_append_left _ hd

/-- Counting characters that are no blanks is counting them in the numeral. -/
theorem countP_le (h : n.WrittenIn s) {p : Char → Bool}
    (hblank : ∀ c, Text.isBlank c = true → p c = false)
    (hcount : ∀ {cs : List Char}, n.Spelling cs → cs.countP p ≤ 1) : s.toList.countP p ≤ 1 := by
  obtain ⟨before, core, after, hs, hbefore, hafter, hcore⟩ := h
  have hnone {cs : List Char} (hcs : IsBlanks cs) : cs.countP p = 0 :=
    List.countP_eq_zero.mpr fun c hc => by simp [hblank c (hcs c hc)]
  rw [hs, List.countP_append, List.countP_append, hnone hbefore, hnone hafter, Nat.zero_add,
    Nat.add_zero]
  exact hcount hcore

theorem count_point (h : n.WrittenIn s) : s.toList.countP (· == '.') ≤ 1 :=
  h.countP_le (fun _ hc => by simpa using (blank_plain hc).2.1) Spelling.count_point

theorem count_letter (h : n.WrittenIn s) : s.toList.countP isExponentLetter ≤ 1 :=
  h.countP_le (fun _ hc => (blank_plain hc).2.2) Spelling.count_letter

theorem mem_point_iff (h : n.WrittenIn s) : '.' ∈ s.toList ↔ n.fraction ≠ none := by
  obtain ⟨before, core, after, hs, hbefore, hafter, hcore⟩ := h
  have hnone {cs : List Char} (hcs : IsBlanks cs) : '.' ∉ cs :=
    fun hc => (blank_plain (hcs _ hc)).2.1 rfl
  rw [hs, List.mem_append, List.mem_append, hcore.mem_point_iff]
  constructor
  · intro h
    rcases h with h | h | h
    · exact absurd h (hnone hbefore)
    · exact h
    · exact absurd h (hnone hafter)
  · exact fun h => .inr (.inl h)

theorem not_mem_letter (h : n.WrittenIn s) (hexponent : n.exponent = none) :
    ∀ c ∈ s.toList, isExponentLetter c = false := by
  intro c hc
  obtain ⟨before, core, after, hs, hbefore, hafter, hcore⟩ := h
  rw [hs] at hc
  rcases List.mem_append.mp hc with hc | hc
  · exact (blank_plain (hbefore c hc)).2.2
  rcases List.mem_append.mp hc with hc | hc
  · exact hcore.not_mem_letter hexponent c hc
  · exact (blank_plain (hafter c hc)).2.2

theorem signs_apart (h : n.WrittenIn s) {a b : List Char} {c d : Char}
    (hs : s.toList = a ++ c :: d :: b) : ¬(IsSign c ∧ IsSign d) := by
  obtain ⟨before, core, after, hparts, hbefore, hafter, hcore⟩ := h
  have hchain : s.toList.IsChain Spelling.Apart := by
    rw [hparts]
    exact Spelling.chain_append (fun c hc => (blank_plain (hbefore c hc)).1)
      (hcore.chain fun c hc => (blank_plain (hafter c hc)).1)
  rw [hs, List.isChain_append_cons_cons] at hchain
  exact hchain.2.1

end WrittenIn

end Numeral

end HostSql
