import HostSql.Text.Utf8

/-!
# Text goes through the engine unchanged

What the engine is given as a `String` it hands back as the same `String`, up to its first NUL
where it is read as zero-terminated text.

> `decode_encode`: decoding the bytes of a text gives the text.
> `textOf_encode`: a zero-terminated reader finds the text up to its first NUL.
> `dropBytes?_size_take`: where a character begins, an offset in bytes cuts a text without loss.

The first two rest on one fact about characters, `decodeFrom_encodeChar`: the decoder reads the
bytes of a character as that character and goes on afresh.
-/

namespace HostSql.Utf8

/-! ## Single characters -/

/-- The code points of characters, without the surrogates. -/
theorem char_range (c : Char) :
    c.val.toNat < 0xD800 ∨ 0xDFFF < c.val.toNat ∧ c.val.toNat < 0x110000 :=
  c.valid

theorem ofNat_val (c : Char) : Char.ofNat c.val.toNat = c := Char.ofNat_toNat c

/-- Whether a byte may continue a character depends on its number. -/
theorem accepts_iff (bits missing : Nat) (low high b : UInt8) :
    (Pending.mk bits missing low high).accepts b = true ↔
      low.toNat ≤ b.toNat ∧ b.toNat ≤ high.toNat := by
  simp [Pending.accepts, UInt8.le_iff_toNat_le]

/-- A byte that continues a character and is not its last. -/
theorem decodeFrom_more {bits missing : Nat} {low high b : UInt8} (rest : List UInt8)
    (h : low.toNat ≤ b.toNat ∧ b.toNat ≤ high.toNat) (hmissing : 1 < missing) :
    decodeFrom (some ⟨bits, missing, low, high⟩) (b :: rest) =
      decodeFrom (some ⟨bits * 64 + (b.toNat - 0x80), missing - 1, 0x80, 0xBF⟩) rest := by
  rw [decodeFrom, if_pos ((accepts_iff bits missing low high b).mpr h),
    if_neg (Nat.not_le.mpr hmissing)]
  rfl

/-- The last byte of a character. -/
theorem decodeFrom_last {bits : Nat} {low high b : UInt8} (rest : List UInt8)
    (h : low.toNat ≤ b.toNat ∧ b.toNat ≤ high.toNat) :
    decodeFrom (some ⟨bits, 1, low, high⟩) (b :: rest) =
      Char.ofNat (bits * 64 + (b.toNat - 0x80)) :: decodeFrom none rest := by
  rw [decodeFrom, if_pos ((accepts_iff bits 1 low high b).mpr h), if_pos (Nat.le_refl 1)]
  rfl

/-- The first byte of a character of several bytes. -/
theorem decodeFrom_lead {b : UInt8} {p : Pending} (rest : List UInt8) (h : Lead.of b = .pending p) :
    decodeFrom none (b :: rest) = decodeFrom (some p) rest := by
  rw [decodeFrom, h]

/-- The number of a byte that was made from a number below 256. -/
theorem toNat_ofNat {n : Nat} (h : n < 256) : (UInt8.ofNat n).toNat = n := by
  rw [UInt8.toNat_ofNat']
  exact Nat.mod_eq_of_lt h

/-- The first byte of one. -/
theorem lead_one : ∀ n < 0x80, Lead.of (UInt8.ofNat n) = .char (Char.ofNat n) := by decide

/-- The first byte of two. -/
theorem lead_two : ∀ n < 32, 2 ≤ n →
    Lead.of (UInt8.ofNat (n + 0xC0)) = .pending ⟨n, 1, 0x80, 0xBF⟩ := by decide

/-- The first byte of three. -/
theorem lead_three : ∀ n < 16, Lead.of (UInt8.ofNat (n + 0xE0)) =
    .pending ⟨n, 2, if n = 0 then 0xA0 else 0x80, if n = 13 then 0x9F else 0xBF⟩ := by decide

/-- The first byte of four. -/
theorem lead_four : ∀ n < 5, Lead.of (UInt8.ofNat (n + 0xF0)) =
    .pending ⟨n, 3, if n = 0 then 0x90 else 0x80, if n = 4 then 0x8F else 0xBF⟩ := by decide

/-- A byte that continues a character. -/
theorem toNat_more (n : Nat) : (UInt8.ofNat (n % 0x40 + 0x80)).toNat = n % 0x40 + 0x80 :=
  toNat_ofNat (by omega)

/-- A byte that continues a character lies in the range of such bytes. -/
theorem more_range (n : Nat) : (0x80 : UInt8).toNat ≤ (UInt8.ofNat (n % 0x40 + 0x80)).toNat ∧
    (UInt8.ofNat (n % 0x40 + 0x80)).toNat ≤ (0xBF : UInt8).toNat := by
  rw [toNat_more]
  constructor
  · exact Nat.le_add_left _ _
  · show n % 0x40 + 0x80 ≤ 0xBF
    omega

/-- A byte that continues a character after a first byte at an edge of its range. -/
theorem second_range {n m top : Nat} {low high : UInt8}
    (hlow : n = 0 → low.toNat ≤ m % 0x40 + 0x80)
    (hhigh : n = top → m % 0x40 + 0x80 ≤ high.toNat) :
    (if n = 0 then low else 0x80).toNat ≤ (UInt8.ofNat (m % 0x40 + 0x80)).toNat ∧
      (UInt8.ofNat (m % 0x40 + 0x80)).toNat ≤ (if n = top then high else 0xBF).toNat := by
  constructor
  · split
    next h =>
      rw [toNat_more]
      exact hlow h
    next => exact (more_range m).1
  · split
    next h =>
      rw [toNat_more]
      exact hhigh h
    next => exact (more_range m).2

/-- The bytes of a character are read as the character. -/
theorem decodeFrom_encodeChar (c : Char) (rest : List UInt8) :
    decodeFrom none (String.utf8EncodeChar c ++ rest) = c :: decodeFrom none rest := by
  have hrange := char_range c
  have hval := ofNat_val c
  unfold String.utf8EncodeChar
  generalize c.val.toNat = v at hrange hval
  simp only
  by_cases h1 : v ≤ 0x7f
  · rw [if_pos h1, List.cons_append, List.nil_append, decodeFrom, lead_one v (by omega), hval]
  rw [if_neg h1]
  by_cases h2 : v ≤ 0x7ff
  · rw [if_pos h2, List.cons_append, List.cons_append, List.nil_append,
      decodeFrom_lead _ (lead_two _ (by omega) (by omega)), decodeFrom_last _ (more_range v),
      toNat_more]
    have hbits : v / 64 % 0x20 * 64 + (v % 0x40 + 0x80 - 0x80) = v := by omega
    rw [hbits, hval]
  rw [if_neg h2]
  by_cases h3 : v ≤ 0xffff
  · rw [if_pos h3, List.cons_append, List.cons_append, List.cons_append, List.nil_append,
      decodeFrom_lead _ (lead_three _ (by omega)), decodeFrom_more _ _ (by omega),
      decodeFrom_last _ (more_range v), toNat_more, toNat_more]
    · have hbits : (v / 4096 % 0x10 * 64 + (v / 64 % 0x40 + 0x80 - 0x80)) * 64 +
          (v % 0x40 + 0x80 - 0x80) = v := by omega
      rw [hbits, hval]
    · -- long forms of small numbers, and surrogates, would have another second byte
      refine second_range (fun h => ?_) fun h => ?_
      · show 0xA0 ≤ _
        omega
      · show _ ≤ 0x9F
        omega
  · rw [if_neg h3, List.cons_append, List.cons_append, List.cons_append, List.cons_append,
      List.nil_append, decodeFrom_lead _ (lead_four _ (by omega)), decodeFrom_more _ _ (by omega),
      decodeFrom_more _ (more_range _) (by omega), decodeFrom_last _ (more_range v), toNat_more,
      toNat_more, toNat_more]
    · have hbits : ((v / 262144 % 0x08 * 64 + (v / 4096 % 0x40 + 0x80 - 0x80)) * 64 +
          (v / 64 % 0x40 + 0x80 - 0x80)) * 64 + (v % 0x40 + 0x80 - 0x80) = v := by omega
      rw [hbits, hval]
    · -- so would long forms again, and numbers above the last character
      refine second_range (fun h => ?_) fun h => ?_
      · show 0x90 ≤ _
        omega
      · show _ ≤ 0x8F
        omega

/-! ## Texts -/

/-- Decoding the bytes of characters gives the characters. -/
theorem decodeFrom_encodeChars (cs : List Char) : decodeFrom none (encodeChars cs) = cs := by
  induction cs with
  | nil => rfl
  | cons c cs ih =>
    show decodeFrom none (String.utf8EncodeChar c ++ encodeChars cs) = c :: cs
    rw [decodeFrom_encodeChar, ih]

/-- Decoding the bytes of a text gives the text. -/
theorem decode_encode (s : String) : decode (encode s) = s := by
  unfold decode encode
  rw [decodeFrom_encodeChars, String.ofList_toList]

/-- A byte made from a number between zero and 256 is not zero. -/
theorem ofNat_ne_zero {n : Nat} (h : n ≠ 0) (h' : n < 256) : UInt8.ofNat n ≠ 0 := by
  intro heq
  have hnat := congrArg UInt8.toNat heq
  rw [toNat_ofNat h'] at hnat
  exact h hnat

/-- The bytes of a character other than NUL are not zero. -/
theorem encodeChar_ne_zero {c : Char} (h : c ≠ '\x00') : ∀ b ∈ String.utf8EncodeChar c, b ≠ 0 := by
  have hval : c.val.toNat ≠ 0 := by
    intro heq
    exact h (by rw [← ofNat_val c, heq])
  unfold String.utf8EncodeChar
  generalize c.val.toNat = v at hval
  intro b hb
  simp only at hb
  split at hb
  next h1 =>
    rw [List.mem_singleton.mp hb]
    exact ofNat_ne_zero hval (by omega)
  next =>
    -- all bytes of longer characters have their highest bit set
    obtain ⟨n, hn, hn', rfl⟩ : ∃ n, n ≠ 0 ∧ n < 256 ∧ b = UInt8.ofNat n := by
      split at hb
      · simp only [List.mem_cons, List.not_mem_nil, or_false] at hb
        rcases hb with rfl | rfl <;> exact ⟨_, by omega, by omega, rfl⟩
      split at hb
      · simp only [List.mem_cons, List.not_mem_nil, or_false] at hb
        rcases hb with rfl | rfl | rfl <;> exact ⟨_, by omega, by omega, rfl⟩
      · simp only [List.mem_cons, List.not_mem_nil, or_false] at hb
        rcases hb with rfl | rfl | rfl | rfl <;> exact ⟨_, by omega, by omega, rfl⟩
    exact ofNat_ne_zero hn hn'

/-- Cutting bytes at the first zero byte cuts a text at its first NUL. -/
theorem beforeNul_encodeChars (cs : List Char) :
    beforeNul (encodeChars cs) = encodeChars (cs.takeWhile (· != '\x00')) := by
  induction cs with
  | nil => rfl
  | cons c cs ih =>
    by_cases h : c = '\x00'
    · rw [h]
      rfl
    · have hkeep : ∀ b ∈ String.utf8EncodeChar c, (b != 0) = true := fun b hb => by
        simpa using encodeChar_ne_zero h b hb
      have hchar : (c != '\x00') = true := by simpa using h
      unfold beforeNul at ih ⊢
      rw [List.takeWhile_cons, if_pos hchar]
      show (String.utf8EncodeChar c ++ encodeChars cs).takeWhile _ =
        String.utf8EncodeChar c ++ encodeChars _
      rw [List.takeWhile_append_of_pos hkeep, ih]

/-- A zero-terminated reader finds the text up to its first NUL. -/
theorem textOf_encode (s : String) : textOf (encode s) = cutAtNul s := by
  unfold textOf encode cutAtNul decode
  rw [beforeNul_encodeChars, decodeFrom_encodeChars]

/-! ## Offsets -/

/-- The size of a text is the number of its bytes. -/
theorem length_encodeChars (cs : List Char) : (encodeChars cs).length = size cs := by
  induction cs with
  | nil => rfl
  | cons c cs ih =>
    show (String.utf8EncodeChar c ++ encodeChars cs).length = _
    rw [List.length_append, String.length_utf8EncodeChar, ih]
    rfl

/-- A character takes bytes from every offset behind it. -/
theorem dropBytes?_cons (c : Char) (n : Nat) (cs : List Char) :
    dropBytes? (c.utf8Size + n) (c :: cs) = dropBytes? n cs := by
  have hpos := Char.utf8Size_pos c
  obtain ⟨m, hm⟩ := Nat.exists_eq_add_one_of_ne_zero (Nat.ne_of_gt (Nat.add_pos_left hpos n))
  rw [hm, dropBytes?, if_pos (by omega), ← hm, Nat.add_sub_cancel_left]

/-- At the offset of a character stands the text from that character on. -/
theorem dropBytes?_size_take (n : Nat) (cs : List Char) :
    dropBytes? (size (cs.take n)) cs = some (cs.drop n) := by
  induction cs generalizing n with
  | nil => cases n <;> rfl
  | cons c cs ih =>
    cases n with
    | zero => rfl
    | succ n =>
      rw [List.take_succ_cons, size, dropBytes?_cons]
      exact ih n

end HostSql.Utf8
