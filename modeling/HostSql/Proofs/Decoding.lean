import Mathlib.Data.List.TakeWhile
import HostSql.Proofs.Utf8

/-!
# How ill-formed bytes are decoded

`Decodes` says what a text is that is read from bytes: where a character stands it is read, and where
none stands, the longest run of bytes that begins a character, or else a single byte, is read as one
replacement character.

> `decodes_iff`: so decoding is, for all bytes.
> `textOf_whole`: a text that has been read up to a zero byte holds no NUL, so reading its own bytes
> gives it again.

The decoder remembers of the bytes that it has begun with only a pending character (`Opens`). It
refuses a byte exactly where no character begins with all of them.
-/

namespace HostSql.Utf8

/-! ## What is expected -/

/-- Bytes with which a character begins. -/
def BeginsChar (part : List UInt8) : Prop := ∃ c : Char, part <+: String.utf8EncodeChar c

/-- A run of bytes, at which no character stands, that is as long as the beginning of a character can
be. -/
structure IllFormedRun (part rest : List UInt8) : Prop where
  noChar : ∀ c tail, part ++ rest ≠ String.utf8EncodeChar c ++ tail
  begins : part.length = 1 ∨ part ≠ [] ∧ BeginsChar part
  longest : ∀ b tail, rest = b :: tail → ¬ BeginsChar (part ++ [b])

/-- The characters that bytes are read as. -/
inductive Decodes : List UInt8 → List Char → Prop
  | nil : Decodes [] []
  | char (c : Char) {rest : List UInt8} {cs : List Char} (h : Decodes rest cs) :
      Decodes (String.utf8EncodeChar c ++ rest) (c :: cs)
  | illFormed {part rest : List UInt8} {cs : List Char} (hrun : IllFormedRun part rest)
      (h : Decodes rest cs) : Decodes (part ++ rest) (replacement :: cs)

theorem encodeChar_ne_nil (c : Char) : String.utf8EncodeChar c ≠ [] := by
  intro h
  have hpos := Char.utf8Size_pos c
  rw [← String.length_utf8EncodeChar, h] at hpos
  exact Nat.lt_irrefl 0 hpos

/-- What bytes are read as is one thing. -/
theorem Decodes.unique {bytes : List UInt8} {cs cs' : List Char} (h : Decodes bytes cs)
    (h' : Decodes bytes cs') : cs = cs' := by
  have hlonger {part rest part' rest' as : List UInt8} (hrun : IllFormedRun part rest)
      (hrun' : IllFormedRun part' rest') (hpart : part' = part ++ as) (hrest : rest = as ++ rest') :
      as = [] := by
    cases as with
    | nil => rfl
    | cons b as =>
      refine absurd ?_ (hrun.longest b _ hrest)
      rcases hrun'.begins with hone | ⟨-, c, hbegins⟩
      · have hnil : part = [] := by
          rw [hpart, List.length_append, List.length_cons] at hone
          exact List.length_eq_zero_iff.mp (by omega)
        rcases hrun.begins with hone | ⟨hne, -⟩
        · rw [hnil] at hone
          cases hone
        · exact absurd hnil hne
      · refine ⟨c, List.IsPrefix.trans ⟨as, ?_⟩ hbegins⟩
        rw [hpart, List.append_assoc]
        rfl
  induction h generalizing cs' with
  | nil =>
    generalize hbytes : ([] : List UInt8) = bytes at h'
    cases h' with
    | nil => rfl
    | char c h' => exact absurd (List.append_eq_nil_iff.mp hbytes.symm).1 (encodeChar_ne_nil c)
    | illFormed hrun h' =>
      obtain ⟨rfl, rfl⟩ := List.append_eq_nil_iff.mp hbytes.symm
      rcases hrun.begins with hone | ⟨hne, -⟩
      · cases hone
      · exact absurd rfl hne
  | @char c rest cs h ih =>
    generalize hbytes : String.utf8EncodeChar c ++ rest = bytes at h'
    cases h' with
    | nil => exact absurd (List.append_eq_nil_iff.mp hbytes).1 (encodeChar_ne_nil c)
    | @char c' rest' cs' h' =>
      have hread := congrArg (decodeFrom none) hbytes
      rw [decodeFrom_encodeChar, decodeFrom_encodeChar] at hread
      obtain rfl := (List.cons.inj hread).1
      obtain rfl := List.append_cancel_left hbytes
      rw [ih h']
    | illFormed hrun h' => exact absurd hbytes.symm (hrun.noChar c _)
  | @illFormed part rest cs hrun h ih =>
    generalize hbytes : part ++ rest = bytes at h'
    cases h' with
    | nil =>
      obtain ⟨rfl, rfl⟩ := List.append_eq_nil_iff.mp hbytes
      rcases hrun.begins with hone | ⟨hne, -⟩
      · cases hone
      · exact absurd rfl hne
    | char c' h' => exact absurd hbytes (hrun.noChar c' _)
    | @illFormed part' rest' cs' hrun' h' =>
      have hsame : rest = rest' := by
        rcases List.append_eq_append_iff.mp hbytes with ⟨as, hpart, hrest⟩ | ⟨as, hpart, hrest⟩
        · rw [hrest, hlonger hrun hrun' hpart hrest, List.nil_append]
        · rw [hrest, hlonger hrun' hrun hpart hrest, List.nil_append]
      subst hsame
      rw [ih h']

/-! ## Characters of several bytes -/

theorem val_ofNat {v : Nat} (h : v.isValidChar) : (Char.ofNat v).val.toNat = v := by
  unfold Char.ofNat
  rw [dif_pos h]
  rfl

theorem byte_eq {b : UInt8} {n : Nat} (h : b.toNat = n) : UInt8.ofNat n = b := by
  rw [← h]
  exact UInt8.ofNat_toNat

theorem encodeChar_two {v : Nat} (h : 0x80 ≤ v) (h' : v < 0x800) {b₁ b₂ : UInt8}
    (h₁ : b₁.toNat = v / 64 + 0xC0) (h₂ : b₂.toNat = v % 64 + 0x80) :
    String.utf8EncodeChar (Char.ofNat v) = [b₁, b₂] := by
  unfold String.utf8EncodeChar
  rw [val_ofNat (.inl (by omega))]
  dsimp only
  rw [if_neg (by omega), if_pos (by omega), byte_eq (b := b₁) (by omega),
    byte_eq (b := b₂) (by omega)]

theorem encodeChar_three {v : Nat} (h : 0x800 ≤ v) (h' : v < 0x10000)
    (hvalid : v < 0xD800 ∨ 0xDFFF < v) {b₁ b₂ b₃ : UInt8} (h₁ : b₁.toNat = v / 4096 + 0xE0)
    (h₂ : b₂.toNat = v / 64 % 64 + 0x80) (h₃ : b₃.toNat = v % 64 + 0x80) :
    String.utf8EncodeChar (Char.ofNat v) = [b₁, b₂, b₃] := by
  have hchar : v.isValidChar := by
    rcases hvalid with hlow | hhigh
    · exact .inl hlow
    · exact .inr ⟨hhigh, by omega⟩
  unfold String.utf8EncodeChar
  rw [val_ofNat hchar]
  dsimp only
  rw [if_neg (by omega), if_neg (by omega), if_pos (by omega), byte_eq (b := b₁) (by omega),
    byte_eq (b := b₂) (by omega), byte_eq (b := b₃) (by omega)]

theorem encodeChar_four {v : Nat} (h : 0x10000 ≤ v) (h' : v < 0x110000) {b₁ b₂ b₃ b₄ : UInt8}
    (h₁ : b₁.toNat = v / 262144 + 0xF0) (h₂ : b₂.toNat = v / 4096 % 64 + 0x80)
    (h₃ : b₃.toNat = v / 64 % 64 + 0x80) (h₄ : b₄.toNat = v % 64 + 0x80) :
    String.utf8EncodeChar (Char.ofNat v) = [b₁, b₂, b₃, b₄] := by
  unfold String.utf8EncodeChar
  rw [val_ofNat (.inr ⟨by omega, h'⟩)]
  dsimp only
  rw [if_neg (by omega), if_neg (by omega), if_neg (by omega), byte_eq (b := b₁) (by omega),
    byte_eq (b := b₂) (by omega), byte_eq (b := b₃) (by omega), byte_eq (b := b₄) (by omega)]

/-! ## Pending characters -/

/-- Bytes after which the decoder has a pending character. -/
inductive Opens : List UInt8 → Pending → Prop
  | lead {b : UInt8} {p : Pending} (h : Lead.of b = .pending p) : Opens [b] p
  | more {part : List UInt8} {p : Pending} {b : UInt8} (h : Opens part p) (hb : p.accepts b = true)
      (hmissing : 1 < p.missing) : Opens (part ++ [b]) (p.extend b)

/-- The first bytes of characters of several bytes. -/
inductive LeadOf : UInt8 → Pending → Prop
  | two {b : UInt8} {n : Nat} (hn : 2 ≤ n) (hn' : n < 32) (hb : b.toNat = n + 0xC0) :
      LeadOf b ⟨n, 1, 0x80, 0xBF⟩
  | three {b : UInt8} {n : Nat} {low high : UInt8} (hn : n < 16) (hb : b.toNat = n + 0xE0)
      (hlow : 0x80 ≤ low.toNat ∧ (n = 0 → 0xA0 ≤ low.toNat)) (hle : low.toNat ≤ high.toNat)
      (hhigh : high.toNat ≤ 0xBF ∧ (n = 13 → high.toNat ≤ 0x9F)) : LeadOf b ⟨n, 2, low, high⟩
  | four {b : UInt8} {n : Nat} {low high : UInt8} (hn : n < 5) (hb : b.toNat = n + 0xF0)
      (hlow : 0x80 ≤ low.toNat ∧ (n = 0 → 0x90 ≤ low.toNat)) (hle : low.toNat ≤ high.toNat)
      (hhigh : high.toNat ≤ 0xBF ∧ (n = 4 → high.toNat ≤ 0x8F)) : LeadOf b ⟨n, 3, low, high⟩

theorem leadOf {b : UInt8} {p : Pending} (h : Lead.of b = .pending p) : LeadOf b p := by
  have hbyte := b.toNat_lt
  unfold Lead.of at h
  dsimp only at h
  repeat' split at h
  all_goals first
    | exact absurd h Lead.noConfusion
    | obtain rfl := Lead.pending.inj h
  · exact .two (by omega) (by omega) (by omega)
  · exact .three (by decide) (by omega) ⟨by decide, fun _ => by decide⟩ (by decide)
      ⟨by decide, nofun⟩
  · exact .three (by decide) (by omega) ⟨by decide, nofun⟩ (by decide)
      ⟨by decide, fun _ => by decide⟩
  · exact .three (by omega) (by omega) ⟨by decide, fun h => by omega⟩ (by decide)
      ⟨by decide, fun h => by omega⟩
  · exact .four (by decide) (by omega) ⟨by decide, fun _ => by decide⟩ (by decide)
      ⟨by decide, nofun⟩
  · exact .four (by omega) (by omega) ⟨by decide, fun h => by omega⟩ (by decide)
      ⟨by decide, fun h => by omega⟩
  · exact .four (by decide) (by omega) ⟨by decide, nofun⟩ (by decide)
      ⟨by decide, fun _ => by decide⟩

/-- A byte that goes on with a character, after its second byte at the latest. -/
theorem accepts_more {bits missing : Nat} {b : UInt8} :
    (Pending.mk bits missing 0x80 0xBF).accepts b = true ↔ 128 ≤ b.toNat ∧ b.toNat ≤ 191 :=
  accepts_iff bits missing 0x80 0xBF b

/-- Some byte can follow, and no character is longer than four bytes. -/
theorem Opens.range {part : List UInt8} {p : Pending} (h : Opens part p) :
    p.accepts p.low = true ∧ 1 ≤ p.missing ∧ part.length + p.missing ≤ 4 := by
  induction h with
  | lead h =>
    cases leadOf h with
    | two => exact ⟨rfl, Nat.le_refl 1, show 2 ≤ 4 by decide⟩
    | three _ _ _ hle _ =>
      exact ⟨(accepts_iff _ _ _ _ _).mpr ⟨Nat.le_refl _, hle⟩, show 1 ≤ 2 by decide,
        show 3 ≤ 4 by decide⟩
    | four _ _ _ hle _ =>
      exact ⟨(accepts_iff _ _ _ _ _).mpr ⟨Nat.le_refl _, hle⟩, show 1 ≤ 3 by decide, Nat.le_refl 4⟩
  | @more part p b h hb hmissing ih =>
    refine ⟨rfl, Nat.le_sub_one_of_lt hmissing, ?_⟩
    rw [List.length_append]
    show part.length + 1 + (p.missing - 1) ≤ 4
    omega

/-- The last byte makes the bytes those of a character. -/
theorem Opens.complete {part : List UInt8} {p : Pending} {b : UInt8} (h : Opens part p)
    (hb : p.accepts b = true) (hlast : p.missing ≤ 1) :
    String.utf8EncodeChar (Char.ofNat (p.extend b).bits) = part ++ [b] := by
  cases h with
  | lead h =>
    cases leadOf h with
    | @two n hn hn' hb₁ =>
      rw [accepts_more] at hb
      exact encodeChar_two (v := n * 64 + (b.toNat - 0x80)) (by omega) (by omega) (by omega)
        (by omega)
    | three => exact absurd hlast (show ¬ 2 ≤ 1 by decide)
    | four => exact absurd hlast (show ¬ 3 ≤ 1 by decide)
  | @more part p b₂ h hb₂ hmissing =>
    cases h with
    | lead h =>
      cases leadOf h with
      | two => exact absurd hmissing (Nat.lt_irrefl 1)
      | @three n low high hn hb₁ hlow hle hhigh =>
        rw [accepts_iff] at hb₂
        have hb := accepts_more.mp hb
        exact encodeChar_three (v := (n * 64 + (b₂.toNat - 0x80)) * 64 + (b.toNat - 0x80)) (by omega)
          (by omega) (by omega) (by omega) (by omega) (by omega)
      | four => exact absurd hlast (show ¬ 2 ≤ 1 by decide)
    | @more part p b₁ h hb₁ hmissing' =>
      cases h with
      | lead h =>
        cases leadOf h with
        | two => exact absurd hmissing' (Nat.lt_irrefl 1)
        | three => exact absurd hmissing (Nat.lt_irrefl 1)
        | @four n low high hn hb₀ hlow hle hhigh =>
          rw [accepts_iff] at hb₁
          have hb₂ := accepts_more.mp hb₂
          have hb := accepts_more.mp hb
          exact encodeChar_four
            (v := ((n * 64 + (b₁.toNat - 0x80)) * 64 + (b₂.toNat - 0x80)) * 64 + (b.toNat - 0x80))
            (by omega) (by omega) (by omega) (by omega) (by omega) (by omega)
      | @more part p b₀ h hb₀ hmissing'' =>
        -- three bytes more than a first one are the last
        have hrange := h.range.2.2
        have hmissing : 1 < p.missing - 1 - 1 := hmissing
        have hpos : 1 ≤ part.length := by
          cases h with
          | lead _ => exact Nat.le_refl 1
          | more _ _ _ => rw [List.length_append]; exact Nat.le_add_left 1 _
        omega

/-- After some bytes the decoder goes on with the pending character. -/
theorem Opens.decodeFrom_append {part : List UInt8} {p : Pending} (h : Opens part p)
    (rest : List UInt8) : decodeFrom none (part ++ rest) = decodeFrom (some p) rest := by
  induction h generalizing rest with
  | lead h => exact decodeFrom_lead rest h
  | @more part p b h hb hmissing ih =>
    rw [List.append_assoc, ih]
    show decodeFrom (some p) (b :: rest) = _
    rw [decodeFrom, if_pos hb, if_neg (Nat.not_le.mpr hmissing)]

/-- A byte that is refused is read again. -/
theorem decodeFrom_refused {p : Pending} {b : UInt8} (rest : List UInt8) (hb : p.accepts b = false) :
    decodeFrom (some p) (b :: rest) = replacement :: decodeFrom none (b :: rest) := by
  simp only [decodeFrom, hb, Bool.false_eq_true, if_false]
  cases Lead.of b <;> rfl

/-- A pending character comes to something. -/
theorem decodeFrom_pending_ne_nil (p : Pending) (bytes : List UInt8) :
    decodeFrom (some p) bytes ≠ [] := by
  induction bytes generalizing p with
  | nil => exact List.cons_ne_nil _ _
  | cons b rest ih =>
    cases hb : p.accepts b with
    | false =>
      rw [decodeFrom_refused rest hb]
      exact List.cons_ne_nil _ _
    | true =>
      rw [decodeFrom, if_pos hb]
      split
      · exact List.cons_ne_nil _ _
      · exact ih _

/-- So do bytes. -/
theorem decodeFrom_ne_nil (b : UInt8) (rest : List UInt8) : decodeFrom none (b :: rest) ≠ [] := by
  rw [decodeFrom]
  cases Lead.of b with
  | char c => exact List.cons_ne_nil _ _
  | pending p => exact decodeFrom_pending_ne_nil p rest
  | illFormed => exact List.cons_ne_nil _ _

theorem eq_nil_of_decodeFrom {bytes : List UInt8} (h : decodeFrom none bytes = []) : bytes = [] := by
  cases bytes with
  | nil => rfl
  | cons b rest => exact absurd h (decodeFrom_ne_nil b rest)

theorem decodeFrom_encodeChar_self (c : Char) : decodeFrom none (String.utf8EncodeChar c) = [c] := by
  have h := decodeFrom_encodeChar c []
  rwa [List.append_nil] at h

/-- Bytes with a character pending hold no character. -/
theorem Opens.noChar {part : List UInt8} {p : Pending} (h : Opens part p) (c : Char)
    (tail : List UInt8) : part ≠ String.utf8EncodeChar c ++ tail := by
  intro hpart
  obtain ⟨hlow, -, -⟩ := h.range
  -- with one byte more they would be read as one character, and as that one and another
  have hone : ∃ d, decodeFrom (some p) [p.low] = [d] := by
    rw [decodeFrom, if_pos hlow]
    split
    · exact ⟨_, rfl⟩
    · exact ⟨_, rfl⟩
  obtain ⟨d, hone⟩ := hone
  rw [← h.decodeFrom_append, hpart, List.append_assoc, decodeFrom_encodeChar] at hone
  have hnil := eq_nil_of_decodeFrom (List.cons.inj hone).2
  rw [List.append_eq_nil_iff] at hnil
  exact List.cons_ne_nil _ _ hnil.2

/-- A byte is refused only where no character goes on with it. -/
theorem Opens.refuses {part : List UInt8} {p : Pending} {b : UInt8} (h : Opens part p)
    (hb : p.accepts b = false) : ¬ BeginsChar (part ++ [b]) := by
  rintro ⟨c, tail, hc⟩
  have hread := decodeFrom_encodeChar_self c
  rw [← hc, List.append_assoc, h.decodeFrom_append] at hread
  have hrefused : decodeFrom (some p) (b :: tail) = [c] := hread
  rw [decodeFrom_refused tail hb] at hrefused
  exact absurd (List.cons.inj hrefused).2 (decodeFrom_ne_nil b tail)

/-- Bytes with a character pending are the beginning of one. -/
theorem Opens.begins {part : List UInt8} {p : Pending} (h : Opens part p) : BeginsChar part := by
  obtain ⟨left, hleft⟩ : ∃ left, p.missing = left := ⟨_, rfl⟩
  induction left generalizing part p with
  | zero =>
    have hmissing := h.range.2.1
    omega
  | succ left ih =>
    have hlow := h.range.1
    by_cases hlast : p.missing ≤ 1
    · exact ⟨_, [p.low], (h.complete hlow hlast).symm⟩
    · obtain ⟨c, hc⟩ := ih (h.more hlow (by omega)) (show p.missing - 1 = left by omega)
      exact ⟨c, (List.prefix_append part [p.low]).trans hc⟩

/-- No character begins with a byte that begins none. -/
theorem illFormed_begins_none {b : UInt8} (h : Lead.of b = .illFormed) (c : Char)
    (tail : List UInt8) : String.utf8EncodeChar c ≠ b :: tail := by
  intro hc
  have hread := decodeFrom_encodeChar_self c
  rw [hc, decodeFrom, h] at hread
  obtain ⟨rfl, hrest⟩ := List.cons.inj hread
  obtain rfl := eq_nil_of_decodeFrom hrest
  exact absurd (show (3 : Nat) = 1 from congrArg List.length hc) (by decide)

/-! ## Decoding -/

/-- Where the decoder refuses the next byte, or finds none, it has read a longest run. -/
theorem Opens.run {part rest : List UInt8} {p : Pending} (h : Opens part p)
    (hrest : ∀ b tail, rest = b :: tail → p.accepts b = false) : IllFormedRun part rest where
  noChar c tail hsplit := by
    rcases List.append_eq_append_iff.mp hsplit with ⟨as, hc, hrest'⟩ | ⟨as, hpart, -⟩
    · cases as with
      | nil => exact h.noChar c [] (by rw [hc, List.append_nil, List.append_nil])
      | cons b as =>
        refine h.refuses (hrest b _ hrest') ⟨c, as, ?_⟩
        rw [hc, List.append_assoc]
        rfl
    · exact h.noChar c as hpart
  begins := .inr ⟨fun hnil => by cases h <;> simp at hnil, h.begins⟩
  longest b tail hcons := h.refuses (hrest b tail hcons)

/-- A byte that begins no character is a run. -/
theorem illFormed_run {b : UInt8} (h : Lead.of b = .illFormed) (rest : List UInt8) :
    IllFormedRun [b] rest where
  noChar c tail hsplit := by
    cases hc : String.utf8EncodeChar c with
    | nil => exact encodeChar_ne_nil c hc
    | cons b' as =>
      rw [hc] at hsplit
      obtain rfl := (List.cons.inj hsplit).1
      exact illFormed_begins_none h c as hc
  begins := .inl rfl
  longest b' tail _ := by
    rintro ⟨c, as, hc⟩
    exact illFormed_begins_none h c (b' :: as) hc.symm

theorem encodeChar_of_lead {b : UInt8} {c : Char} (h : Lead.of b = .char c) :
    String.utf8EncodeChar c = [b] := by
  unfold Lead.of at h
  dsimp only at h
  split at h
  next hb =>
    obtain rfl := Lead.char.inj h
    unfold String.utf8EncodeChar
    rw [val_ofNat (.inl (by omega))]
    dsimp only
    rw [if_pos (by omega), byte_eq rfl]
  next =>
    exfalso
    repeat' split at h
    all_goals exact Lead.noConfusion h

/-- Decoding goes by characters and longest runs, afresh and with a character pending. -/
theorem decodeFrom_decodes (bytes : List UInt8) :
    Decodes bytes (decodeFrom none bytes) ∧
      ∀ part p, Opens part p → Decodes (part ++ bytes) (decodeFrom (some p) bytes) := by
  induction bytes with
  | nil => exact ⟨.nil, fun part p h => .illFormed (h.run nofun) .nil⟩
  | cons b rest ih =>
    obtain ⟨hafresh, hpending⟩ := ih
    have hnone : Decodes (b :: rest) (decodeFrom none (b :: rest)) := by
      rw [decodeFrom]
      cases hlead : Lead.of b with
      | char c =>
        have hchar := Decodes.char c hafresh
        rwa [encodeChar_of_lead hlead] at hchar
      | pending p => exact hpending [b] p (.lead hlead)
      | illFormed => exact .illFormed (illFormed_run hlead rest) hafresh
    refine ⟨hnone, fun part p h => ?_⟩
    cases hb : p.accepts b with
    | false =>
      rw [decodeFrom_refused rest hb]
      exact .illFormed (h.run fun b' tail hcons => (List.cons.inj hcons).1 ▸ hb) hnone
    | true =>
      rw [decodeFrom, if_pos hb, List.append_cons]
      by_cases hlast : p.missing ≤ 1
      · rw [if_pos hlast, ← h.complete hb hlast]
        exact .char _ hafresh
      · rw [if_neg hlast]
        exact hpending _ _ (h.more hb (Nat.not_le.mp hlast))

/-- Decoding reads characters where they stand, and longest runs else as one replacement character
each. -/
theorem decodes_iff {bytes : List UInt8} {cs : List Char} :
    Decodes bytes cs ↔ (decode bytes).toList = cs := by
  have hdecode : (decode bytes).toList = decodeFrom none bytes := String.toList_ofList
  rw [hdecode]
  exact ⟨fun h => (decodeFrom_decodes bytes).1.unique h, fun h => h ▸ (decodeFrom_decodes bytes).1⟩

/-! ## Texts without NUL -/

theorem Decodes.noNul {bytes : List UInt8} {cs : List Char} (h : Decodes bytes cs)
    (hbytes : ∀ b ∈ bytes, b ≠ 0) : ∀ c ∈ cs, c ≠ '\x00' := by
  induction h with
  | nil => exact nofun
  | @char c rest cs h ih =>
    intro d hd
    rcases List.mem_cons.mp hd with rfl | hd
    · rintro rfl
      exact hbytes 0 (List.mem_append_left _ (List.mem_singleton.mpr rfl)) rfl
    · exact ih (fun b hb => hbytes b (List.mem_append_right _ hb)) d hd
  | illFormed hrun h ih =>
    intro d hd
    rcases List.mem_cons.mp hd with rfl | hd
    · exact by decide
    · exact ih (fun b hb => hbytes b (List.mem_append_right _ hb)) d hd

/-- A text that has been read up to a zero byte holds no NUL. -/
theorem textOf_noNul (bytes : List UInt8) : ∀ c ∈ (textOf bytes).toList, c ≠ '\x00' := by
  refine (decodes_iff.mpr rfl : Decodes (beforeNul bytes) _).noNul fun b hb => ?_
  have hkept := List.all_takeWhile (p := (· != (0 : UInt8))) (l := bytes)
  simpa using List.all_eq_true.mp hkept b hb

/-- A text without NUL is whole up to its first NUL. -/
theorem cutAtNul_eq_self {s : String} (h : ∀ c ∈ s.toList, c ≠ '\x00') : cutAtNul s = s := by
  have hwhole : s.toList.takeWhile (· != '\x00') = s.toList :=
    List.takeWhile_eq_self_iff.mpr fun c hc => bne_iff_ne.mpr (h c hc)
  unfold cutAtNul
  rw [hwhole, String.ofList_toList]

/-- A text that has been read is read again from its own bytes. -/
theorem textOf_whole (bytes : List UInt8) : textOf (encode (textOf bytes)) = textOf bytes := by
  rw [textOf_encode, cutAtNul_eq_self (textOf_noNul bytes)]

end HostSql.Utf8
