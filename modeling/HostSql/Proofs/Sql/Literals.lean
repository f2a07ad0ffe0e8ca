import HostSql.Session.Sql
import HostSql.Sql.Grammar.Command
import HostSql.Proofs.Number.RoundTrip

/-!
# The tokens of literals

Literals are cut into the tokens that they are made of, whatever follows them: a comma, a closing
parenthesis, a blank, or the end of the text. A `Phrase` is a text of which that can be said, and
phrases are put together to calls and to lists.

> `literal_phrase`: the tokens of a literal.
> `call_cuts`: the tokens of a call of a function on literals.
-/

namespace HostSql.Sql

/-! ## Cutting piece by piece -/

/-- What a token is apart from where it stands. -/
abbrev Shape := TokenKind × List Char

def Token.shape (t : Token) : Shape := (t.kind, t.text)

/-- A text has tokens of these shapes, blanks left out. -/
def CutsInto (cs : List Char) (shapes : List Shape) : Prop :=
  ∀ start, ((tokenizeFrom start cs).filter (·.kind != .blank)).map Token.shape = shapes

theorem cutsInto_nil : CutsInto [] [] := fun start => by
  rw [tokenizeFrom]
  rfl

section Steps

variable {c : Char} {tail rest : List Char} {kind : TokenKind} {shapes : List Shape}
  (h : tokenAt c (tail ++ rest) = (kind, tail.length)) (hrest : CutsInto rest shapes)

include h hrest

theorem CutsInto.token (hkind : kind ≠ .blank) :
    CutsInto (c :: tail ++ rest) ((kind, c :: tail) :: shapes) := by
  intro start
  rw [List.cons_append, tokenizeFrom, h]
  dsimp only
  rw [List.take_left' rfl, List.drop_left' rfl, List.filter_cons_of_pos (by simpa using hkind),
    List.map_cons, hrest]
  rfl

theorem CutsInto.blank (hkind : kind = .blank) : CutsInto (c :: tail ++ rest) shapes := by
  intro start
  rw [List.cons_append, tokenizeFrom, h, hkind]
  dsimp only
  rw [List.take_left' rfl, List.drop_left' rfl, List.filter_cons_of_neg (by simp), hrest]

end Steps

/-- What may follow a literal. -/
def Stops (rest : List Char) : Prop := ∀ c ∈ rest.head?, c = ',' ∨ c = ')' ∨ c = ' '

/-- A text with tokens of certain shapes, whatever follows it. -/
structure Phrase (cs : List Char) (shapes : List Shape) : Prop where
  cuts : ∀ rest more, Stops rest → CutsInto rest more → CutsInto (cs ++ rest) (shapes ++ more)
  starts : ∃ c tail, cs = c :: tail ∧ isSpace c = false
  /-- It holds no NUL. -/
  plain : '\x00' ∉ cs

/-! ## Marks and blanks -/

/-- Marks that begin no other token. -/
theorem tokenAt_mark {c : Char} (h : c = ',' ∨ c = '(' ∨ c = ')') (rest : List Char) :
    tokenAt c rest = (.mark, 0) := by
  rcases h with rfl | rfl | rfl
  all_goals
    unfold tokenAt
    cases rest with
    | nil => rfl
    | cons d rest => simp [isBlankStart, doubleMarks, singleMarks, Char.isDigit]

theorem tokenAt_blank {rest : List Char} (h : ∀ c ∈ rest.head?, isSpace c = false) :
    tokenAt ' ' rest = (.blank, 0) := by
  have hnone : rest.takeWhile isSpace = [] := by
    cases rest with
    | nil => rfl
    | cons c rest => exact List.takeWhile_cons_of_neg (by simp [h c rfl])
  unfold tokenAt
  rw [if_pos (by decide), hnone]
  rfl

theorem CutsInto.mark {c : Char} (hc : c = ',' ∨ c = '(' ∨ c = ')') {rest : List Char}
    {shapes : List Shape} (h : CutsInto rest shapes) : CutsInto (c :: rest) ((.mark, [c]) :: shapes) :=
  @CutsInto.token c [] rest .mark shapes (tokenAt_mark hc rest) h nofun

theorem CutsInto.space {rest : List Char} {shapes : List Shape} (h : CutsInto rest shapes)
    (hrest : ∀ c ∈ rest.head?, isSpace c = false) : CutsInto (' ' :: rest) shapes :=
  @CutsInto.blank ' ' [] rest .blank shapes (tokenAt_blank hrest) h rfl

/-! ## Numerals -/

open Numeral (IsDigits Undigited)

section Numerals

variable {ds es fs rest : List Char}

theorem Stops.undigited (h : Stops rest) : Undigited rest := by
  intro c hc
  rcases h c hc with rfl | rfl | rfl <;> rfl

theorem takeWhile_digits (hds : IsDigits ds) (hrest : Undigited rest) :
    (ds ++ rest).takeWhile Char.isDigit = ds :=
  congrArg Prod.fst (Numeral.takeDigits_append hds hrest)

/-- Nothing of a word follows. -/
theorem Stops.noJunk (h : Stops rest) : rest.takeWhile isIdChar = [] := by
  cases rest with
  | nil => rfl
  | cons c rest =>
    refine List.takeWhile_cons_of_neg ?_
    rcases h c rfl with rfl | rfl | rfl <;> decide

theorem Stops.noExponent (h : Stops rest) : exponentLength rest = 0 := by
  unfold exponentLength
  split
  next e sign rest =>
    rw [if_neg]
    rcases h e rfl with rfl | rfl | rfl <;> decide
  next => rfl

theorem Stops.noPoint (h : Stops rest) : rest.head? ≠ some '.' := by
  intro hpoint
  rcases h '.' hpoint with hc | hc | hc <;> cases hc

/-- A numeral is not hexadecimal unless a mark says so. -/
theorem not_hexadecimal {cs : List Char} (h : ∀ c ∈ cs[1]?, c ≠ 'x' ∧ c ≠ 'X') :
    ¬ ((cs.take 2 = ['0', 'x'] ∨ cs.take 2 = ['0', 'X']) ∧
      (!((cs.drop 2).takeWhile isHexDigit).isEmpty) = true) := by
  rintro ⟨hmark, -⟩
  have hsecond : cs[1]? = (cs.take 2)[1]? := by
    rw [List.getElem?_take_of_lt (by decide)]
  rcases hmark with hmark | hmark
  · rw [hmark] at hsecond
    exact (h 'x' hsecond).1 rfl
  · rw [hmark] at hsecond
    exact (h 'X' hsecond).2 rfl

theorem digit_not_hexMark {c : Char} (h : c.isDigit = true) : c ≠ 'x' ∧ c ≠ 'X' := by
  constructor <;> rintro rfl <;> revert h <;> decide

theorem numeralAt_integer (hds : IsDigits ds) (hne : ds ≠ []) (hrest : Stops rest) :
    numeralAt (ds ++ rest) = (.integer, ds.length) := by
  have hsecond : ∀ c ∈ (ds ++ rest)[1]?, c ≠ 'x' ∧ c ≠ 'X' := by
    intro c hc
    match ds, hne with
    | [d], _ =>
      cases rest with
      | nil => cases hc
      | cons r rest =>
        cases hc
        rcases hrest _ rfl with rfl | rfl | rfl <;> decide
    | d :: d' :: ds, _ =>
      cases hc
      exact digit_not_hexMark (hds _ (by simp))
  unfold numeralAt
  dsimp only
  rw [if_neg (not_hexadecimal hsecond), takeWhile_digits hds hrest.undigited, List.drop_left' rfl,
    if_neg hrest.noPoint, List.drop_zero, hrest.noExponent, Nat.add_zero,
    List.drop_left' rfl, hrest.noJunk]
  rfl

/-- The letter, the sign and the digits of an exponent. -/
theorem exponentLength_eq {sign : List Char} (hsign : sign = [] ∨ sign = ['-']) (hes : IsDigits es)
    (hne : es ≠ []) (hrest : Undigited rest) :
    exponentLength ('e' :: (sign ++ (es ++ rest))) = ('e' :: (sign ++ es)).length := by
  obtain ⟨d, es, rfl⟩ := List.exists_cons_of_ne_nil hne
  have hd : d.isDigit = true := hes d (by simp)
  have hall := takeWhile_digits hes hrest
  rcases hsign with rfl | rfl
  · simp only [List.nil_append, List.cons_append] at hall ⊢
    unfold exponentLength
    dsimp only
    rw [if_pos (.inl rfl), if_pos hd, hall]
    simp only [List.length_cons]
    omega
  · simp only [List.nil_append, List.cons_append] at hall ⊢
    unfold exponentLength
    dsimp only
    rw [if_pos (.inl rfl), if_neg (by decide), if_pos ⟨.inr rfl, by simpa using hd⟩, hall]
    simp only [List.length_cons]
    omega

/-- A numeral with an exponent, with or without a point. -/
theorem numeralAt_float {point sign : List Char} (hds : IsDigits ds) (hne : ds ≠ [])
    (hpoint : point = [] ∨ ∃ fs, point = '.' :: fs ∧ IsDigits fs)
    (hsign : sign = [] ∨ sign = ['-']) (hes : IsDigits es) (hne' : es ≠ []) (hrest : Stops rest) :
    numeralAt (ds ++ (point ++ ('e' :: (sign ++ (es ++ rest))))) =
      (.float, (ds ++ (point ++ 'e' :: (sign ++ es))).length) := by
  obtain ⟨tail, htail⟩ : ∃ tail, tail = 'e' :: (sign ++ (es ++ rest)) := ⟨_, rfl⟩
  have hexponent : exponentLength tail = ('e' :: (sign ++ es)).length :=
    htail ▸ exponentLength_eq hsign hes hne' hrest.undigited
  have hundigited : Undigited tail := by
    rw [htail]
    rintro _ ⟨⟩
    rfl
  have hafter : tail.drop ('e' :: (sign ++ es)).length = rest := by
    rw [htail, ← List.append_assoc]
    exact List.drop_left' rfl
  have hsecond : ∀ c ∈ (ds ++ (point ++ tail))[1]?, c ≠ 'x' ∧ c ≠ 'X' := by
    intro c hc
    match ds, hne with
    | [d], _ =>
      rcases hpoint with rfl | ⟨fs, rfl, -⟩
      · rw [htail] at hc
        cases hc
        decide
      · cases hc
        decide
    | d :: d' :: ds, _ =>
      cases hc
      exact digit_not_hexMark (hds _ (by simp))
  have hwhole : Undigited (point ++ tail) := by
    rcases hpoint with rfl | ⟨fs, rfl, -⟩
    · exact hundigited
    · rintro _ ⟨⟩
      rfl
  rw [← htail]
  unfold numeralAt
  dsimp only
  rw [if_neg (not_hexadecimal hsecond), takeWhile_digits hds hwhole, List.drop_left' rfl]
  -- what stands after the point, and what it is the length of
  obtain ⟨n, hn, hlength⟩ : ∃ n, (if (point ++ tail).head? = some '.' then
      1 + (((point ++ tail).drop 1).takeWhile Char.isDigit).length else 0) = n ∧ point.length = n := by
    rcases hpoint with rfl | ⟨fs, rfl, hfs⟩
    · refine ⟨0, if_neg fun hhead => ?_, rfl⟩
      rw [List.nil_append, htail] at hhead
      cases hhead
    · refine ⟨_, if_pos rfl, ?_⟩
      show _ = 1 + ((fs ++ tail).takeWhile Char.isDigit).length
      rw [takeWhile_digits hfs hundigited, List.length_cons, Nat.add_comm]
  rw [hn, ← hlength, List.drop_left' rfl, hexponent]
  have hrestAfter : (ds ++ (point ++ tail)).drop (ds.length + point.length +
      ('e' :: (sign ++ es)).length) = rest := by
    rw [← List.drop_drop, ← List.drop_drop, List.drop_left' rfl, List.drop_left' rfl, hafter]
  rw [hrestAfter, hrest.noJunk]
  simp only [List.length_nil, Nat.lt_irrefl, if_false, List.length_append, List.length_cons]
  rw [if_neg (by omega)]
  exact Prod.ext rfl (by omega)

end Numerals

/-! ## Quoted pieces -/

/-- A text with its quotes doubled. -/
def doubled (quote : Char) (cs : List Char) : List Char :=
  cs.flatMap fun c => if c == quote then [c, c] else [c]

section Quotes

variable {quote : Char} {rest : List Char}

theorem doubledQuoteLength?_doubled (hrest : rest.head? ≠ some quote) (cs : List Char) :
    doubledQuoteLength? quote (doubled quote cs ++ quote :: rest) =
      some ((doubled quote cs).length + 1) := by
  induction cs with
  | nil =>
    show doubledQuoteLength? quote (quote :: rest) = some 1
    unfold doubledQuoteLength?
    rw [if_pos rfl]
    cases rest with
    | nil => rfl
    | cons d rest =>
      dsimp only
      rw [if_neg fun hd => hrest (by rw [hd]; rfl)]
  | cons c cs ih =>
    by_cases hc : c = quote
    · subst hc
      have hdoubled : doubled c (c :: cs) = c :: c :: doubled c cs := by
        unfold doubled
        rw [List.flatMap_cons, beq_self_eq_true, if_pos rfl]
        rfl
      rw [hdoubled, List.cons_append, List.cons_append, doubledQuoteLength?, if_pos rfl, if_pos rfl,
        ih]
      rfl
    · have hdoubled : doubled quote (c :: cs) = c :: doubled quote cs := by
        unfold doubled
        rw [List.flatMap_cons, if_neg (by simpa using hc)]
        rfl
      rw [hdoubled, List.cons_append, doubledQuoteLength?.eq_def]
      dsimp only
      rw [if_neg hc, ih]
      rfl

theorem undouble_doubled (cs : List Char) : undouble quote (doubled quote cs) = cs := by
  induction cs with
  | nil =>
    show undouble quote [] = []
    rw [undouble]
  | cons c cs ih =>
    by_cases hc : c = quote
    · subst hc
      have hdoubled : doubled c (c :: cs) = c :: c :: doubled c cs := by
        unfold doubled
        rw [List.flatMap_cons, beq_self_eq_true, if_pos rfl]
        rfl
      rw [hdoubled, undouble, if_pos rfl, if_pos rfl, ih]
    · have hdoubled : doubled quote (c :: cs) = c :: doubled quote cs := by
        unfold doubled
        rw [List.flatMap_cons, if_neg (by simpa using hc)]
        rfl
      rw [hdoubled, undouble.eq_def]
      dsimp only
      rw [if_neg hc, ih]

theorem mem_doubled {c : Char} {cs : List Char} (h : c ∈ doubled quote cs) : c = quote ∨ c ∈ cs := by
  obtain ⟨d, hd, hc⟩ := List.mem_flatMap.mp h
  split at hc
  next hquote =>
    simp only [List.mem_cons, List.not_mem_nil, or_false, or_self] at hc
    exact .inl (hc.trans (beq_iff_eq.mp hquote))
  next =>
    rw [List.mem_singleton.mp hc]
    exact .inr hd

theorem enclose_toList (s : String) :
    (Text.enclose quote s).toList = quote :: (doubled quote s.toList ++ [quote]) := by
  unfold Text.enclose
  rw [String.toList_ofList]
  rfl

theorem quotedAt_doubled (kind : TokenKind) (hrest : rest.head? ≠ some quote) (cs : List Char) :
    quotedAt kind quote (doubled quote cs ++ [quote] ++ rest) =
      (kind, (doubled quote cs ++ [quote]).length) := by
  have hlength : (doubled quote cs ++ [quote]).length = (doubled quote cs).length + 1 :=
    List.length_append
  unfold quotedAt
  rw [hlength, List.append_assoc, List.singleton_append, doubledQuoteLength?_doubled hrest]

end Quotes

/-! ## Bytes -/

/-- The digits of bytes. -/
def hexDigits (bytes : List UInt8) : List Char := bytes.flatMap CallText.hexByte

theorem hexDigit_of_lt : ∀ n < 16, isHexDigit (Nat.digitChar n) = true ∧
    hexDigitValue (Nat.digitChar n) = n ∧ Nat.digitChar n ≠ '\x00' := by decide

theorem hexDigits_isHex (bytes : List UInt8) : ∀ c ∈ hexDigits bytes, isHexDigit c = true := by
  intro c hc
  obtain ⟨b, -, hb⟩ := List.mem_flatMap.mp hc
  have hlt := b.toNat_lt
  unfold CallText.hexByte at hb
  simp only [List.mem_cons, List.not_mem_nil, or_false] at hb
  rcases hb with rfl | rfl
  · exact (hexDigit_of_lt _ (by omega)).1
  · exact (hexDigit_of_lt _ (by omega)).1

theorem length_hexDigits (bytes : List UInt8) : (hexDigits bytes).length = 2 * bytes.length := by
  induction bytes with
  | nil => rfl
  | cons b bytes ih =>
    show (CallText.hexByte b ++ hexDigits bytes).length = _
    rw [List.length_append, ih, List.length_cons]
    show 2 + _ = _
    omega

theorem hexBytes_hexDigits (bytes : List UInt8) : hexBytes (hexDigits bytes) = bytes := by
  induction bytes with
  | nil => rfl
  | cons b bytes ih =>
    have hlt := b.toNat_lt
    show hexBytes (Nat.digitChar (b.toNat / 16) :: Nat.digitChar (b.toNat % 16) :: hexDigits bytes) =
      b :: bytes
    rw [hexBytes, ih, (hexDigit_of_lt _ (by omega)).2.1, (hexDigit_of_lt _ (by omega)).2.1,
      Nat.div_add_mod, UInt8.ofNat_toNat]

theorem tokenAt_blob (bytes : List UInt8) (rest : List Char) :
    tokenAt 'X' ('\'' :: (hexDigits bytes ++ ['\'']) ++ rest) =
      (.blob, ('\'' :: (hexDigits bytes ++ ['\''])).length) := by
  have hdigits : (hexDigits bytes ++ '\'' :: rest).takeWhile isHexDigit = hexDigits bytes := by
    rw [List.takeWhile_append_of_pos (hexDigits_isHex bytes), List.takeWhile_cons_of_neg (by decide),
      List.append_nil]
  have hblob : blobAt (hexDigits bytes ++ '\'' :: rest) = (.blob, (hexDigits bytes).length + 1) := by
    unfold blobAt
    rw [hdigits]
    dsimp only
    rw [List.drop_left' rfl, if_pos ⟨rfl, by rw [length_hexDigits]; exact Nat.mul_mod_right 2 _⟩]
  have hstart : tokenAt 'X' ('\'' :: (hexDigits bytes ++ ['\'']) ++ rest) =
      ((blobAt (hexDigits bytes ++ '\'' :: rest)).1, (blobAt (hexDigits bytes ++ '\'' :: rest)).2 + 1) := by
    rw [List.cons_append, List.append_assoc]
    rfl
  rw [hstart, hblob, List.length_cons, List.length_append]
  rfl

/-! ## Words -/

/-- The first letters of the words that stand in calls. -/
theorem tokenAt_word {c : Char} (hc : c ∈ ['A', 'C', 'N', 'S', 'T']) {tail rest : List Char}
    (htail : tail.all isIdChar = true) (hrest : ∀ d ∈ rest.head?, isIdChar d = false) :
    tokenAt c (tail ++ rest) = (.word, tail.length) := by
  have hword : (tail ++ rest).takeWhile isIdChar = tail := by
    rw [List.takeWhile_append_of_pos (List.all_eq_true.mp htail)]
    cases rest with
    | nil => exact List.append_nil tail
    | cons d rest => rw [List.takeWhile_cons_of_neg (by simp [hrest d rfl]), List.append_nil]
  have hstart : tokenAt c (tail ++ rest) = (.word, ((tail ++ rest).takeWhile isIdChar).length) := by
    generalize tail ++ rest = cs
    simp only [List.mem_cons, List.not_mem_nil, or_false] at hc
    have hletter : isIdChar c = true ∧ c.isDigit = false := by
      rcases hc with rfl | rfl | rfl | rfl | rfl <;> exact ⟨rfl, rfl⟩
    unfold tokenAt
    rcases hc with rfl | rfl | rfl | rfl | rfl
    all_goals cases cs with
      | nil => rfl
      | cons d cs =>
        simp [isBlankStart, doubleMarks, singleMarks, hletter]
  rw [hstart, hword]

/-! ## Phrases -/

namespace Phrase

variable {cs cs' : List Char} {shapes shapes' : List Shape}

theorem single {c : Char} {tail : List Char} {kind : TokenKind} (hkind : kind ≠ .blank)
    (hc : isSpace c = false)
    (h : ∀ rest, Stops rest → tokenAt c (tail ++ rest) = (kind, tail.length))
    (hplain : '\x00' ∉ c :: tail) : Phrase (c :: tail) [(kind, c :: tail)] where
  cuts rest _ hrest hmore := CutsInto.token (h rest hrest) hmore hkind
  starts := ⟨c, tail, rfl, hc⟩
  plain := hplain

/-- A minus sign before something that does not begin with one. -/
theorem minus {d : Char} (hd : d ≠ '-') (h : Phrase (d :: cs) shapes) :
    Phrase ('-' :: d :: cs) ((.mark, ['-']) :: shapes) where
  cuts rest more hrest hmore := by
    have hmark : tokenAt '-' ([] ++ (d :: cs ++ rest)) = (.mark, 0) := by
      simp [tokenAt, isBlankStart, doubleMarks, singleMarks, Char.isDigit, hd]
    exact CutsInto.token hmark (h.cuts rest more hrest hmore) nofun
  starts := ⟨_, _, rfl, rfl⟩
  plain hnul := by
    rcases List.mem_cons.mp hnul with hnul | hnul
    · cases hnul
    · exact h.plain hnul

/-- Two phrases with a comma between them. -/
theorem comma (h : Phrase cs shapes) (h' : Phrase cs' shapes') :
    Phrase (cs ++ [',', ' '] ++ cs') (shapes ++ (.mark, [',']) :: shapes') where
  cuts rest more hrest hmore := by
    have hhead : ∀ c ∈ (cs' ++ rest).head?, isSpace c = false := by
      obtain ⟨d, tail, rfl, hd⟩ := h'.starts
      rintro _ ⟨⟩
      exact hd
    have hafter := ((h'.cuts rest more hrest hmore).space hhead).mark (.inl rfl)
    have hall := h.cuts _ _ (by rintro c ⟨⟩; exact .inl rfl) hafter
    rw [List.append_assoc, List.append_assoc, List.append_assoc]
    exact hall
  starts := by
    obtain ⟨c, tail, rfl, hc⟩ := h.starts
    exact ⟨c, _, rfl, hc⟩
  plain hnul := by
    rcases List.mem_append.mp hnul with hnul | hnul
    · rcases List.mem_append.mp hnul with hnul | hnul
      · exact h.plain hnul
      · revert hnul
        decide
    · exact h'.plain hnul

end Phrase

/-! ## Literals -/

/-- A numeral with its sign. -/
def signed (negative : Bool) (shape : Shape) : List Shape :=
  if negative then [(.mark, ['-']), shape] else [shape]

/-- The numeral of a double without its sign. -/
def floatChars (x : Binary64) : List Char :=
  if x.isInfinite then "9e999".toList else x.shortest.scientific

/-- The literal of bytes. -/
def blobShape (bytes : List UInt8) : Shape := (.blob, 'X' :: '\'' :: (hexDigits bytes ++ ['\'']))

/-- The tokens of a literal. -/
def literalShapes : Value → List Shape
  | .null => [(.word, "NULL".toList)]
  | .integer n => signed (decide (n.toInt < 0)) (.integer, Nat.toDigits 10 n.toInt.natAbs)
  | .float x =>
    if x.isNaN then [(.word, "NULL".toList)] else signed x.negative (.float, floatChars x)
  | .text s =>
    if s.toList.contains '\x00' then
      [(.word, "CAST".toList), (.mark, ['(']), blobShape (Utf8.encode s), (.word, "AS".toList),
        (.word, "TEXT".toList), (.mark, [')'])]
    else [(.string, '\'' :: (doubled '\'' s.toList ++ ['\'']))]
  | .blob bytes => [blobShape bytes]

/-- What follows a literal is no part of a word. -/
theorem Stops.noWord {rest : List Char} (h : Stops rest) : ∀ c ∈ rest.head?, isIdChar c = false := by
  intro c hc
  rcases h c hc with rfl | rfl | rfl <;> decide

theorem null_phrase : Phrase "NULL".toList [(.word, "NULL".toList)] :=
  .single nofun rfl (fun _ hrest => tokenAt_word (by decide) (by decide) hrest.noWord) (by decide)

/-- A row of digits is a phrase, with a minus sign before it as well. -/
theorem signed_phrase {kind : TokenKind} {d : Char} {cs : List Char} (hd : d.isDigit = true)
    (hkind : kind ≠ .blank) (hplain : '\x00' ∉ d :: cs)
    (h : ∀ rest, Stops rest → numeralAt (d :: cs ++ rest) = (kind, (d :: cs).length))
    (negative : Bool) :
    Phrase ((if negative then ['-'] else []) ++ d :: cs) (signed negative (kind, d :: cs)) := by
  have hnumeral : Phrase (d :: cs) [(kind, d :: cs)] := by
    have hspace : isSpace d = false := by
      cases hc : isSpace d with
      | false => rfl
      | true =>
        simp only [isSpace, isBlankStart, Bool.or_eq_true, beq_iff_eq] at hc
        rcases hc with ((((rfl | rfl) | rfl) | rfl) | rfl) | rfl <;> cases hd
    refine .single hkind hspace (fun rest hrest => ?_) hplain
    have hstart : tokenAt d (cs ++ rest) =
        ((numeralAt (d :: (cs ++ rest))).1, (numeralAt (d :: (cs ++ rest))).2 - 1) := by
      have hblank : isBlankStart d = false := (Bool.or_eq_false_iff.mp hspace).1
      have hminus : d ≠ '-' := by rintro rfl; cases hd
      have hslash : d ≠ '/' := by rintro rfl; cases hd
      unfold tokenAt
      dsimp only
      rw [if_neg (by rw [hblank]; decide), if_neg fun h => hminus h.1, if_neg fun h => hslash h.1,
        if_pos (.inl hd)]
    have hlength := h rest hrest
    rw [List.cons_append] at hlength
    rw [hstart, hlength]
    rfl
  cases negative with
  | false => exact hnumeral
  | true =>
    refine Phrase.minus ?_ hnumeral
    rintro rfl
    cases hd

/-- Digits hold no NUL. -/
theorem digits_plain {ds : List Char} (hds : IsDigits ds) : '\x00' ∉ ds := by
  intro hnul
  have hdigit := hds _ hnul
  revert hdigit
  decide

theorem toDigits_cons (n : Nat) : ∃ d ds, Nat.toDigits 10 n = d :: ds :=
  List.exists_cons_of_ne_nil Nat.toDigits_ne_nil

/-- The literal of an integer. -/
theorem integer_phrase (n : Int) :
    Phrase (toString n).toList (signed (decide (n < 0)) (.integer, Nat.toDigits 10 n.natAbs)) := by
  have hchars : (toString n).toList =
      (if decide (n < 0) then ['-'] else []) ++ Nat.toDigits 10 n.natAbs := by
    cases n with
    | ofNat k => simp [Int.toString_eq_repr, Int.repr, Nat.toList_repr]
    | negSucc k => simp [Int.toString_eq_repr, Int.repr, Nat.toList_repr]
  obtain ⟨d, ds, hdigits⟩ := toDigits_cons n.natAbs
  have hds : IsDigits (d :: ds) := hdigits ▸ isDigits_toDigits n.natAbs
  rw [hchars, hdigits]
  exact signed_phrase (hds d (by simp)) (by decide) (digits_plain hds)
    (fun rest hrest => numeralAt_integer hds (by simp) hrest) _

/-- The parts of a numeral with an exponent. -/
theorem scientific_parts (d : Decimal) : ∃ ds point sign es, d.scientific =
      ds ++ (point ++ 'e' :: (sign ++ es)) ∧ IsDigits ds ∧ ds ≠ [] ∧
      (point = [] ∨ ∃ fs, point = '.' :: fs ∧ IsDigits fs) ∧ (sign = [] ∨ sign = ['-']) ∧
      IsDigits es ∧ es ≠ [] := by
  have hds := isDigits_toDigits d.digits
  have hpower (i : Int) : ∃ sign es, (toString i).toList = sign ++ es ∧ (sign = [] ∨ sign = ['-']) ∧
      IsDigits es ∧ es ≠ [] := by
    cases i with
    | ofNat k =>
      exact ⟨[], Nat.toDigits 10 k, by simp [Int.toString_eq_repr, Int.repr, Nat.toList_repr], .inl rfl,
        isDigits_toDigits k, Nat.toDigits_ne_nil⟩
    | negSucc k =>
      exact ⟨['-'], Nat.toDigits 10 (k + 1), by simp [Int.toString_eq_repr, Int.repr, Nat.toList_repr],
        .inr rfl, isDigits_toDigits (k + 1), Nat.toDigits_ne_nil⟩
  obtain ⟨sign, es, hes, hsign, hdigits, hne⟩ :=
    hpower (d.scale + (((Nat.toDigits 10 d.digits).length : Int) - 1))
  obtain ⟨c, cs, hcs⟩ := toDigits_cons d.digits
  refine ⟨[c], if (Nat.toDigits 10 d.digits).length ≤ 1 then [] else '.' :: cs, sign, es, ?_, ?_,
    List.cons_ne_nil _ _, ?_, hsign, hdigits, hne⟩
  · unfold Decimal.scientific
    dsimp only
    rw [hes, hcs, List.append_assoc]
    rfl
  · intro c' hc'
    rw [List.mem_singleton.mp hc']
    exact hds c (by rw [hcs]; simp)
  · split
    · exact .inl rfl
    · exact .inr ⟨cs, rfl, fun c' hc' => hds c' (by rw [hcs]; exact List.mem_cons_of_mem _ hc')⟩

/-- The literal of a double that is not NaN. -/
theorem float_phrase (x : Binary64) :
    Phrase (x.signChars ++ floatChars x) (signed x.negative (.float, floatChars x)) := by
  obtain ⟨ds, point, sign, es, hchars, hds, hne, hpoint, hsign, hes, hne'⟩ : ∃ ds point sign es,
      floatChars x = ds ++ (point ++ 'e' :: (sign ++ es)) ∧ IsDigits ds ∧ ds ≠ [] ∧
      (point = [] ∨ ∃ fs, point = '.' :: fs ∧ IsDigits fs) ∧ (sign = [] ∨ sign = ['-']) ∧
      IsDigits es ∧ es ≠ [] := by
    unfold floatChars
    split
    · have hnines (n : Nat) : IsDigits (List.replicate n '9') := fun c hc => by
        rw [List.eq_of_mem_replicate hc]
        rfl
      exact ⟨['9'], [], [], ['9', '9', '9'], rfl, hnines 1, nofun, .inl rfl, .inl rfl, hnines 3, nofun⟩
    · exact scientific_parts x.shortest
  have hplain : '\x00' ∉ floatChars x := by
    rw [hchars]
    intro hnul
    rcases List.mem_append.mp hnul with hnul | hnul
    · exact digits_plain hds hnul
    rcases List.mem_append.mp hnul with hnul | hnul
    · rcases hpoint with rfl | ⟨fs, rfl, hfs⟩
      · cases hnul
      · rcases List.mem_cons.mp hnul with hnul | hnul
        · cases hnul
        · exact digits_plain hfs hnul
    rcases List.mem_cons.mp hnul with hnul | hnul
    · cases hnul
    rcases List.mem_append.mp hnul with hnul | hnul
    · rcases hsign with rfl | rfl
      · cases hnul
      · revert hnul
        decide
    · exact digits_plain hes hnul
  have hnumeral (rest : List Char) (hrest : Stops rest) :
      numeralAt (floatChars x ++ rest) = (.float, (floatChars x).length) := by
    have hlength := numeralAt_float hds hne hpoint hsign hes hne' hrest
    rw [hchars]
    simp only [List.append_assoc, List.cons_append]
    exact hlength
  obtain ⟨d, ds, rfl⟩ := List.exists_cons_of_ne_nil hne
  rw [List.cons_append] at hchars
  rw [hchars] at hplain hnumeral ⊢
  exact signed_phrase (hds d (by simp)) (by decide) hplain hnumeral _

theorem hexDigits_plain (bytes : List UInt8) : '\x00' ∉ hexDigits bytes := by
  intro hnul
  have hhex := hexDigits_isHex bytes _ hnul
  revert hhex
  decide

theorem blob_plain (bytes : List UInt8) : '\x00' ∉ (blobShape bytes).2 := by
  intro hnul
  have hnul : '\x00' ∈ 'X' :: '\'' :: (hexDigits bytes ++ ['\'']) := hnul
  simp only [List.mem_cons, List.mem_append, List.not_mem_nil, or_false] at hnul
  rcases hnul with hnul | hnul | hnul | hnul
  · cases hnul
  · cases hnul
  · exact hexDigits_plain bytes hnul
  · cases hnul

/-- The literal of bytes is one token, whatever follows. -/
theorem blob_cuts (bytes : List UInt8) {rest : List Char} {more : List Shape}
    (h : CutsInto rest more) : CutsInto ((blobShape bytes).2 ++ rest) (blobShape bytes :: more) :=
  CutsInto.token (tokenAt_blob bytes rest) h nofun

theorem blob_phrase (bytes : List UInt8) : Phrase (blobShape bytes).2 [blobShape bytes] where
  cuts _ _ _ h := blob_cuts bytes h
  starts := ⟨_, _, rfl, rfl⟩
  plain := blob_plain bytes

/-- A text that holds a NUL is a cast of its bytes. -/
theorem cast_phrase (bytes : List UInt8) :
    Phrase ("CAST(".toList ++ (blobShape bytes).2 ++ " AS TEXT)".toList)
      [(.word, "CAST".toList), (.mark, ['(']), blobShape bytes, (.word, "AS".toList),
        (.word, "TEXT".toList), (.mark, [')'])] where
  cuts rest more hrest hmore := by
    have hword {c : Char} {tail rest : List Char} {shapes : List Shape}
        (hc : c ∈ ['A', 'C', 'N', 'S', 'T']) (htail : tail.all isIdChar = true)
        (hrest : ∀ d ∈ rest.head?, isIdChar d = false) (h : CutsInto rest shapes) :
        CutsInto (c :: tail ++ rest) ((.word, c :: tail) :: shapes) :=
      CutsInto.token (tokenAt_word hc htail hrest) h nofun
    have hafter := hword (by decide : 'T' ∈ _) (by decide : "EXT".toList.all isIdChar = true)
      (by rintro c ⟨⟩; decide) (hmore.mark (.inr (.inr rfl)))
    have hafter := hword (by decide : 'A' ∈ _) (by decide : "S".toList.all isIdChar = true)
      (by rintro c ⟨⟩; decide) (hafter.space (by rintro c ⟨⟩; decide))
    have hafter := blob_cuts bytes (hafter.space (by rintro c ⟨⟩; decide))
    have hall := hword (by decide : 'C' ∈ _) (by decide : "AST".toList.all isIdChar = true)
      (by rintro c ⟨⟩; decide) (hafter.mark (.inr (.inl rfl)))
    rw [List.append_assoc, List.append_assoc]
    exact hall
  starts := ⟨_, _, rfl, rfl⟩
  plain hnul := by
    rcases List.mem_append.mp hnul with hnul | hnul
    · rcases List.mem_append.mp hnul with hnul | hnul
      · revert hnul
        decide
      · exact blob_plain bytes hnul
    · revert hnul
      decide

theorem text_phrase {s : String} (h : '\x00' ∉ s.toList) :
    Phrase (Text.enclose '\'' s).toList [(.string, '\'' :: (doubled '\'' s.toList ++ ['\'']))] := by
  rw [enclose_toList]
  refine .single (by decide) rfl (fun rest hrest => ?_) ?_
  · have hquote : rest.head? ≠ some '\'' := by
      intro hc
      rcases hrest _ hc with hc | hc | hc <;> cases hc
    exact quotedAt_doubled .string hquote s.toList
  · intro hnul
    simp only [List.mem_cons, List.mem_append, List.not_mem_nil, or_false] at hnul
    rcases hnul with hnul | hnul | hnul
    · cases hnul
    · rcases mem_doubled hnul with hnul | hnul
      · cases hnul
      · exact h hnul
    · cases hnul

theorem blobLiteral_toList (bytes : List UInt8) :
    (CallText.blobLiteral bytes).toList = (blobShape bytes).2 := by
  unfold CallText.blobLiteral
  simp only [String.toList_append, String.toList_ofList]
  rfl

theorem floatLiteral_toList {x : Binary64} (hx : x.isNaN = false) :
    (CallText.floatLiteral x).toList = x.signChars ++ floatChars x := by
  unfold CallText.floatLiteral floatChars Binary64.signChars
  rw [hx, if_neg Bool.false_ne_true]
  cases x.isInfinite with
  | true =>
    cases x.negative with
    | true =>
      simp only [if_true]
      decide
    | false => simp
  | false =>
    unfold Binary64.displayScientific
    rw [if_neg Bool.false_ne_true, String.toList_ofList]
    rfl

/-- A literal is cut into its tokens. -/
theorem literal_phrase (v : Value) : Phrase (CallText.literal v).toList (literalShapes v) := by
  cases v with
  | null => exact null_phrase
  | integer n => exact integer_phrase n.toInt
  | float x =>
    show Phrase (CallText.floatLiteral x).toList
      (if x.isNaN then [(.word, "NULL".toList)] else signed x.negative (.float, floatChars x))
    cases hx : x.isNaN with
    | true =>
      unfold CallText.floatLiteral
      rw [hx]
      exact null_phrase
    | false =>
      rw [floatLiteral_toList hx]
      exact float_phrase x
  | text s =>
    unfold CallText.literal literalShapes
    dsimp only
    unfold CallText.textLiteral
    cases hnul : s.toList.contains '\x00' with
    | true =>
      rw [if_pos rfl, if_pos rfl, String.toList_append, String.toList_append, blobLiteral_toList]
      exact cast_phrase _
    | false =>
      rw [if_neg Bool.false_ne_true, if_neg Bool.false_ne_true]
      exact text_phrase fun hmem => by simp [hmem] at hnul
  | blob bytes =>
    unfold CallText.literal
    dsimp only
    rw [blobLiteral_toList]
    exact blob_phrase bytes

/-- The tokens of literals with commas between them. -/
def listShapes : List Value → List Shape
  | [] => []
  | [v] => literalShapes v
  | v :: rest => literalShapes v ++ (.mark, [',']) :: listShapes rest

/-- Literals with commas between them. -/
def literalList (vs : List Value) : List Char := (", ".intercalate (vs.map CallText.literal)).toList

/-! ## Queries of literals -/

theorem list_phrase (v : Value) (vs : List Value) :
    Phrase (literalList (v :: vs)) (listShapes (v :: vs)) := by
  have hlist (vs : List Value) : literalList vs =
      ", ".toList.intercalate (vs.map fun v => (CallText.literal v).toList) := by
    unfold literalList
    rw [String.toList_intercalate, List.map_map]
    rfl
  induction vs generalizing v with
  | nil =>
    rw [hlist]
    simp only [List.map_cons, List.map_nil, List.intercalate_singleton]
    exact literal_phrase v
  | cons v' vs ih =>
    have hcons : literalList (v :: v' :: vs) =
        (CallText.literal v).toList ++ [',', ' '] ++ literalList (v' :: vs) := by
      rw [hlist, hlist]
      exact List.intercalate_cons_cons
    rw [hcons]
    exact (literal_phrase v).comma (ih v')

/-- A query of literals. -/
def selectText (vs : List Value) : String := "SELECT " ++ ", ".intercalate (vs.map CallText.literal)

def selectWord : Shape := (.word, "SELECT".toList)

/-- The name of a function in double quotes. -/
def nameShape (f : String) : Shape := (.quoted, '"' :: (doubled '"' f.toList ++ ['"']))

/-- The tokens of a call. -/
def callShapes (f : String) (vs : List Value) : List Shape :=
  selectWord :: nameShape f :: (.mark, ['(']) :: (listShapes vs ++ [(.mark, [')'])])

theorem select_cuts {cs : List Char} {shapes : List Shape} (h : CutsInto cs shapes)
    (hstarts : ∃ c tail, cs = c :: tail ∧ isSpace c = false) :
    CutsInto ("SELECT ".toList ++ cs) (selectWord :: shapes) := by
  have hspace : ∀ c ∈ cs.head?, isSpace c = false := by
    obtain ⟨c, tail, rfl, hc⟩ := hstarts
    rintro _ ⟨⟩
    exact hc
  refine CutsInto.token (tokenAt_word (by decide : 'S' ∈ _) (by decide : "ELECT".toList.all isIdChar = true)
    ?_) (h.space hspace) nofun
  rintro _ ⟨⟩
  decide

/-- The tokens of a query of literals. -/
theorem selectText_cuts (v : Value) (vs : List Value) :
    CutsInto (selectText (v :: vs)).toList (selectWord :: listShapes (v :: vs)) ∧
      '\x00' ∉ (selectText (v :: vs)).toList := by
  have hphrase := list_phrase v vs
  have hchars : (selectText (v :: vs)).toList = "SELECT ".toList ++ literalList (v :: vs) :=
    String.toList_append
  have hcuts := hphrase.cuts [] [] nofun cutsInto_nil
  rw [List.append_nil, List.append_nil] at hcuts
  rw [hchars]
  refine ⟨select_cuts hcuts hphrase.starts, fun hnul => ?_⟩
  rcases List.mem_append.mp hnul with hnul | hnul
  · revert hnul
    decide
  · exact hphrase.plain hnul

/-- The tokens of a call. -/
theorem call_cuts (f : String) (vs : List Value) :
    CutsInto (CallText.call f vs).toList (callShapes f vs) ∧
      ('\x00' ∉ f.toList → '\x00' ∉ (CallText.call f vs).toList) := by
  have hchars : (CallText.call f vs).toList = "SELECT ".toList ++
      ('"' :: (doubled '"' f.toList ++ ['"']) ++ ('(' :: (literalList vs ++ [')']))) := by
    unfold CallText.call CallText.application
    simp only [String.toList_append, enclose_toList, List.append_assoc]
    rfl
  have hclosed : CutsInto [')'] [(.mark, [')'])] := cutsInto_nil.mark (.inr (.inr rfl))
  have hlist : CutsInto (literalList vs ++ [')']) (listShapes vs ++ [(.mark, [')'])]) ∧
      '\x00' ∉ literalList vs := by
    cases vs with
    | nil => exact ⟨hclosed, nofun⟩
    | cons v vs =>
      have hphrase := list_phrase v vs
      exact ⟨hphrase.cuts _ _ (by rintro _ ⟨⟩; exact .inr (.inl rfl)) hclosed, hphrase.plain⟩
  have hname : CutsInto ('"' :: (doubled '"' f.toList ++ ['"']) ++ ('(' :: (literalList vs ++ [')'])))
      (nameShape f :: (.mark, ['(']) :: (listShapes vs ++ [(.mark, [')'])])) :=
    CutsInto.token (quotedAt_doubled .quoted (by simp) f.toList) (hlist.1.mark (.inr (.inl rfl))) nofun
  rw [hchars]
  refine ⟨select_cuts hname ⟨_, _, rfl, rfl⟩, fun hf hnul => ?_⟩
  simp only [List.mem_append, List.mem_cons, List.not_mem_nil, or_false] at hnul
  rcases hnul with hnul | (hnul | hnul | hnul) | hnul | hnul | hnul
  · revert hnul
    decide
  · cases hnul
  · rcases mem_doubled hnul with hnul | hnul
    · cases hnul
    · exact hf hnul
  · cases hnul
  · cases hnul
  · exact hlist.2 hnul
  · cases hnul

end HostSql.Sql
