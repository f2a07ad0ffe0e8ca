import HostSql.Proofs.Sql.Cutting
import HostSql.Proofs.Sql.Literals

/-!
# Following a reader

What a reader makes of tokens depends on their shapes and, where it looks at the text again, on where
they stand. `Reads` says from which shapes to which a reader gets and what it returns. It goes through
sequencing, so a phrase is followed through the grammar from its tokens to its tree, one rule for each
thing that a reader can do.
-/

namespace HostSql.Sql

variable {α β : Type}

/-- What a reader returns of a text at an input, and where it leaves off. -/
def Gets (x : Reader α) (text : List Char) (s : Input) (a : α) (s' : Input) : Prop :=
  ∃ h : s'.IsRestOf s, x text s = .ok (a, ⟨s', h⟩)

theorem Gets.pure (text : List Char) (s : Input) (a : α) : Gets (Pure.pure a) text s a s :=
  ⟨.refl s, rfl⟩

theorem Gets.bind {x : Reader α} {f : α → Reader β} {text : List Char} {s s' s'' : Input} {a : α}
    {b : β} (hx : Gets x text s a s') (hf : Gets (f a) text s' b s'') :
    Gets (x >>= f) text s b s'' := by
  obtain ⟨hs', hx⟩ := hx
  obtain ⟨hs'', hf⟩ := hf
  refine ⟨hs''.trans hs', ?_⟩
  simp only [Bind.bind]
  rw [hx]
  dsimp only
  rw [hf]

/-- A token that passes a test is read. -/
theorem gets_token? {test : Token → Bool} {t : Token} (h : test t = true) (text : List Char)
    (ts : List Token) (stop length : Nat) :
    Gets (Reader.token? test) text ⟨t :: ts, stop, length⟩ (some t) ⟨ts, t.stop, length⟩ := by
  refine ⟨⟨List.suffix_cons t ts, rfl⟩, ?_⟩
  simp only [Reader.token?]
  rw [if_pos h]

/-- A token that does not pass a test is left. -/
theorem gets_token?_none {test : Token → Bool} {s : Input} (h : ∀ t ∈ s.tokens.head?, test t = false)
    (text : List Char) : Gets (Reader.token? test) text s none s := by
  refine ⟨.refl s, ?_⟩
  obtain ⟨_ | ⟨t, ts⟩, stop, length⟩ := s
  · rfl
  · have htest : test t = false := h t rfl
    simp only [Reader.token?]
    rw [if_neg (by rw [htest]; exact Bool.false_ne_true)]

theorem shape_eq {t : Token} {shape : Shape} (h : t.shape = shape) :
    t = ⟨shape.1, shape.2, t.start⟩ := by
  subst h
  rfl

/-- A reader that gets from tokens of some shapes to tokens of others, and what it returns. -/
def Reads (x : Reader α) (before after : List Shape) (P : α → Prop) : Prop :=
  ∀ text s, (∀ t ∈ s.tokens, t.IsPieceOf 0 text) → s.tokens.map Token.shape = before →
    ∃ a s', Gets x text s a s' ∧ s'.tokens.map Token.shape = after ∧ P a

namespace Reads

variable {before middle after : List Shape} {P : α → Prop} {Q : β → Prop}

theorem pure {a : α} (h : P a) : Reads (Pure.pure a : Reader α) before before P :=
  fun text s _ hs => ⟨a, s, .pure text s a, hs, h⟩

theorem bind {x : Reader α} {f : α → Reader β} (hx : Reads x before middle P)
    (hf : ∀ a, P a → Reads (f a) middle after Q) : Reads (x >>= f) before after Q := by
  intro text s hpieces hs
  obtain ⟨a, s', hrun, hs', ha⟩ := hx text s hpieces hs
  have hpieces' : ∀ t ∈ s'.tokens, t.IsPieceOf 0 text := fun t ht =>
    hpieces t (hrun.1.tokens.subset ht)
  obtain ⟨b, s'', hrun', hs'', hb⟩ := hf a ha text s' hpieces' hs'
  exact ⟨b, s'', hrun.bind hrun', hs'', hb⟩

theorem pure_bind {a : α} {f : α → Reader β} (h : Reads (f a) before after Q) :
    Reads (Pure.pure a >>= f) before after Q :=
  bind (pure (P := (· = a)) rfl) fun _ ha => ha ▸ h

theorem ite_pos {c : Prop} [Decidable c] {x y : Reader α} (hc : c) (h : Reads x before after P) :
    Reads (if c then x else y) before after P := by
  rw [if_pos hc]
  exact h

theorem ite_neg {c : Prop} [Decidable c] {x y : Reader α} (hc : ¬ c) (h : Reads y before after P) :
    Reads (if c then x else y) before after P := by
  rw [if_neg hc]
  exact h

theorem mono {x : Reader α} {P' : α → Prop} (hx : Reads x before after P) (h : ∀ a, P a → P' a) :
    Reads x before after P' := by
  intro text s hpieces hs
  obtain ⟨a, s', hrun, hs', ha⟩ := hx text s hpieces hs
  exact ⟨a, s', hrun, hs', h a ha⟩

/-! ## Looking ahead -/

theorem input : Reads Reader.input before before fun s => s.tokens.map Token.shape = before :=
  fun _ s _ hs => ⟨s, s, ⟨.refl s, rfl⟩, hs, hs⟩

theorem peekTwo : Reads Reader.peekTwo before before fun p =>
    p.1.map Token.shape = before.head? ∧ p.2.map Token.shape = (before.drop 1).head? := by
  unfold Reader.peekTwo
  refine Reads.input.bind fun s hs => .pure ?_
  subst hs
  refine ⟨?_, ?_⟩
  · rw [List.head?_map]
  · rw [← List.map_drop, List.head?_map]

theorem peek? : Reads Reader.peek? before before fun t? => t?.map Token.shape = before.head? := by
  unfold Reader.peek?
  refine Reads.input.bind fun s hs => .pure ?_
  rw [← hs, List.head?_map]

/-! ## Single tokens -/

/-- A token that passes a test is read. -/
theorem token?_some {test : Token → Bool} {shape : Shape} {rest : List Shape}
    (h : ∀ start, test ⟨shape.1, shape.2, start⟩ = true) :
    Reads (Reader.token? test) (shape :: rest) rest fun t? => ∃ t, t? = some t ∧ t.shape = shape := by
  rintro text ⟨tokens, stop, length⟩ hpieces hs
  obtain ⟨t, ts, rfl, rfl, rfl⟩ := List.map_eq_cons_iff.mp hs
  exact ⟨some t, ⟨ts, t.stop, length⟩, gets_token? (h t.start) text ts stop length, rfl, t, rfl, rfl⟩

/-- A token that does not pass a test is left. -/
theorem token?_none {test : Token → Bool}
    (h : ∀ shape ∈ before.head?, ∀ start, test ⟨shape.1, shape.2, start⟩ = false) :
    Reads (Reader.token? test) before before (· = none) := by
  rintro text s hpieces rfl
  refine ⟨none, s, gets_token?_none (fun t ht => ?_) text, rfl, rfl⟩
  refine h t.shape ?_ t.start
  rw [List.head?_map, Option.mem_def.mp ht]
  rfl

theorem token {test : Token → Bool} {shape : Shape} {rest : List Shape}
    (h : ∀ start, test ⟨shape.1, shape.2, start⟩ = true) :
    Reads (Reader.token test) (shape :: rest) rest (·.shape = shape) := by
  unfold Reader.token
  refine (token?_some h).bind ?_
  rintro _ ⟨t, rfl, ht⟩
  exact .pure ht

/-- A mark that is next. -/
theorem mark?_true {m : String} {cs : List Char} {rest : List Shape} (h : String.ofList cs = m) :
    Reads (Reader.mark? m) ((.mark, cs) :: rest) rest (· = true) := by
  unfold Reader.mark?
  refine (token?_some fun start => ?_).bind ?_
  · simp [Token.isMark, h]
  · rintro _ ⟨t, rfl, -⟩
    exact .pure rfl

theorem mark {m : String} {cs : List Char} {rest : List Shape} (h : String.ofList cs = m) :
    Reads (Reader.mark m) ((.mark, cs) :: rest) rest fun _ => True := by
  unfold Reader.mark
  refine (token fun start => ?_).bind fun _ _ => .pure trivial
  simp [Token.isMark, h]

/-- A keyword that is next. -/
theorem keyword {k : String} {cs : List Char} {rest : List Shape}
    (h : Text.raiseCase (String.ofList cs) = k) :
    Reads (Reader.keyword k) ((.word, cs) :: rest) rest fun _ => True := by
  unfold Reader.keyword
  refine (token fun start => ?_).bind fun _ _ => .pure trivial
  simp [Token.isKeyword, Token.keyword?, h]

/-- Any token. -/
theorem take {shape : Shape} {rest : List Shape} :
    Reads (Reader.token fun _ => true) (shape :: rest) rest (·.shape = shape) :=
  token fun _ => rfl

/-- The next token, where there is one. -/
theorem peek?_cons {shape : Shape} {rest : List Shape} :
    Reads Reader.peek? (shape :: rest) (shape :: rest) fun t? =>
      ∃ start, t? = some ⟨shape.1, shape.2, start⟩ := by
  refine peek?.mono ?_
  intro t? ht
  obtain ⟨t, rfl, rfl⟩ := Option.map_eq_some_iff.mp ht
  exact ⟨t.start, rfl⟩

theorem peek?_nil : Reads Reader.peek? [] [] (· = none) :=
  peek?.mono fun _ ht => Option.map_eq_none_iff.mp ht

/-- The next token, where there is one, and the one after it. -/
theorem peekTwo_cons {shape : Shape} {rest : List Shape} :
    Reads Reader.peekTwo (shape :: rest) (shape :: rest) fun p => ∃ start next?,
      p = (some ⟨shape.1, shape.2, start⟩, next?) ∧ next?.map Token.shape = rest.head? := by
  refine peekTwo.mono ?_
  rintro ⟨t?, next?⟩ ⟨ht, hnext⟩
  obtain ⟨t, rfl, rfl⟩ := Option.map_eq_some_iff.mp ht
  exact ⟨t.start, next?, rfl, hnext⟩

end Reads

/-- What is next is no such mark. -/
def NotMark (m : String) (shapes : List Shape) : Prop :=
  ∀ shape ∈ shapes.head?, ¬ (shape.1 = .mark ∧ String.ofList shape.2 = m)

/-- What is next is no such keyword. -/
def NotKeyword (k : String) (shapes : List Shape) : Prop :=
  ∀ shape ∈ shapes.head?, ¬ (shape.1 = .word ∧ Text.raiseCase (String.ofList shape.2) = k)

namespace Reads

variable {before middle after : List Shape} {P : α → Prop} {Q : β → Prop}

theorem mark?_false {m : String} (h : NotMark m before) :
    Reads (Reader.mark? m) before before (· = false) := by
  unfold Reader.mark?
  refine (token?_none fun shape hshape start => ?_).bind ?_
  · have := h shape hshape
    simp only [Token.isMark]
    cases hkind : decide (shape.1 = .mark) with
    | false => rfl
    | true => simpa [of_decide_eq_true hkind] using this
  · rintro _ rfl
    exact .pure rfl

theorem keyword?_false {k : String} (h : NotKeyword k before) :
    Reads (Reader.keyword? k) before before (· = false) := by
  unfold Reader.keyword?
  refine (token?_none fun shape hshape start => ?_).bind ?_
  · have := h shape hshape
    simp only [Token.isKeyword, Token.keyword?]
    by_cases hkind : shape.1 = .word
    · simpa [hkind] using this
    · simp [hkind]
  · rintro _ rfl
    exact .pure rfl

end Reads

end HostSql.Sql
