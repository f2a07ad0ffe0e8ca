import HostSql.Sql.Grammar.Command

/-!
# Where the first command of a text ends

`nextCommand_cuts` says where a text is cut after its first command: behind a semicolon or at the end
of the text, never before its first character, and at the end if there is no command.

It does not matter for this what the commands are. A reader leaves the rest of the tokens it was
given (`Input.IsRestOf`), so the semicolon that ends a command is a token of the whole text, and a
token of a text is a piece of it that stands where the token says (`tokenize_pieces`).
-/

namespace HostSql.Sql

/-! ## Tokens -/

/-- A token is a piece of a text whose first character has the given offset, and stands where it
says. -/
def Token.IsPieceOf (t : Token) (offset : Nat) (cs : List Char) : Prop :=
  ∃ before after, cs = before ++ t.text ++ after ∧ t.start = offset + before.length

theorem Token.IsPieceOf.append {t : Token} {offset : Nat} {cs : List Char} (front : List Char)
    (h : t.IsPieceOf (offset + front.length) cs) : t.IsPieceOf offset (front ++ cs) := by
  obtain ⟨before, after, htext, hstart⟩ := h
  refine ⟨front ++ before, after, ?_, ?_⟩
  · rw [htext]
    simp only [List.append_assoc]
  · rw [hstart, List.length_append, Nat.add_assoc]

theorem tokenizeFrom_pieces (offset : Nat) (cs : List Char) :
    ∀ t ∈ tokenizeFrom offset cs, t.IsPieceOf offset cs := by
  induction offset, cs using tokenizeFrom.induct with
  | case1 offset => simp [tokenizeFrom]
  | case2 offset c rest kind more hat ih =>
    intro t ht
    have hsplit : c :: rest = (c :: rest.take more) ++ rest.drop more := by simp
    rw [tokenizeFrom, hat] at ht
    rcases List.mem_cons.mp ht with rfl | ht
    · exact ⟨[], rest.drop more, hsplit, rfl⟩
    · rw [hsplit]
      refine .append _ ?_
      have := ih t ht
      rwa [List.length_cons, Nat.add_comm _ 1, ← Nat.add_assoc]

/-- A token of a text is a piece of it, and stands where it says. -/
theorem tokenize_pieces {cs : List Char} {t : Token} (h : t ∈ tokenize cs) : t.IsPieceOf 0 cs :=
  tokenizeFrom_pieces 0 cs t h

/-- The text up to the end of one of its tokens ends with that token. -/
theorem Token.IsPieceOf.take_stop {t : Token} {cs : List Char} (h : t.IsPieceOf 0 cs) :
    t.stop ≤ cs.length ∧ ∃ front, cs.take t.stop = front ++ t.text := by
  obtain ⟨before, after, rfl, hstart⟩ := h
  have hstop : t.stop = (before ++ t.text).length := by
    rw [Token.stop, hstart, List.length_append, Nat.zero_add]
  rw [hstop]
  refine ⟨by simp, before, ?_⟩
  rw [List.take_left]

/-- A mark is spelled one way. -/
theorem Token.text_of_isMark {t : Token} {m : String} (h : t.isMark m = true) :
    t.text = m.toList := by
  simp only [Token.isMark, Bool.and_eq_true, beq_iff_eq] at h
  rw [← h.2, String.toList_ofList]

/-! ## Readers -/

namespace Reader

variable {α β : Type} {cs : List Char} {s : Input}

theorem bind_ok {x : Reader α} {f : α → Reader β} {b : β} {s'' : { s' : Input // s'.IsRestOf s }}
    (h : (x >>= f) cs s = .ok (b, s'')) :
    ∃ a s', x cs s = .ok (a, s') ∧ ∃ left, f a cs s'.val = .ok (b, left) ∧ left.val = s''.val := by
  simp only [bind] at h
  cases hx : x cs s with
  | error e =>
    rw [hx] at h
    exact nomatch h
  | ok first =>
    obtain ⟨a, s'⟩ := first
    rw [hx] at h
    cases hf : f a cs s'.val with
    | error e =>
      simp only [hf] at h
      exact nomatch h
    | ok second =>
      obtain ⟨b', left⟩ := second
      simp only [hf, Except.ok.injEq, Prod.mk.injEq] at h
      obtain ⟨rfl, rfl⟩ := h
      exact ⟨a, s', rfl, left, hf, rfl⟩

theorem token?_ok {test : Token → Bool} {t : Token} {s' : { s' : Input // s'.IsRestOf s }}
    (h : token? test cs s = .ok (some t, s')) :
    t ∈ s.tokens ∧ test t = true ∧ s'.val.stop = t.stop := by
  unfold token? at h
  split at h
  next t' rest htokens =>
    split at h
    next htest =>
      cases h
      exact ⟨htokens ▸ List.mem_cons_self, htest, rfl⟩
    next => exact nomatch h
  next => exact nomatch h

/-- A mark that was there is a token of the input. -/
theorem mark?_ok {m : String} {s' : { s' : Input // s'.IsRestOf s }}
    (h : mark? m cs s = .ok (true, s')) :
    ∃ t ∈ s.tokens, t.isMark m = true ∧ s'.val.stop = t.stop := by
  obtain ⟨found, left, htoken, rest, hrest, hleft⟩ := bind_ok h
  cases found with
  | none => exact nomatch hrest
  | some t =>
    obtain ⟨hmem, htest, hstop⟩ := token?_ok htoken
    cases hrest
    exact ⟨t, hmem, htest, by rw [← hleft]; exact hstop⟩

end Reader

/-! ## Commands -/

/-- A command ends with a semicolon of the input, or with the text. -/
theorem commandAndEnd_ok {cs : List Char} {s : Input} {r : NextCommand}
    {s' : { s' : Input // s'.IsRestOf s }} (h : commandAndEnd cs s = .ok (r, s')) :
    r.command? ≠ none ∧
      (r.stop = s.length ∨ ∃ t ∈ s.tokens, t.isMark ";" = true ∧ r.stop = t.stop) := by
  obtain ⟨c, afterCommand, -, rest, h, -⟩ := Reader.bind_ok h
  obtain ⟨semicolon, afterMark, hmark, rest, h, -⟩ := Reader.bind_ok h
  cases semicolon with
  | true =>
    obtain ⟨t, hmem, htest, hstop⟩ := Reader.mark?_ok hmark
    cases h
    exact ⟨nofun, .inr ⟨t, afterCommand.property.tokens.subset hmem, htest, hstop⟩⟩
  | false =>
    obtain ⟨next, beforeEnd, -, rest, h, -⟩ := Reader.bind_ok h
    have hlength : beforeEnd.val.length = s.length :=
      beforeEnd.property.length.trans <|
        afterMark.property.length.trans afterCommand.property.length
    simp only at h
    split at h
    next =>
      obtain ⟨_, left, -, rest, h, -⟩ := Reader.bind_ok h
      cases h
      exact ⟨nofun, .inl (left.property.length.trans hlength)⟩
    next =>
      cases h
      exact ⟨nofun, .inl hlength⟩

/-- Where a text is cut after its first command. -/
structure NextCommand.Cuts (r : NextCommand) (cs : List Char) : Prop where
  inside : r.stop ≤ cs.length
  progress : cs ≠ [] → 0 < r.stop
  ending : r.stop = cs.length ∨ ∃ front, cs.take r.stop = front ++ [';']
  /-- A text without a command is used up. -/
  blank : r.command? = none → r.stop = cs.length

theorem NextCommand.Cuts.whole {r : NextCommand} {cs : List Char} (h : r.stop = cs.length) :
    r.Cuts cs :=
  ⟨Nat.le_of_eq h, fun hne => h ▸ List.length_pos_iff.mpr hne, .inl h, fun _ => h⟩

/-- A text that is cut behind one of its semicolons. -/
theorem NextCommand.Cuts.semicolon {r : NextCommand} {cs : List Char} {t : Token}
    (ht : t.IsPieceOf 0 cs) (hmark : t.isMark ";" = true) (hstop : r.stop = t.stop)
    (hcommand : r.command? ≠ none) : r.Cuts cs := by
  have htext : t.text = [';'] := Token.text_of_isMark hmark
  obtain ⟨hle, front, hfront⟩ := ht.take_stop
  rw [← hstop] at hle hfront
  refine ⟨hle, fun _ => ?_, .inr ⟨front, htext ▸ hfront⟩, fun h => absurd h hcommand⟩
  rw [hstop, Token.stop, htext]
  exact Nat.succ_pos _

theorem nextCommand_cuts {cs : List Char} {r : NextCommand} (h : nextCommand cs = .ok r) :
    r.Cuts cs := by
  simp only [nextCommand] at h
  split at h
  next =>
    cases h
    exact .whole rfl
  next =>
    generalize hinput : (⟨_, _, _⟩ : Input) = input at h
    cases hread : commandAndEnd cs input with
    | error e =>
      rw [hread] at h
      exact nomatch h
    | ok read =>
      obtain ⟨r', left⟩ := read
      rw [hread] at h
      cases h
      obtain ⟨hcommand, hstop | ⟨t, ht, hmark, hstop⟩⟩ := commandAndEnd_ok hread
      · exact .whole (hstop.trans (hinput ▸ rfl))
      · refine .semicolon (tokenize_pieces ?_) hmark hstop hcommand
        rw [← hinput] at ht
        exact (List.mem_filter.mp ((List.dropWhile_suffix _).subset ht)).1

end HostSql.Sql
