import HostSql.Proofs.Sql.Reading

/-!
# The trees of literals and calls

A literal is read as the expression that it looks like, whatever follows it that may follow it. So the
first command of a text that is a list of literals, or a call on them, is known.

> `nextCommand_select`: a list of literals is read as their expressions.
> `nextCommand_call`: a call is read as a call of its name with the expressions of its literals.

Readers take fuel, and the fuel that a text has grows with its tokens; `exprList_literals` says how much
of it a list takes.
-/

namespace HostSql.Sql

variable {α β : Type}

/-! ## Literals as expressions -/

/-- The expression of a numeral with its sign. -/
def signedExpr (negative : Bool) (e : Expr) : Expr := if negative then .unary .negate e else e

/-- The expression that a literal is. -/
def literalExpr : Value → Expr
  | .null => .null
  | .integer n => signedExpr (decide (n.toInt < 0)) (integerExpr (Nat.toDigits 10 n.toInt.natAbs))
  | .float x => if x.isNaN then .null else signedExpr x.negative (.real (floatChars x))
  | .text s =>
    if s.toList.contains '\x00' then .cast (.blob (Utf8.encode s)) "TEXT" else .string s
  | .blob bytes => .blob bytes

/-- What may follow an expression that is read here. -/
def Closes (shapes : List Shape) : Prop :=
  ∀ shape ∈ shapes.head?,
    shape = (.mark, [',']) ∨ shape = (.mark, [')']) ∨ shape = (.word, "AS".toList)

/-- The expression that a token is by itself. -/
def tokenExpr? : Shape → Option Expr
  | (.integer, cs) => some (integerExpr cs)
  | (.float, cs) => some (.real cs)
  | (.string, cs) => some (.string (String.ofList (unquote cs)))
  | (.blob, cs) => some (.blob (hexBytes (cs.drop 2).dropLast))
  | _ => none

@[simp] theorem isKeyword_word (cs : List Char) (start : Nat) (k : String) :
    (⟨.word, cs, start⟩ : Token).isKeyword k = (Text.raiseCase (String.ofList cs) == k) := by
  simp [Token.isKeyword, Token.keyword?]

@[simp] theorem isMark_mark (cs : List Char) (start : Nat) (m : String) :
    (⟨.mark, cs, start⟩ : Token).isMark m = (String.ofList cs == m) := by
  simp [Token.isMark]

theorem unquote_doubled {quote : Char} (hquote : quote = '\'' ∨ quote = '"') (cs : List Char) :
    unquote (quote :: (doubled quote cs ++ [quote])) = cs := by
  have hmark : quote = '\'' ∨ quote = '"' ∨ quote = '\x60' := hquote.imp_right .inl
  rw [unquote, if_pos hmark, List.dropLast_concat, undouble_doubled]

theorem tokenExpr?_blob (bytes : List UInt8) : tokenExpr? (blobShape bytes) = some (.blob bytes) := by
  have hbytes : (hexDigits bytes ++ ['\'']).dropLast = hexDigits bytes := List.dropLast_concat
  simp only [tokenExpr?, blobShape, List.drop_succ_cons, List.drop_zero, hbytes, hexBytes_hexDigits]

namespace Reads

variable {before rest : List Shape}

/-- Any token, forgotten. -/
theorem taken {shape : Shape} :
    Reads (do let _ ← Reader.token fun _ => true : Reader Unit) (shape :: rest) rest fun _ => True :=
  take.bind fun _ _ => .pure trivial

section Operands

variable {cs : List Char} {e : Expr} {fuel : Nat}

theorem operand_token {shape : Shape} (h : tokenExpr? shape = some e) :
    Reads (operand (fuel + 1)) (shape :: rest) rest (· = e) := by
  unfold operand
  refine peekTwo_cons.bind ?_
  rintro _ ⟨start, next?, rfl, -⟩
  obtain ⟨kind, cs⟩ := shape
  cases kind
  case integer | float | string | blob =>
    cases h
    dsimp only
    exact taken.bind fun _ _ => .pure rfl
  all_goals cases h

theorem operand_minus (h : Reads (operand fuel) before rest (· = e)) :
    Reads (operand (fuel + 1)) ((.mark, ['-']) :: before) rest (· = .unary .negate e) := by
  unfold operand
  refine peekTwo_cons.bind ?_
  rintro _ ⟨start, next?, rfl, -⟩
  dsimp only
  rw [if_neg (by simp), if_pos (by simp)]
  refine taken.bind fun _ _ => h.bind ?_
  rintro _ rfl
  exact .pure rfl

theorem operand_null :
    Reads (operand (fuel + 1)) ((.word, "NULL".toList) :: rest) rest (· = .null) := by
  unfold operand
  refine peekTwo_cons.bind ?_
  rintro _ ⟨start, next?, rfl, -⟩
  dsimp only
  rw [if_pos (by rw [isKeyword_word]; decide)]
  exact taken.bind fun _ _ => .pure rfl

end Operands

/-- Nothing that may follow an expression goes on with it. -/
theorem operators_closed {level fuel : Nat} {e : Expr} (h : Closes rest) :
    Reads (operators level e (fuel + 1)) rest rest (· = e) := by
  unfold operators
  cases rest with
  | nil =>
    refine peekTwo.bind ?_
    rintro ⟨t?, next?⟩ ⟨ht, -⟩
    obtain rfl := Option.map_eq_none_iff.mp ht
    exact .pure rfl
  | cons shape rest =>
    refine peekTwo_cons.bind ?_
    rintro _ ⟨start, next?, rfl, -⟩
    obtain ⟨hop, hkeyword, hlike⟩ : binaryOp? ⟨shape.1, shape.2, start⟩ = none ∧
        (∀ k, "AS" ≠ k → (⟨shape.1, shape.2, start⟩ : Token).isKeyword k = false) ∧
        isLikeWord ⟨shape.1, shape.2, start⟩ = false := by
      rcases h _ rfl with rfl | rfl | rfl
      · exact ⟨rfl, fun _ _ => rfl, rfl⟩
      · exact ⟨rfl, fun _ _ => rfl, rfl⟩
      · have hcapitals : Text.raiseCase (String.ofList "AS".toList) = "AS" := by decide
        refine ⟨?_, fun k hk => ?_, ?_⟩
        · simp [binaryOp?]
          decide
        · rw [isKeyword_word, hcapitals]
          exact beq_false_of_ne hk
        · simp only [isLikeWord, Token.keyword?, if_true, hcapitals]
          decide
    dsimp only at hop hkeyword hlike ⊢
    rw [hop]
    simp (disch := decide) only [hkeyword, hlike, Bool.false_and, Bool.or_false,
      Bool.false_eq_true, if_false]
    split <;> exact .pure rfl

/-- An operand that nothing goes on with is an expression. -/
theorem expr_of_operand {level fuel : Nat} {e : Expr}
    (h : Reads (operand (fuel + 1)) before rest (· = e)) (hrest : Closes rest) :
    Reads (expr level (fuel + 2)) before rest (· = e) := by
  rw [expr]
  refine h.bind ?_
  rintro _ rfl
  exact operators_closed hrest

/-- A type of one word is the text of that word. -/
theorem typeName?_word {more : List Shape} :
    Reads typeName? ((.word, "TEXT".toList) :: (.mark, [')']) :: more) ((.mark, [')']) :: more)
      (· = some "TEXT") := by
  rintro text ⟨tokens, stop, length⟩ hpieces hs
  obtain ⟨t, tokens, rfl, ht, hs⟩ := List.map_eq_cons_iff.mp hs
  obtain ⟨t', tokens, rfl, ht', rfl⟩ := List.map_eq_cons_iff.mp hs
  obtain ⟨front, back, rfl, hstart⟩ := hpieces t (by simp)
  obtain ⟨start, rfl⟩ : ∃ start, t = ⟨.word, "TEXT".toList, start⟩ := ⟨t.start, shape_eq ht⟩
  obtain ⟨start', rfl⟩ : ∃ start, t' = ⟨.mark, [')'], start⟩ := ⟨t'.start, shape_eq ht'⟩
  have halias : (⟨.word, "TEXT".toList, start⟩ : Token).isBareAlias = true := by
    have hcapitals : Text.raiseCase (String.ofList "TEXT".toList) = "TEXT" := by decide
    simp only [Token.isBareAlias, Token.isName, Token.keyword?, if_true, hcapitals, Option.any_some,
      Option.all_some, reduceCtorEq, decide_false, Bool.false_or]
    decide
  have hslice : Text.trim isSpace (((front ++ "TEXT".toList ++ back).drop start).take
      (start + "TEXT".toList.length - start)) = "TEXT".toList := by
    have hfront : start = front.length := by simpa using hstart
    rw [Nat.add_sub_cancel_left, hfront, List.append_assoc, List.drop_left' rfl, List.take_left' rfl]
    decide
  refine ⟨some "TEXT", ⟨⟨.mark, [')'], start'⟩ :: tokens, start + "TEXT".toList.length, length⟩, ?_,
    by simp [Token.shape], rfl⟩
  -- one word, which no second one and no number follow
  have hwords (n : Nat) : Gets (typeName?.words (n + 2) 0) (front ++ "TEXT".toList ++ back)
      ⟨⟨.word, "TEXT".toList, start⟩ :: ⟨.mark, [')'], start'⟩ :: tokens, stop, length⟩ 1
      ⟨⟨.mark, [')'], start'⟩ :: tokens, start + "TEXT".toList.length, length⟩ := by
    rw [typeName?.words, typeName?.words]
    refine (gets_token? (by rw [halias, Bool.or_true]) _ _ _ _).bind ?_
    refine (gets_token?_none ?_ _).bind (.pure _ _ _)
    rintro _ ⟨⟩
    rfl
  have hopen (s : Input) (hs : s.tokens.head? = some ⟨.mark, [')'], start'⟩) :
      Gets (Reader.mark? "(") (front ++ "TEXT".toList ++ back) s false s := by
    refine Gets.bind (gets_token?_none ?_ _) (.pure _ _ _)
    rw [hs]
    rintro _ ⟨⟩
    rfl
  unfold typeName? Reader.offset
  refine Gets.bind (Gets.bind ⟨.refl _, rfl⟩ (.pure _ _ _)) ?_
  refine Gets.bind ⟨.refl _, rfl⟩ ?_
  refine (hwords tokens.length).bind ?_
  dsimp only
  rw [if_neg (by decide)]
  refine (hopen _ rfl).bind ?_
  rw [if_neg (by decide)]
  refine Gets.bind ⟨.refl _, rfl⟩ ?_
  unfold Reader.trimmedSlice
  refine Gets.bind (Gets.bind ⟨.refl _, rfl⟩ (.pure _ _ _)) ?_
  dsimp only [List.head?_cons, Option.map_some, Option.getD_some]
  rw [hslice]
  exact .pure _ _ _

/-- A cast of an operand that is a token by itself to the type of texts. -/
theorem operand_cast {shape : Shape} {e : Expr} {fuel : Nat} (h : tokenExpr? shape = some e) :
    Reads (operand (fuel + 3)) ((.word, "CAST".toList) :: (.mark, ['(']) :: shape ::
      (.word, "AS".toList) :: (.word, "TEXT".toList) :: (.mark, [')']) :: rest) rest
      (· = .cast e "TEXT") := by
  rw [operand]
  refine peekTwo_cons.bind ?_
  rintro _ ⟨start, next?, rfl, -⟩
  have hcapitals : Text.raiseCase (String.ofList "CAST".toList) = "CAST" := by decide
  dsimp only
  simp only [isKeyword_word, hcapitals]
  rw [if_neg (by decide), if_neg (by decide), if_pos (by decide)]
  refine taken.bind fun _ _ => (mark rfl).bind fun _ _ => ?_
  refine (expr_of_operand (operand_token h) ?_).bind ?_
  · rintro _ ⟨⟩
    exact .inr (.inr rfl)
  rintro _ rfl
  refine (keyword (by decide)).bind fun _ _ => typeName?_word.bind ?_
  rintro _ rfl
  exact (mark rfl).bind fun _ _ => .pure rfl

theorem operand_literal (v : Value) (fuel : Nat) :
    Reads (operand (fuel + 3)) (literalShapes v ++ rest) rest (· = literalExpr v) := by
  have hsigned {negative : Bool} {shape : Shape} {e : Expr} (h : tokenExpr? shape = some e) :
      Reads (operand (fuel + 3)) (signed negative shape ++ rest) rest
        (· = signedExpr negative e) := by
    cases negative with
    | false => exact operand_token h
    | true => exact operand_minus (operand_token h)
  cases v with
  | null => exact operand_null
  | integer n => exact hsigned rfl
  | float x =>
    cases hx : x.isNaN with
    | true =>
      simp only [literalShapes, literalExpr, hx, if_true]
      exact operand_null
    | false =>
      simp only [literalShapes, literalExpr, hx, Bool.false_eq_true, if_false]
      exact hsigned rfl
  | text s =>
    cases hnul : s.toList.contains '\x00' with
    | true =>
      simp only [literalShapes, literalExpr, hnul, if_true]
      exact operand_cast (tokenExpr?_blob _)
    | false =>
      simp only [literalShapes, literalExpr, hnul, Bool.false_eq_true, if_false]
      exact operand_token (by rw [tokenExpr?, unquote_doubled (.inl rfl), String.ofList_toList])
  | blob bytes => exact operand_token (tokenExpr?_blob bytes)

theorem expr_literal (v : Value) {level fuel : Nat} (h : Closes rest) :
    Reads (expr level (fuel + 4)) (literalShapes v ++ rest) rest (· = literalExpr v) :=
  expr_of_operand (operand_literal v fuel) h

/-- A list of literals up to the parenthesis that closes it. -/
theorem exprList_literals (vs : List Value) (v : Value) (fuel : Nat) {more : List Shape} :
    Reads (exprList (fuel + 5 + vs.length)) (listShapes (v :: vs) ++ (.mark, [')']) :: more)
      ((.mark, [')']) :: more) (· = (v :: vs).map literalExpr) := by
  induction vs generalizing v with
  | nil =>
    rw [List.length_nil, Nat.add_zero, exprList]
    refine (expr_literal v ?_).bind ?_
    · rintro _ ⟨⟩
      exact .inr (.inl rfl)
    rintro _ rfl
    refine (mark?_false ?_).bind ?_
    · rintro _ ⟨⟩
      decide
    rintro _ rfl
    exact .pure rfl
  | cons v' vs ih =>
    have hshapes : listShapes (v :: v' :: vs) ++ (.mark, [')']) :: more =
        literalShapes v ++ (.mark, [',']) :: (listShapes (v' :: vs) ++ (.mark, [')']) :: more) :=
      List.append_assoc _ _ _
    have hfuel : fuel + 5 + (v' :: vs).length = fuel + vs.length + 1 + 4 + 1 := by
      simp only [List.length_cons]
      omega
    rw [hshapes, hfuel, exprList]
    refine (expr_literal v ?_).bind ?_
    · rintro _ ⟨⟩
      exact .inl rfl
    rintro _ rfl
    refine (mark?_true rfl).bind ?_
    rintro _ rfl
    rw [if_pos rfl, show fuel + vs.length + 1 + 4 = fuel + 5 + vs.length by omega]
    refine (ih v').bind ?_
    rintro _ rfl
    exact .pure rfl

end Reads

/-! ## Queries of literals -/

/-- What an expression that is read here begins with. -/
def Opens (shapes : List Shape) : Prop :=
  ∃ shape tail, shapes = shape :: tail ∧ NotMark "." tail ∧
    (shape.1 ∈ [TokenKind.integer, .float, .string, .blob, .quoted] ∨
      shape ∈ [(.word, "NULL".toList), (.word, "CAST".toList), (.mark, ['-'])])

theorem Opens.notMark {shapes : List Shape} (h : Opens shapes) {m : String} (hm : "-" ≠ m) :
    NotMark m shapes := by
  obtain ⟨shape, tail, rfl, -, hshape⟩ := h
  rintro _ ⟨⟩ ⟨hkind, htext⟩
  rcases hshape with hshape | hshape
  · rw [hkind] at hshape
    revert hshape
    decide
  · simp only [List.mem_cons, List.not_mem_nil, or_false] at hshape
    rcases hshape with rfl | rfl | rfl
    · cases hkind
    · cases hkind
    · exact hm htext

theorem Opens.notKeyword {shapes : List Shape} (h : Opens shapes) {k : String} (hk : "NULL" ≠ k)
    (hk' : "CAST" ≠ k) : NotKeyword k shapes := by
  obtain ⟨shape, tail, rfl, -, hshape⟩ := h
  rintro _ ⟨⟩ ⟨hkind, htext⟩
  rcases hshape with hshape | hshape
  · rw [hkind] at hshape
    revert hshape
    decide
  · simp only [List.mem_cons, List.not_mem_nil, or_false] at hshape
    rcases hshape with rfl | rfl | rfl
    · exact hk ((by decide : Text.raiseCase (String.ofList "NULL".toList) = "NULL") ▸ htext)
    · exact hk' ((by decide : Text.raiseCase (String.ofList "CAST".toList) = "CAST") ▸ htext)
    · cases hkind

/-- Nothing, or a further entry of a list. -/
def Continues (shapes : List Shape) : Prop := ∀ shape ∈ shapes.head?, shape = (.mark, [','])

theorem Continues.closes {shapes : List Shape} (h : Continues shapes) : Closes shapes :=
  fun shape hshape => .inl (h shape hshape)

theorem Continues.notKeyword {shapes : List Shape} (h : Continues shapes) (k : String) :
    NotKeyword k shapes := by
  rintro shape hshape ⟨hkind, -⟩
  rw [h shape hshape] at hkind
  cases hkind

theorem Closes.notMark {shapes : List Shape} (h : Closes shapes) {m : String} (hm : "," ≠ m)
    (hm' : ")" ≠ m) : NotMark m shapes := by
  rintro shape hshape ⟨hkind, htext⟩
  rcases h shape hshape with rfl | rfl | rfl
  · exact hm htext
  · exact hm' htext
  · cases hkind

theorem opens_literal (v : Value) {rest : List Shape} (h : Closes rest) :
    Opens (literalShapes v ++ rest) := by
  have hrest : NotMark "." rest := h.notMark (by decide) (by decide)
  have hsigned {negative : Bool} {shape : Shape}
      (hkind : shape.1 ∈ [TokenKind.integer, .float, .string, .blob, .quoted]) :
      Opens (signed negative shape ++ rest) := by
    cases negative with
    | false => exact ⟨_, _, rfl, hrest, .inl hkind⟩
    | true =>
      refine ⟨_, _, rfl, ?_, .inr (by simp)⟩
      rintro _ ⟨⟩ ⟨hmark, -⟩
      rw [hmark] at hkind
      revert hkind
      decide
  cases v with
  | null => exact ⟨_, _, rfl, hrest, .inr (by simp)⟩
  | integer n => exact hsigned (by simp)
  | float x =>
    unfold literalShapes
    dsimp only
    split
    · exact ⟨_, _, rfl, hrest, .inr (by simp)⟩
    · exact hsigned (by simp)
  | text s =>
    unfold literalShapes
    dsimp only
    split
    · refine ⟨_, _, rfl, ?_, .inr (by simp)⟩
      rintro _ ⟨⟩
      decide
    · exact ⟨_, _, rfl, hrest, .inl (by simp)⟩
  | blob bytes => exact ⟨_, _, rfl, hrest, .inl (by simp [blobShape])⟩

/-- The columns of a query of literals. -/
def LiteralColumns (vs : List Value) (columns : List ResultColumn) : Prop :=
  List.Forall₂ (fun v c => ∃ text, c = .expr (literalExpr v) none text) vs columns

/-- What follows the first literal of a list. -/
def moreShapes (vs : List Value) : List Shape := vs.flatMap fun v => (.mark, [',']) :: literalShapes v

theorem listShapes_cons (v : Value) (vs : List Value) :
    listShapes (v :: vs) = literalShapes v ++ moreShapes vs := by
  induction vs generalizing v with
  | nil => exact (List.append_nil _).symm
  | cons v' vs ih =>
    show literalShapes v ++ (.mark, [',']) :: listShapes (v' :: vs) = _
    rw [ih]
    rfl

theorem moreShapes_continues (vs : List Value) : Continues (moreShapes vs) := by
  cases vs with
  | nil => nofun
  | cons v vs =>
    rintro _ ⟨⟩
    rfl

theorem length_le_moreShapes (vs : List Value) : vs.length ≤ (moreShapes vs).length := by
  induction vs with
  | nil => exact Nat.le_refl 0
  | cons v vs ih =>
    have hshapes : moreShapes (v :: vs) = (.mark, [',']) :: (literalShapes v ++ moreShapes vs) := rfl
    rw [hshapes, List.length_cons, List.length_cons, List.length_append]
    omega

namespace Reads

variable {before rest : List Shape} {e : Expr}

theorem fuel : Reads Sql.fuel before before (· = 6 * before.length + 20) := by
  unfold Sql.fuel
  refine Reads.input.bind fun s hs => .pure ?_
  rw [← hs, List.length_map]

theorem fullExpr (h : Reads (expr Level.or (6 * before.length + 20)) before rest (· = e)) :
    Reads Sql.fullExpr before rest (· = e) := by
  unfold Sql.fullExpr
  refine Reads.fuel.bind ?_
  rintro _ rfl
  exact h

theorem offset : Reads Reader.offset before before fun _ => True := by
  unfold Reader.offset
  exact Reads.input.bind fun _ _ => .pure trivial

theorem trimmedSlice {start stop : Nat} :
    Reads (Reader.trimmedSlice start stop) before before fun _ => True := by
  unfold Reader.trimmedSlice
  refine Reads.bind (P := fun _ => True) (fun text s _ hs => ⟨text, s, ⟨.refl s, rfl⟩, hs, trivial⟩)
    fun _ _ => .pure trivial

theorem label?_none (h : Continues rest) : Reads label? rest rest (· = none) := by
  unfold label?
  refine (keyword?_false (h.notKeyword "AS")).bind ?_
  rintro _ rfl
  rw [if_neg Bool.false_ne_true]
  refine (token?_none fun shape hshape start => ?_).bind ?_
  · rw [h shape hshape]
    rfl
  · rintro _ rfl
    exact .pure rfl

theorem resultColumn_expr (hopens : Opens before) (hrest : Continues rest)
    (h : Reads (expr Level.or (6 * before.length + 20)) before rest (· = e)) :
    Reads resultColumn before rest fun c => ∃ text, c = .expr e none text := by
  unfold resultColumn
  refine (mark?_false (hopens.notMark (by decide))).bind ?_
  rintro _ rfl
  rw [if_neg Bool.false_ne_true]
  refine Reads.input.bind fun s hs => ?_
  have hrun : Reads (do
      let start ← Reader.offset
      let e ← Sql.fullExpr
      let text ← Reader.trimmedSlice start (← Reader.offset)
      return .expr e (← label?) text : Reader ResultColumn) before rest
      fun c => ∃ text, c = .expr e none text := by
    refine offset.bind fun start _ => (fullExpr h).bind ?_
    rintro _ rfl
    refine offset.bind fun stop _ => trimmedSlice.bind fun text _ => (label?_none hrest).bind ?_
    rintro _ rfl
    exact .pure ⟨text, rfl⟩
  dsimp only
  split
  next t dot star more htokens =>
    obtain ⟨shape, tail, rfl, htail, -⟩ := hopens
    rw [htokens] at hs
    obtain ⟨-, rfl⟩ := List.cons.inj hs
    have hdot : dot.isMark "." = false := by
      have hshape := htail dot.shape rfl
      obtain ⟨kind, cs, start⟩ := dot
      by_cases hkind : kind = .mark
      · subst hkind
        rw [isMark_mark]
        exact beq_false_of_ne fun htext => hshape ⟨rfl, htext⟩
      · simp [Token.isMark, hkind]
    rw [hdot, Bool.and_false, Bool.false_and, if_neg Bool.false_ne_true]
    exact hrun
  next => exact hrun

/-- What stands between the parentheses of a call. -/
theorem arguments_open (vs : List Value) (more : List Shape) :
    vs = [] ∨ Opens (listShapes vs ++ (.mark, [')']) :: more) := by
  cases vs with
  | nil => exact .inl rfl
  | cons v vs =>
    rw [listShapes_cons, List.append_assoc]
    refine .inr (opens_literal v ?_)
    cases vs with
    | nil =>
      rintro _ ⟨⟩
      exact .inr (.inl rfl)
    | cons v' vs =>
      rintro _ ⟨⟩
      exact .inl rfl

theorem resultColumn_literal (v : Value) (vs : List Value) :
    Reads resultColumn (literalShapes v ++ moreShapes vs) (moreShapes vs)
      fun c => ∃ text, c = .expr (literalExpr v) none text :=
  have hrest := moreShapes_continues vs
  resultColumn_expr (opens_literal v hrest.closes) hrest (expr_literal v hrest.closes)

theorem moreColumns (vs : List Value) {vs' : List Value} {fuel : Nat} {done : List ResultColumn}
    (hdone : LiteralColumns vs' done.reverse) (hfuel : vs.length ≤ fuel) :
    Reads (Reader.commaList.more resultColumn fuel done) (moreShapes vs) [] (LiteralColumns (vs' ++ vs)) := by
  induction vs generalizing vs' fuel done with
  | nil =>
    rw [List.append_nil]
    cases fuel with
    | zero => exact .pure hdone
    | succ fuel =>
      rw [Reader.commaList.more]
      refine (mark?_false (fun _ h => by cases h)).bind ?_
      rintro _ rfl
      exact .pure hdone
  | cons v vs ih =>
    obtain ⟨fuel, rfl⟩ : ∃ n, fuel = n + 1 := ⟨fuel - 1, by simp at hfuel; omega⟩
    rw [Reader.commaList.more]
    refine (mark?_true rfl).bind ?_
    rintro _ rfl
    rw [if_pos rfl]
    refine (resultColumn_literal v vs).bind fun c hc => ?_
    rw [List.append_cons]
    refine ih ?_ (by simp at hfuel; omega)
    rw [List.reverse_cons]
    exact List.rel_append hdone (.cons hc .nil)

theorem commaList_literals (v : Value) (vs : List Value) :
    Reads (Reader.commaList resultColumn) (listShapes (v :: vs)) [] (LiteralColumns (v :: vs)) := by
  unfold Reader.commaList
  rw [listShapes_cons]
  refine (resultColumn_literal v vs).bind fun c hc => Reads.input.bind fun s hs => ?_
  have hone : LiteralColumns [v] [c].reverse := .cons hc .nil
  refine moreColumns vs hone ?_
  rw [← List.length_map Token.shape, hs]
  exact length_le_moreShapes vs

/-- A call of a quoted name on literals. -/
theorem operand_call (f : String) (vs : List Value) (hvs : vs.length ≤ maxArguments) (fuel : Nat)
    {rest : List Shape} :
    Reads (operand (fuel + vs.length + 6))
      (nameShape f :: (.mark, ['(']) :: (listShapes vs ++ (.mark, [')']) :: rest)) rest
      (· = .call f false (vs.map literalExpr)) := by
  have hname (start : Nat) : (⟨(nameShape f).1, (nameShape f).2, start⟩ : Token).content = f := by
    have htext := unquote_doubled (.inr rfl : '"' = '\'' ∨ '"' = '"') f.toList
    simp only [Token.content, nameShape, true_or, if_true, htext, String.ofList_toList]
  rw [operand]
  refine peekTwo_cons.bind ?_
  rintro _ ⟨start, next?, rfl, hnext⟩
  obtain ⟨t, rfl, ht⟩ := Option.map_eq_some_iff.mp hnext
  have hparen : t.isMark "(" = true := by
    rw [shape_eq ht]
    rfl
  -- no quoted name is a keyword
  refine ite_neg Bool.false_ne_true <| ite_neg Bool.false_ne_true <| ite_neg Bool.false_ne_true <|
    ite_neg Bool.false_ne_true <| ite_neg Bool.false_ne_true <| ite_pos hparen ?_
  rw [hname]
  refine taken.bind fun _ _ => taken.bind fun _ _ => ?_
  have hstar : NotMark "*" (listShapes vs ++ (.mark, [')']) :: rest) := by
    rcases arguments_open vs rest with rfl | hopens
    · rintro _ ⟨⟩
      decide
    · exact hopens.notMark (by decide)
  have hword {k : String} (hk : "NULL" ≠ k) (hk' : "CAST" ≠ k) :
      NotKeyword k (listShapes vs ++ (.mark, [')']) :: rest) := by
    rcases arguments_open vs rest with rfl | hopens
    · rintro _ ⟨⟩ ⟨⟨⟩, -⟩
    · exact hopens.notKeyword hk hk'
  refine (mark?_false hstar).bind ?_
  rintro _ rfl
  refine ite_neg Bool.false_ne_true ?_
  refine (keyword?_false (hword (by decide) (by decide))).bind ?_
  rintro _ rfl
  refine ite_pos rfl ?_
  refine (keyword?_false (hword (by decide) (by decide))).bind fun _ _ => ?_
  cases vs with
  | nil =>
    refine (mark?_true rfl).bind ?_
    rintro _ rfl
    exact ite_pos rfl (.pure rfl)
  | cons v vs =>
    have hopens : Opens (listShapes (v :: vs) ++ (.mark, [')']) :: rest) :=
      (arguments_open (v :: vs) rest).resolve_left (List.cons_ne_nil v vs)
    refine (mark?_false (hopens.notMark (by decide))).bind ?_
    rintro _ rfl
    refine ite_neg Bool.false_ne_true ?_
    rw [show fuel + (v :: vs).length + 5 = fuel + 1 + 5 + vs.length by
      simp only [List.length_cons]; omega]
    refine (exprList_literals vs v (fuel + 1)).bind ?_
    rintro _ rfl
    refine (mark rfl).bind fun _ _ => ?_
    exact ite_neg (by rw [List.length_map]; omega) (.pure rfl)

theorem length_le_listShapes (vs : List Value) : vs.length ≤ (listShapes vs).length + 1 := by
  cases vs with
  | nil => exact Nat.zero_le _
  | cons v vs =>
    rw [listShapes_cons, List.length_append, List.length_cons]
    have := length_le_moreShapes vs
    omega

theorem opens_call (f : String) (vs : List Value) :
    Opens (nameShape f :: (.mark, ['(']) :: (listShapes vs ++ [(.mark, [')'])])) := by
  refine ⟨_, _, rfl, ?_, .inl (by simp [nameShape])⟩
  rintro _ ⟨⟩
  decide

theorem commaList_call (f : String) {vs : List Value} (hvs : vs.length ≤ maxArguments) :
    Reads (Reader.commaList resultColumn)
      (nameShape f :: (.mark, ['(']) :: (listShapes vs ++ [(.mark, [')'])])) []
      fun columns => ∃ label, columns = [.expr (.call f false (vs.map literalExpr)) none label] := by
  have hexpr : Reads (expr Level.or (6 * (nameShape f :: (.mark, ['(']) :: (listShapes vs ++
      [(.mark, [')'])])).length + 20)) (nameShape f :: (.mark, ['(']) :: (listShapes vs ++
      [(.mark, [')'])])) [] (· = .call f false (vs.map literalExpr)) := by
    have hlength := length_le_listShapes vs
    obtain ⟨fuel, hfuel⟩ : ∃ fuel, 6 * (nameShape f :: (.mark, ['(']) :: (listShapes vs ++
        [((.mark, [')']) : Shape)])).length + 20 = fuel + vs.length + 5 + 2 := by
      refine ⟨6 * ((listShapes vs).length + 3) + 13 - vs.length, ?_⟩
      simp only [List.length_cons, List.length_append, List.length_nil]
      omega
    rw [hfuel]
    exact expr_of_operand (operand_call f vs hvs fuel) fun _ h => by cases h
  unfold Reader.commaList
  refine (resultColumn_expr (opens_call f vs) (fun _ h => by cases h) hexpr).bind ?_
  rintro _ ⟨label, rfl⟩
  refine Reads.input.bind fun s hs => ?_
  rw [List.map_eq_nil_iff.mp hs]
  exact .pure ⟨label, rfl⟩

end Reads

/-- The query of certain columns and nothing else. -/
def columnsQuery (columns : List ResultColumn) : Query :=
  .mk [] (.select false columns [] none [] none) [] none [] none none

namespace Reads

/-- What does not go on with a list of columns. -/
theorem keyword?_end (k : String) : Reads (Reader.keyword? k) [] [] (· = false) :=
  keyword?_false fun _ h => by cases h

theorem clause?_end (k : String) : Reads (clause? k) [] [] (· = none) := by
  unfold clause?
  refine (keyword?_end k).bind ?_
  rintro _ rfl
  exact .pure rfl

variable {before : List Shape} {P : List ResultColumn → Prop}

theorem core_columns {fuel : Nat} (hopens : Opens before)
    (h : Reads (Reader.commaList resultColumn) before [] P) :
    Reads (core (fuel + 1)) (selectWord :: before) [] fun r =>
      ∃ columns, r = (.select false columns [] none [] none, true) ∧ P columns := by
  have hselect : Text.raiseCase (String.ofList "SELECT".toList) = "SELECT" := by decide
  rw [core]
  refine (keyword?_false ?_).bind ?_
  · rintro _ ⟨⟩ ⟨-, htext⟩
    revert htext
    decide
  rintro _ rfl
  rw [if_neg Bool.false_ne_true]
  refine (keyword hselect).bind fun _ _ => ?_
  refine (keyword?_false (hopens.notKeyword (by decide) (by decide))).bind ?_
  rintro _ rfl
  rw [Bool.not_false, if_pos rfl]
  refine (keyword?_false (hopens.notKeyword (by decide) (by decide))).bind ?_
  rintro _ rfl
  refine h.bind fun columns hcolumns => ?_
  refine (keyword?_end _).bind ?_
  rintro _ rfl
  rw [if_neg Bool.false_ne_true]
  refine pure_bind ((clause?_end _).bind ?_)
  rintro _ rfl
  refine (keyword?_end _).bind ?_
  rintro _ rfl
  rw [if_neg Bool.false_ne_true]
  refine pure_bind ((clause?_end _).bind ?_)
  rintro _ rfl
  exact .pure ⟨columns, rfl, hcolumns⟩

theorem compoundOp?_end : Reads compoundOp? [] [] (· = none) := by
  unfold compoundOp?
  refine (keyword?_end _).bind ?_
  rintro _ rfl
  rw [if_neg Bool.false_ne_true]
  refine (keyword?_end _).bind ?_
  rintro _ rfl
  rw [if_neg Bool.false_ne_true]
  refine (keyword?_end _).bind ?_
  rintro _ rfl
  exact .pure rfl

theorem parts_end {fuel : Nat} :
    Reads (parts (fuel + 1) true) [] [] (· = ([], none, [], none, none)) := by
  have horder : Reads (Reader.atKeyword "ORDER") [] [] (· = false) := by
    unfold Reader.atKeyword
    refine peek?_nil.bind ?_
    rintro _ rfl
    exact .pure rfl
  rw [parts]
  refine horder.bind ?_
  rintro _ rfl
  rw [Bool.and_false, if_neg Bool.false_ne_true]
  refine pure_bind ((keyword?_end _).bind ?_)
  rintro _ rfl
  rw [Bool.and_false, if_neg Bool.false_ne_true]
  refine pure_bind (compoundOp?_end.bind ?_)
  rintro _ rfl
  exact .pure rfl

theorem query_columns {fuel : Nat} (hopens : Opens before)
    (h : Reads (Reader.commaList resultColumn) before [] P) :
    Reads (query (fuel + 2)) (selectWord :: before) [] fun q =>
      ∃ columns, q = columnsQuery columns ∧ P columns := by
  rw [query]
  refine (keyword?_false ?_).bind ?_
  · rintro _ ⟨⟩ ⟨-, htext⟩
    revert htext
    decide
  rintro _ rfl
  rw [if_neg Bool.false_ne_true]
  refine pure_bind ((core_columns hopens h).bind ?_)
  rintro _ ⟨columns, rfl, hcolumns⟩
  refine parts_end.bind ?_
  rintro _ rfl
  exact .pure ⟨columns, rfl, hcolumns⟩

/-- A query of columns is a whole text. -/
theorem commandAndEnd_columns (hopens : Opens before)
    (h : Reads (Reader.commaList resultColumn) before [] P) :
    Reads commandAndEnd (selectWord :: before) [] fun r =>
      ∃ columns, r.command? = some (.query (columnsQuery columns)) ∧ P columns := by
  have hcommand : Reads command (selectWord :: before) [] fun c =>
      ∃ columns, c = .query (columnsQuery columns) ∧ P columns := by
    have hselect : Text.raiseCase (String.ofList "SELECT".toList) = "SELECT" := by decide
    unfold command
    refine peek?_cons.bind ?_
    rintro _ ⟨start, rfl⟩
    refine ite_pos ?_ ?_
    · simp only [selectWord, Option.any_some, isKeyword_word, hselect]
      rfl
    have hquery : Reads fullQuery (selectWord :: before) [] fun q =>
        ∃ columns, q = columnsQuery columns ∧ P columns := by
      unfold fullQuery
      refine Reads.fuel.bind ?_
      rintro _ rfl
      exact query_columns hopens h
    refine hquery.bind ?_
    rintro _ ⟨columns, rfl, hcolumns⟩
    exact .pure ⟨columns, rfl, hcolumns⟩
  unfold commandAndEnd
  refine hcommand.bind ?_
  rintro _ ⟨columns, rfl, hcolumns⟩
  refine (mark?_false fun _ h => by cases h).bind ?_
  rintro _ rfl
  rw [if_neg Bool.false_ne_true]
  refine peek?_nil.bind ?_
  rintro _ rfl
  rw [if_neg (by decide)]
  refine Reads.input.bind fun s _ => .pure ⟨columns, rfl, hcolumns⟩

end Reads

section Texts

variable {text : List Char} {before : List Shape} {P : List ResultColumn → Prop}

/-- A text with the tokens of a query of columns. -/
theorem nextCommand_columns (hcuts : CutsInto text (selectWord :: before)) (hopens : Opens before)
    (h : Reads (Reader.commaList resultColumn) before [] P) :
    ∃ columns stop atEnd,
      nextCommand text = .ok ⟨some (.query (columnsQuery columns)), stop, atEnd⟩ ∧ P columns := by
  have hpieces : ∀ t ∈ (Input.ofText text).tokens, t.IsPieceOf 0 text := fun t ht =>
    tokenize_pieces (List.mem_of_mem_filter ht)
  have hshapes : (Input.ofText text).tokens.map Token.shape = selectWord :: before := hcuts 0
  obtain ⟨r, s', ⟨hrest, hrun⟩, -, columns, hcommand, hcolumns⟩ :=
    Reads.commandAndEnd_columns hopens h text _ hpieces hshapes
  refine ⟨columns, r.stop, r.atEnd, ?_, hcolumns⟩
  obtain ⟨t, ts, htokens, ht, -⟩ := List.map_eq_cons_iff.mp hshapes
  have hmark : t.isMark ";" = false := by
    rw [shape_eq ht]
    rfl
  have hdrop : (Input.ofText text).tokens.dropWhile (·.isMark ";") = (Input.ofText text).tokens := by
    rw [htokens, List.dropWhile_cons_of_neg (by simp [hmark])]
  unfold nextCommand
  dsimp only
  rw [hdrop, htokens, if_neg (by simp), ← htokens, hrun]
  obtain ⟨command?, stop, atEnd⟩ := r
  cases hcommand
  rfl

/-- The first command of a text that is a query of literals. -/
theorem nextCommand_select (v : Value) (vs : List Value) :
    ∃ columns stop atEnd, nextCommand (selectText (v :: vs)).toList =
      .ok ⟨some (.query (columnsQuery columns)), stop, atEnd⟩ ∧ LiteralColumns (v :: vs) columns := by
  refine nextCommand_columns (selectText_cuts v vs).1 ?_ (Reads.commaList_literals v vs)
  rw [listShapes_cons]
  exact opens_literal v (moreShapes_continues vs).closes

/-- The first command of a text that is a call. -/
theorem nextCommand_call (f : String) {vs : List Value} (hvs : vs.length ≤ maxArguments) :
    ∃ label stop atEnd, nextCommand (CallText.call f vs).toList =
      .ok ⟨some (.query (columnsQuery [.expr (.call f false (vs.map literalExpr)) none label])), stop,
        atEnd⟩ := by
  obtain ⟨columns, stop, atEnd, hnext, label, rfl⟩ :=
    nextCommand_columns (call_cuts f vs).1 (Reads.opens_call f vs) (Reads.commaList_call f hvs)
  exact ⟨label, stop, atEnd, hnext⟩

end Texts

end HostSql.Sql
