import HostSql.Sql.Characters

/-!
# Tokens

`tokenAt` says of what kind the token at the head of a text is and how long it is; `tokenize` cuts a
whole text. Every token is at least one character long, and the tokens of a text, blanks and
comments included, are the text: `Token.text` is a slice and the next token starts where it stops.
A text that holds no token of any grammar still has a token of the kind `illegal`, so cutting never
fails; the grammar refuses it when it gets there.
-/

namespace HostSql.Sql

/-- The kind of a token. -/
inductive TokenKind where
  /-- Blanks or a comment. -/
  | blank
  /-- An unquoted word: a keyword or a name. -/
  | word
  /-- A name in double quotes, grave accents or brackets. -/
  | quoted
  /-- Text in single quotes. -/
  | string
  /-- Bytes in hexadecimal. -/
  | blob
  /-- Decimal or hexadecimal digits without point and exponent. -/
  | integer
  /-- A numeral with a point or an exponent. -/
  | float
  /-- A parameter. -/
  | variable
  /-- An operator or a mark. -/
  | mark
  | illegal
  deriving Repr, DecidableEq

/-- A slice of a text. -/
structure Token where
  kind : TokenKind
  text : List Char
  start : Nat
  deriving Repr, DecidableEq

/-- Where the token after this one starts. -/
def Token.stop (t : Token) : Nat := t.start + t.text.length

/-- The length of a quoted piece from after its opening quote through its closing one, where a
doubled quote stands for itself. -/
def doubledQuoteLength? (quote : Char) : List Char → Option Nat
  | [] => none
  | c :: rest =>
    if c = quote then
      match rest with
      | d :: rest => if d = quote then (doubledQuoteLength? quote rest).map (· + 2) else some 1
      | [] => some 1
    else (doubledQuoteLength? quote rest).map (· + 1)

/-- How many characters precede the end of a block comment, that end included; a comment without
end takes all. -/
def commentLength : List Char → Nat
  | '*' :: '/' :: _ => 2
  | _ :: rest => commentLength rest + 1
  | [] => 0

/-- The length of an exponent with its letter; zero if there is none. -/
def exponentLength : List Char → Nat
  | e :: sign :: rest =>
    if e = 'e' ∨ e = 'E' then
      if sign.isDigit then 1 + ((sign :: rest).takeWhile Char.isDigit).length
      else if (sign = '+' ∨ sign = '-') ∧ (rest.head?.any Char.isDigit) then
        2 + (rest.takeWhile Char.isDigit).length
      else 0
    else 0
  | _ => 0

/-- The kind and length of a numeral. A numeral that runs into a word is no token. -/
def numeralAt (cs : List Char) : TokenKind × Nat :=
  let hex := (cs.drop 2).takeWhile isHexDigit
  if (cs.take 2 = ['0', 'x'] ∨ cs.take 2 = ['0', 'X']) ∧ !hex.isEmpty then
    (.integer, 2 + hex.length)
  else
    let whole := (cs.takeWhile Char.isDigit).length
    let afterWhole := cs.drop whole
    let point := if afterWhole.head? = some '.' then
      1 + ((afterWhole.drop 1).takeWhile Char.isDigit).length else 0
    let exponent := exponentLength (afterWhole.drop point)
    let length := whole + point + exponent
    let junk := ((cs.drop length).takeWhile isIdChar).length
    if 0 < junk then (.illegal, length + junk)
    else (if point = 0 ∧ exponent = 0 then .integer else .float, length)

/-- The kind and length of hexadecimal bytes, from their opening quote on. -/
def blobAt (afterQuote : List Char) : TokenKind × Nat :=
  let digits := (afterQuote.takeWhile isHexDigit).length
  if (afterQuote.drop digits).head? = some '\'' ∧ digits % 2 = 0 then (.blob, digits + 1)
  else
    let skipped := (afterQuote.takeWhile (· != '\'')).length
    (.illegal, if skipped < afterQuote.length then skipped + 1 else skipped)

/-- The kind and length of a named parameter after its mark. Pairs of colons may stand in the
name, and a piece in parentheses may end it; `named` says whether the name has begun. -/
def variableAt (named : Bool) : List Char → TokenKind × Nat
  | [] => (if named then .variable else .illegal, 0)
  | c :: rest =>
    let after (n : Nat) (r : TokenKind × Nat) : TokenKind × Nat := (r.1, r.2 + n)
    if isIdChar c then after 1 (variableAt true rest)
    else if c = '(' ∧ named then
      let piece := rest.takeWhile fun d => !isSpace d && d != ')'
      if (rest.drop piece.length).head? = some ')' then (.variable, piece.length + 2)
      else (.illegal, piece.length + 1)
    else
      match c, rest with
      | ':', ':' :: rest => after 2 (variableAt named rest)
      | _, _ => (if named then .variable else .illegal, 0)

/-- The kind of a quoted piece and its length after the opening quote. -/
def quotedAt (kind : TokenKind) (quote : Char) (rest : List Char) : TokenKind × Nat :=
  match doubledQuoteLength? quote rest with
  | some n => (kind, n)
  | none => (.illegal, rest.length)

/-- Marks of two characters. -/
def doubleMarks : List (Char × Char) :=
  [('=', '='), ('<', '='), ('<', '>'), ('<', '<'), ('>', '='), ('>', '>'), ('!', '='), ('|', '|')]

/-- Marks of one character. -/
def singleMarks : List Char :=
  ['(', ')', ';', '+', '*', '/', '%', '=', '<', '>', '|', ',', '&', '~', '-', '.']

/-- The kind of the token that begins with `c`, and how many of the following characters belong to
it. -/
def tokenAt (c : Char) (rest : List Char) : TokenKind × Nat :=
  let next := rest.head?
  if isBlankStart c then (.blank, (rest.takeWhile isSpace).length)
  else if c = '-' ∧ next = some '-' then (.blank, (rest.takeWhile (· != '\n')).length)
  else if c = '/' ∧ next = some '*' ∧ 2 ≤ rest.length then
    (.blank, 1 + commentLength (rest.drop 1))
  else if c.isDigit ∨ (c = '.' ∧ next.any Char.isDigit) then
    let (kind, length) := numeralAt (c :: rest)
    (kind, length - 1)
  else if c = '\'' then quotedAt .string c rest
  else if c = '"' ∨ c = '\x60' then quotedAt .quoted c rest
  else if c = '[' then
    match rest.findIdx? (· == ']') with
    | some n => (.quoted, n + 1)
    | none => (.illegal, rest.length)
  else if (c = 'x' ∨ c = 'X') ∧ next = some '\'' then
    let (kind, length) := blobAt (rest.drop 1)
    (kind, length + 1)
  else if c = '?' then (.variable, (rest.takeWhile Char.isDigit).length)
  else if c = '$' ∨ c = '@' ∨ c = '#' ∨ c = ':' then variableAt false rest
  else if next.any fun d => doubleMarks.contains (c, d) then (.mark, 1)
  else if singleMarks.contains c then (.mark, 0)
  else if c = '\uFEFF' then (.blank, 0)
  else if isIdChar c then (.word, (rest.takeWhile isIdChar).length)
  else (.illegal, 0)

/-- Cuts a text that starts at offset `start` into tokens. -/
def tokenizeFrom (start : Nat) : List Char → List Token
  | [] => []
  | c :: rest =>
    let (kind, more) := tokenAt c rest
    ⟨kind, c :: rest.take more, start⟩ ::
      tokenizeFrom (start + 1 + (rest.take more).length) (rest.drop more)
termination_by cs => cs.length
decreasing_by simp only [List.length_drop, List.length_cons]; omega

/-- Cuts a text into tokens. -/
def tokenize (cs : List Char) : List Token := tokenizeFrom 0 cs

/-- Undoes the doubling of a quote. -/
def undouble (quote : Char) : List Char → List Char
  | [] => []
  | c :: rest =>
    if c = quote then
      match rest with
      | d :: rest =>
        if d = quote then quote :: undouble quote rest else c :: undouble quote (d :: rest)
      | [] => [c]
    else c :: undouble quote rest
termination_by cs => cs.length

/-- What stands between the quotes of a quoted piece; other text is unchanged. -/
def unquote : List Char → List Char
  | c :: rest =>
    if c = '\'' ∨ c = '"' ∨ c = '\x60' then undouble c rest.dropLast
    else if c = '[' then rest.dropLast
    else c :: rest
  | [] => []

end HostSql.Sql
