import HostSql.Sql.Keyword

/-!
# Reading tokens

A `Reader` consumes tokens from the front of a statement and fails at the first one that does not
fit. The failure is that token, or the end of the text. What a reader leaves is by its type the rest
of what it was given, so nothing about the grammar has to be known to say that reading goes forward
through the text.
-/

namespace HostSql.Sql

/-- How many arguments a function may have. -/
def maxArguments : Nat := 127

/-- Why a text is not a statement. -/
inductive SyntaxError where
  /-- A token that does not fit. -/
  | unexpected (t : Token)
  /-- The text ends too early. -/
  | incomplete
  /-- Nested too deeply. -/
  | tooDeep
  /-- A function, as it is written, with more arguments than any may have. -/
  | tooManyArguments (name : List Char)
  deriving Repr, DecidableEq

/-- The wording of a syntax error. -/
def SyntaxError.message : SyntaxError → String
  | .unexpected t =>
    let text := String.ofList t.text
    if t.kind = .illegal then "unrecognized token: \"" ++ text ++ "\""
    else "near \"" ++ text ++ "\": syntax error"
  | .incomplete => "incomplete input"
  | .tooDeep => "parser stack overflow"
  | .tooManyArguments name => "too many arguments on function " ++ String.ofList name

/-- What is still to be read: the tokens without blanks, the offset where the last token read
stopped, and the length of the text. -/
structure Input where
  tokens : List Token
  stop : Nat
  length : Nat
  deriving Repr

/-- The input is what is left of an earlier one: its last tokens, in the same text. -/
structure Input.IsRestOf (s earlier : Input) : Prop where
  tokens : s.tokens <:+ earlier.tokens
  length : s.length = earlier.length

theorem Input.IsRestOf.refl (s : Input) : s.IsRestOf s := ⟨List.suffix_refl _, rfl⟩

theorem Input.IsRestOf.trans {s s' s'' : Input} (h : s.IsRestOf s') (h' : s'.IsRestOf s'') :
    s.IsRestOf s'' :=
  ⟨h.tokens.trans h'.tokens, h.length.trans h'.length⟩

/-- A reader over a text: what it reads, with the rest of its input. -/
def Reader (α : Type) : Type :=
  List Char → (s : Input) → Except SyntaxError (α × { s' : Input // s'.IsRestOf s })

namespace Reader

instance : Monad Reader where
  pure a := fun _ s => .ok (a, ⟨s, .refl s⟩)
  bind x f := fun text s =>
    match x text s with
    | .error e => .error e
    | .ok (a, s') =>
      match f a text s'.val with
      | .error e => .error e
      | .ok (b, s'') => .ok (b, ⟨s''.val, s''.property.trans s'.property⟩)

instance : MonadExceptOf SyntaxError Reader where
  throw e := fun _ _ => .error e
  tryCatch x handle := fun text s =>
    match x text s with
    | .error e => handle e text s
    | .ok r => .ok r

/-- The text that is read. -/
def text : Reader (List Char) := fun cs s => .ok (cs, ⟨s, .refl s⟩)

/-- What is still to be read. -/
def input : Reader Input := fun _ s => .ok (s, ⟨s, .refl s⟩)

/-- The next token, if any. -/
def peek? : Reader (Option Token) := do return (← input).tokens.head?

/-- The next two tokens. -/
def peekTwo : Reader (Option Token × Option Token) := do
  let ts := (← input).tokens
  return (ts.head?, (ts.drop 1).head?)

/-- Fails at the next token. -/
def unexpected : Reader α := do
  match ← peek? with
  | some t => throw (.unexpected t)
  | none => throw .incomplete

/-- Reads the next token if it passes the test. -/
def token? (test : Token → Bool) : Reader (Option Token) := fun _ s =>
  match h : s.tokens with
  | t :: rest =>
    if test t then
      .ok (some t, ⟨⟨rest, t.stop, s.length⟩, ⟨h ▸ List.suffix_cons t rest, rfl⟩⟩)
    else .ok (none, ⟨s, .refl s⟩)
  | [] => .ok (none, ⟨s, .refl s⟩)

/-- Reads a token that must pass the test. -/
def token (test : Token → Bool) : Reader Token := do
  match ← token? test with
  | some t => return t
  | none => unexpected

/-- Reads a keyword if it is next. -/
def keyword? (k : String) : Reader Bool := do return (← token? (·.isKeyword k)).isSome

def keyword (k : String) : Reader Unit := do let _ ← token (·.isKeyword k)

/-- Reads a mark if it is next. -/
def mark? (m : String) : Reader Bool := do return (← token? (·.isMark m)).isSome

def mark (m : String) : Reader Unit := do let _ ← token (·.isMark m)

/-- Whether a keyword is next. -/
def atKeyword (k : String) : Reader Bool := do return (← peek?).any (·.isKeyword k)

/-- Whether a mark is next. -/
def atMark (m : String) : Reader Bool := do return (← peek?).any (·.isMark m)

/-- Reads a name. A string or a word that joins tables also serves. -/
def name : Reader String := do return (← token fun t => t.isName || t.kind = .string).content

/-- The offset of the next token, or of the end of the text. -/
def offset : Reader Nat := do
  let s ← input
  return (s.tokens.head?.map (·.start)).getD s.length

/-- The text between two offsets. -/
def slice (start stop : Nat) : Reader String := do
  return String.ofList (((← text).drop start).take (stop - start))

/-- The text between two offsets without blanks around it. -/
def trimmedSlice (start stop : Nat) : Reader String := do
  return String.ofList (Text.trim isSpace (((← text).drop start).take (stop - start)))

/-- Reads one or more items with commas between them; each item uses up a token, so the number of
tokens bounds the number of items. -/
def commaList (item : Reader α) : Reader (List α) := do
  let rec more : Nat → List α → Reader (List α)
    | 0, done => return done.reverse
    | fuel + 1, done => do
      if ← mark? "," then more fuel ((← item) :: done) else return done.reverse
  let first ← item
  more (← input).tokens.length [first]

/-- Reads an item in parentheses. -/
def parenthesized (item : Reader α) : Reader α := do
  mark "("
  let a ← item
  mark ")"
  return a

end Reader

end HostSql.Sql
