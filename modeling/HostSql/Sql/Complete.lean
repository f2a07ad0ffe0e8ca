import HostSql.Sql.Characters

/-!
# Complete statements

A text is complete when it ends in a semicolon that ends a statement, comments and blanks after it
aside. Semicolons inside literals, quoted names, comments and trigger bodies do not count; a
trigger ends in `END` between semicolons. The text is read as a row of lexemes of eight classes
that drive an eight-state automaton.
-/

namespace HostSql.Sql.Complete

/-- The class of a lexeme. -/
inductive Class where
  | semicolon
  | blank
  | other
  | explain
  | create
  | temp
  | trigger
  | finish
  deriving Repr, DecidableEq

/-- How far the current statement has been read. -/
inductive State where
  /-- Nothing read at all. -/
  | invalid
  /-- A statement has just ended. -/
  | start
  /-- Inside a statement that ends at the next semicolon. -/
  | normal
  /-- After `EXPLAIN` at the start. -/
  | explain
  /-- After `CREATE` at the start. -/
  | create
  /-- Inside a trigger. -/
  | trigger
  /-- Inside a trigger, after a semicolon. -/
  | semicolon
  /-- Inside a trigger, after a semicolon and `END`. -/
  | finish
  deriving Repr, DecidableEq

/-- The state after one more lexeme. -/
def State.next : State → Class → State
  | .trigger, .semicolon => .semicolon
  | .semicolon, .semicolon => .semicolon
  | _, .semicolon => .start
  | s, .blank => s
  | .trigger, _ => .trigger
  | .semicolon, .finish => .finish
  | .semicolon, _ => .trigger
  | .finish, _ => .trigger
  | .normal, _ => .normal
  | .create, .temp => .create
  | .create, .trigger => .trigger
  | .create, _ => .normal
  | .explain, .other => .explain
  | .explain, .create => .create
  | .explain, _ => .normal
  | _, .explain => .explain
  | _, .create => .create
  | _, _ => .normal

/-- The class of a word. -/
def wordClass (word : List Char) : Class :=
  let w := String.ofList (word.map Char.toLower)
  if w == "create" then .create
  else if w == "trigger" then .trigger
  else if w == "temp" || w == "temporary" then .temp
  else if w == "end" then .finish
  else if w == "explain" then .explain
  else .other

/-- What a lexeme at the head of a text is: its class and how many characters follow its first, or a
comment that runs to the end, or something that is never closed. -/
inductive Lexeme where
  | found (cls : Class) (more : Nat)
  | lineCommentToEnd
  | unclosed
  deriving Repr, DecidableEq

/-- How many characters precede the end of a block comment, that end included. -/
def blockCommentLength? : List Char → Option Nat
  | '*' :: '/' :: _ => some 2
  | _ :: rest => (blockCommentLength? rest).map (· + 1)
  | [] => none

/-- The length of a quoted piece from after its opening quote through its closing one. -/
def quotedLength? (close : Char) (rest : List Char) : Option Nat :=
  (rest.findIdx? (· == close)).map (· + 1)

/-- The lexeme that begins with `c`. -/
def lexeme (c : Char) (rest : List Char) : Lexeme :=
  let quoted (close : Char) : Lexeme :=
    match quotedLength? close rest with
    | some n => .found .other n
    | none => .unclosed
  if c = ';' then .found .semicolon 0
  else if c = ' ' ∨ c = '\t' ∨ c = '\n' ∨ c = '\r' ∨ c = '\x0c' then .found .blank 0
  else if c = '/' ∧ rest.head? = some '*' then
    match blockCommentLength? (rest.drop 1) with
    | some n => .found .blank (n + 1)
    | none => .unclosed
  else if c = '-' ∧ rest.head? = some '-' then
    match rest.findIdx? (· == '\n') with
    | some n => .found .blank (n + 1)
    | none => .lineCommentToEnd
  else if c = '[' then quoted ']'
  else if c = '\x60' ∨ c = '"' ∨ c = '\'' then quoted c
  else if isIdChar c then
    let tail := rest.takeWhile isIdChar
    .found (wordClass (c :: tail)) tail.length
  else .found .other 0

/-- Runs the automaton to the end of the text. -/
def run (s : State) : List Char → Bool
  | [] => s == .start
  | c :: rest =>
    match lexeme c rest with
    | .unclosed => false
    | .lineCommentToEnd => s == .start
    | .found cls more => run (s.next cls) (rest.drop more)
termination_by cs => cs.length
decreasing_by simp only [List.length_drop, List.length_cons]; omega

/-- Whether `sql` ends with a complete statement. A text with a NUL character never does. -/
def isComplete (sql : String) : Bool :=
  let cs := sql.toList
  !cs.contains '\x00' && run .invalid cs

end HostSql.Sql.Complete
