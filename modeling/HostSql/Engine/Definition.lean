import HostSql.Engine.Catalog

/-!
# Editing definitions

A table is changed by editing the text that defines it. The edits are cut at the offsets that the
definition keeps: a new column goes before the mark after the last one, a column goes with the comma
on one of its sides, and a new name takes the place of the old one wherever the definition uses it.
-/

namespace HostSql.Engine

open Sql

/-- What every stored definition begins with. -/
def createWords : String := "CREATE TABLE "

/-- A definition with a column added. -/
def textWithColumn (t : Table) (column : String) : String :=
  let cs := t.text.toList
  String.ofList (cs.take t.columnsStop ++ ", ".toList ++ column.toList ++ cs.drop t.columnsStop)

/-- A definition without its `i`-th column. -/
def textWithoutColumn (t : Table) (i : Nat) : String :=
  let cs := t.text.toList
  let start (c : Column) : Nat := c.definition.start
  match t.columns[i]?, t.columns[i + 1]? with
  | some c, some next => String.ofList (cs.take (start c) ++ cs.drop (start next))
  | some c, none =>
    let before := (cs.take (start c)).reverse.dropWhile (· != ',')
    String.ofList ((before.drop 1).reverse ++ cs.drop t.columnsStop)
  | none, _ => t.text

/-- The text with every token of a list replaced. -/
def replaceTokens (replacement : List Char) (cs : List Char) (ts : List Token) : List Char :=
  (ts.foldr (fun t (rest, stop) =>
    (replacement ++ (cs.drop t.stop).take (stop - t.stop) ++ rest, t.start))
    (([] : List Char), cs.length)) |> fun (rest, stop) => cs.take stop ++ rest

/-- The tokens of a text with the depth of parentheses at which they stand. -/
def tokenDepths (cs : List Char) : List (Token × Nat) :=
  ((tokenize cs).foldl (fun (found, depth) t =>
    let after := if t.isMark "(" then depth + 1 else if t.isMark ")" then depth - 1 else depth
    ((t, depth) :: found, after)) (([] : List (Token × Nat)), 0)).1.reverse

/-- A definition in which the `i`-th column has a new name: the name itself and those that stand in
the parentheses of rules change. -/
def textWithName (t : Table) (i : Nat) (newText : String) : String :=
  let cs := t.text.toList
  match t.columns[i]? with
  | none => t.text
  | some c =>
    let uses := (tokenDepths cs).filter fun (tok, depth) =>
      tok.start = c.definition.start
        || (2 ≤ depth && tok.isName && Text.sameName tok.content c.name)
    String.ofList (replaceTokens newText.toList cs (uses.map (·.1)))

/-- A name in double quotes. -/
def quoteName (s : String) : String :=
  String.ofList ('"' :: s.toList.flatMap (fun c => if c = '"' then ['"', '"'] else [c]) ++ ['"'])

/-- A definition under a new name. -/
def textWithTableName (t : Table) (newName : String) : String :=
  let cs := t.text.toList
  match tokenize cs with
  | first :: _ => String.ofList ((quoteName newName).toList ++ cs.drop first.stop)
  | [] => t.text

end HostSql.Engine
