import LazyLint.Script.Statement

/-!
# Sources

The rules of the grammar are closed here: a nested rule is read with one level less. Every level
takes a character of the source or is one of a few levels in a row that take none, so four levels
for each character and some more are enough for every source.

A source that cannot be read gives a tree too, with one `ERROR` node at the place of the fault.
-/

namespace LazyLint.Script

open Cst (Node Head)

/-- One rule, given how nested rules are read. -/
def rule (sub : Sub) : Rule → Parser Node
  | .statement => statement sub
  | .expression membership cover => expression sub membership cover
  | .operand => operand sub
  | .construct => construct sub
  | .element => element sub

/-- A rule, with at most so many levels of nesting. -/
def ruleWithin : Nat → Sub
  | 0 => fun _ => unexpected
  | levels + 1 => fun r => rule (ruleWithin levels) r

/-- The statements of a source, up to its end. -/
def statements (levels : Nat) : Parser (List Node) := do
  let c ← Parser.here
  let acc ← statementsLoop (ruleWithin levels) (c.left + 1) []
  let d ← nextStart
  match d.lead with
  | .done => pure acc.reverse
  | _ => unexpected

/-- Past the line that names an interpreter, which only the first line can be. -/
def Cursor.pastHashBang (c : Cursor) : Cursor :=
  match c.triviaLoop false c.left |>.rest with
  | '#' :: '!' :: _ =>
    let d := c.trivia
    d.skip (d.rest.takeWhile fun x => x ≠ '\n' && ! isNull x).length
  | _ => c

/-! ## Markup comments -/

mutual

/-- Put a comment below the innermost node that it stands inside of. -/
def placeIn (comment : Node) : Node → Node
  | .mk h cs => .mk h (placeAmong comment cs)

/-- Put a comment among siblings, or into the one around it. -/
def placeAmong (comment : Node) : List Node → List Node
  | [] => [comment]
  | n :: ns =>
    if comment.stop ≤ n.start then comment :: n :: ns
    else if n.start < comment.start && comment.stop < n.stop then placeIn comment n :: ns
    else n :: placeAmong comment ns

end

/-- The tree of the statements that end at a cursor, with the markup comments in their places. -/
def program (body : List Node) (c : Cursor) : Node :=
  let root := Node.mk { kind := "program", start := 0, stop := c.offset } body
  c.triviaBefore.comments.reverse.foldl (fun t comment => placeIn comment t) root

/-- The concrete tree of a source. A source that cannot be read is read once more with its broken
strings mended: if that is all that was wrong with it, the errors stand inside these strings. -/
def read (source : List Char) : Node :=
  let start := (Cursor.ofChars source).pastHashBang
  let levels := 4 * start.left + 32
  match statements levels start with
  | .ok body c => program body c
  | .fail e =>
    match statements levels { start with mending := true } with
    | .ok body c => program body c
    | .fail _ =>
      let bad := Node.mk { kind := "ERROR", start := e.offset, stop := e.offset, row := e.row } []
      .mk { kind := "program", start := 0, stop := e.offset } [bad]

end LazyLint.Script
