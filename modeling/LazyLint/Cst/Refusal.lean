import LazyLint.Cst.Search

/-!
# Refusals

A goal refuses a tree for its first error or, where there is none, for the first node that the goal
forbids.
-/

namespace LazyLint.Cst

/-- Why a goal refuses a tree; rows count from zero. -/
inductive Refusal where
  /-- The source does not read. -/
  | unexpectedToken (row : Nat)
  /-- A `return` outside of functions. -/
  | returnOutside (row : Nat)
  /-- An `import` or `export` in a script. -/
  | moduleOnly (row : Nat)
  deriving Repr, DecidableEq

/-- The wording of a refusal; lines count from one. -/
def Refusal.message : Refusal → String
  | .unexpectedToken row => "Unexpected token (line " ++ Nat.repr (row + 1) ++ ")"
  | .returnOutside row => "'return' outside of function (line " ++ Nat.repr (row + 1) ++ ")"
  | .moduleOnly row =>
    "'import' and 'export' may appear only with 'sourceType: module' (line " ++
      Nat.repr (row + 1) ++ ")"

def Goal.refusal? (goal : Goal) (root : Node) : Option Refusal :=
  if root.hasError then
    some (.unexpectedToken (((searchError [root]).map (·.row)).getD 0))
  else
    (searchForbidden goal [{ node := root }]).map fun n =>
      match goal with
      | .module => .returnOutside n.row
      | .script => .moduleOnly n.row

end LazyLint.Cst
