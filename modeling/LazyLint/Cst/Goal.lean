import LazyLint.Ast.Node
import LazyLint.Cst.Node

/-!
# Parse goals

The grammar is one for modules and scripts. A goal adds what it does not allow: the module goal no
`return` outside of a function, the script goal no `import` and no `export`.
-/

namespace LazyLint.Cst

/-- What a source is read as. -/
inductive Goal where
  | module
  | script
  deriving Repr, DecidableEq

def Goal.name : Goal → String
  | .module => "module"
  | .script => "script"

/-- A `return` below a node of these kinds is inside a function. -/
def bodyKinds : List String :=
  Ast.functionKinds ++ ["method_definition"]

/-- Whether a goal forbids a node of this kind, given whether it stands inside a function. -/
def Goal.forbids (goal : Goal) (inside : Bool) (kind : String) : Bool :=
  match goal with
  | .module => kind = "return_statement" && ! inside
  | .script => kind = "import_statement" || kind = "export_statement"

mutual

/-- The first node in pre-order that the goal forbids. -/
def violation (goal : Goal) (inside : Bool) : Node → Option Node
  | .mk h cs =>
    if goal.forbids inside h.kind then some (.mk h cs)
    else violationIn goal (inside || bodyKinds.contains h.kind) cs

/-- The first forbidden node among named siblings and what is below them. -/
def violationIn (goal : Goal) (inside : Bool) : List Node → Option Node
  | [] => none
  | n :: ns =>
    if n.named then
      match violation goal inside n with
      | some v => some v
      | none => violationIn goal inside ns
    else violationIn goal inside ns

end

end LazyLint.Cst
