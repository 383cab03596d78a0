import LazyLint.Ast.Walk
import LazyLint.Dependency

/-!
# Import sites

An import site is a place where a module is loaded by a specifier known in the source. Sites are
sorted by when they load: at the top level when the module itself is loaded, lazily when a function
around them runs or when they are dynamic imports.
-/

namespace LazyLint.Import

/-- How a site loads a module. -/
inductive Form where
  | static
  | require
  | dynamic
  deriving Repr, DecidableEq

def Form.name : Form → String
  | .static => "static-import"
  | .require => "require-call"
  | .dynamic => "dynamic-import"

/-- A place where a module is loaded. -/
structure Site where
  specifier : Text
  depth : Int
  form : Form
  deriving DecidableEq

/-- The function whose calls load modules. -/
def requireName : Text := Text.ofString "require"

/-- The site that a node at some depth is, if it is one. An import declaration inside a function is
not valid and is ignored. -/
def site? (n : Ast.Node) (depth : Int) : Option Site :=
  match n with
  | .importDecl (.string specifier) _ =>
    if depth = 0 then some { specifier, depth, form := .static } else none
  | .call (.ident name) (.items (.string specifier :: _)) =>
    if name = requireName then some { specifier, depth, form := .require } else none
  | .call .importOp (.items (.string specifier :: _)) => some { specifier, depth, form := .dynamic }
  | _ => none

/-- Why it cannot be told whether a node is a site: a call must have its arguments in a list to have a
first one, or none at all. -/
def siteFault? : Ast.Node → Option Ast.Fault
  | .call _ (.items _) | .call _ (.atom _ false) => none
  | .call _ args => some (.notIndexed args)
  | _ => none

/-! ## Classification -/

/-- The heavy specifiers of a module by when they are loaded, each once and in the order in which
they are first met. -/
structure Classification where
  topLevel : List Text := []
  lazy : List Text := []
  deriving DecidableEq

/-- A list with one more member, unless it has it already. -/
def remember (ts : List Text) (t : Text) : List Text :=
  if ts.contains t then ts else ts ++ [t]

def Classification.record (c : Classification) (s : Site) : Classification :=
  if s.form = .dynamic || 0 < s.depth then { c with lazy := remember c.lazy s.specifier }
  else { c with topLevel := remember c.topLevel s.specifier }

/-- The visitor that records the heavy sites. -/
def visitor (deps : List Text) : Ast.Visitor Classification Ast.Fault :=
  fun n depth c =>
    match siteFault? n, site? n depth with
    | some f, _ => (c, some f)
    | none, some s => (if Dependency.isHeavy deps s.specifier then c.record s else c, none)
    | none, none => (c, none)

/-- The heavy imports of a tree, with room for so many levels. -/
def classify (room : Nat) (deps : List Text) (tree : Ast.Node) :
    Except (Ast.Halt Ast.Fault) Classification :=
  let w := Ast.walk (visitor deps) room tree {} {}
  match w.halt with
  | none => .ok w.state
  | some h => .error h

end LazyLint.Import
