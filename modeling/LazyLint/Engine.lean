import LazyLint.Cst.Node

/-!
# What the linter runs on

Sources are read by a parser of its own standing, and traversals recurse on a stack of limited depth. Both
are given from outside.
-/

namespace LazyLint

structure Engine where
  /-- The parser: the concrete tree of a source. -/
  read : List Char → Cst.Node
  /-- The number of levels of a tree that a traversal has room for. -/
  room : Nat

end LazyLint
