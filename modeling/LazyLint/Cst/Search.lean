import LazyLint.Cst.Goal

/-!
# Searching deep trees

A source may be nested to any depth, so the searches that decide whether it parses keep a stack of
their own: the next node is taken off the top, and its children are put there in its stead, the
first of them on top. They find what the recursive `Node.firstError` and `violation` find.
-/

namespace LazyLint.Cst

/-! ## The first error -/

/-- The first error among the nodes on a stack and what is below them; a node that has no error is
taken off with all that is below it. -/
def searchError : List Node → Option Node
  | [] => none
  | n :: stack =>
    if n.isError then some n
    else if n.hasError then searchError (n.children ++ stack)
    else searchError stack
termination_by stack => Node.weights stack
decreasing_by
  all_goals simp only [Node.weights, Node.weights_append, Node.weight_eq]; omega

/-! ## The first forbidden node -/

/-- A node and those above it, the nearest first. -/
structure Place where
  node : Node
  above : List Node := []

namespace Place

/-- Whether a function or a method is above. -/
def inside (p : Place) : Bool :=
  p.above.any fun n => bodyKinds.contains n.kind

def below (p : Place) : List Place :=
  p.node.namedChildren.map fun n => { node := n, above := p.node :: p.above }

theorem map_node_below (p : Place) : p.below.map (·.node) = p.node.namedChildren := by
  simp [below, Function.comp_def]

end Place

/-- The first node that the goal forbids among the places on a stack and what is below them. -/
def searchForbidden (goal : Goal) : List Place → Option Node
  | [] => none
  | p :: stack =>
    if goal.forbids p.inside p.node.kind then some p.node
    else searchForbidden goal (p.below ++ stack)
termination_by stack => Node.weights (stack.map (·.node))
decreasing_by
  have := Node.weights_filter_le (·.named) p.node.children
  simp only [List.map_append, List.map_cons, Place.map_node_below, Node.namedChildren,
    Node.weights, Node.weights_append, Node.weight_eq]
  omega

end LazyLint.Cst
