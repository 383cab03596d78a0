/-!
# Concrete syntax trees

A concrete tree records what the grammar saw: a kind, a byte span, a row, the field a node fills in
its parent, and the flags of a tree with errors. The reader of `LazyLint.Script` builds such trees;
the parse goals and the lowering work on any of them.
-/

namespace LazyLint.Cst

/-- What a concrete node says about itself, its children apart. -/
structure Head where
  /-- The grammar's name for the node. -/
  kind : String
  /-- The first byte of the node in the encoded source. -/
  start : Nat
  /-- The byte after its last one. -/
  stop : Nat
  /-- The row of its first byte, counted from zero. -/
  row : Nat := 0
  /-- Punctuation and keywords are not named. -/
  named : Bool := true
  /-- A missing node was supplied by the grammar, not found in the source. -/
  missing : Bool := false
  /-- Set on a node known to hold an error somewhere. -/
  flagged : Bool := false
  /-- The field that the node fills in its parent. -/
  field : Option String := none
  deriving Repr, BEq, DecidableEq

/-- A concrete tree. -/
inductive Node where
  | mk (head : Head) (children : List Node)
  deriving Repr

namespace Node

def head : Node → Head
  | .mk h _ => h

def children : Node → List Node
  | .mk _ cs => cs

def kind (n : Node) : String := n.head.kind
def start (n : Node) : Nat := n.head.start
def stop (n : Node) : Nat := n.head.stop
def row (n : Node) : Nat := n.head.row
def named (n : Node) : Bool := n.head.named

/-- The same node in another field of its parent. -/
def withField (n : Node) (field : String) : Node :=
  .mk { n.head with field := some field } n.children

/-- The same node under another kind and with other children. -/
def recast (n : Node) (kind : String) (children : List Node) : Node :=
  .mk { n.head with kind } children

/-- The first child that fills a field. -/
def childByField (n : Node) (field : String) : Option Node :=
  n.children.find? (·.head.field == some field)

/-- The children that are not punctuation. -/
def namedChildren (n : Node) : List Node :=
  n.children.filter (·.named)

/-! ## Weight

What a traversal with a stack of its own still has to do is measured by the weights of the nodes on
the stack: a node outweighs its children three times over, so it may be taken off the stack for as
much.
-/

mutual

/-- More than three times what the children weigh. -/
def weight : Node → Nat
  | .mk _ cs => 3 * weights cs + 2

def weights : List Node → Nat
  | [] => 0
  | n :: ns => weight n + weights ns

end

theorem weight_eq (n : Node) : n.weight = 3 * weights n.children + 2 := by
  cases n; rfl

theorem weights_append (xs ys : List Node) : weights (xs ++ ys) = weights xs + weights ys := by
  induction xs with
  | nil => simp [weights]
  | cons x xs ih => simp only [List.cons_append, weights, ih]; omega

theorem weight_le_of_mem {n : Node} {ns : List Node} (h : n ∈ ns) : n.weight ≤ weights ns := by
  induction ns with
  | nil => cases h
  | cons m ms ih =>
    cases h with
    | head => simp only [weights]; omega
    | tail _ h => have := ih h; simp only [weights]; omega

theorem weights_filter_le (p : Node → Bool) (ns : List Node) :
    weights (ns.filter p) ≤ weights ns := by
  induction ns with
  | nil => simp
  | cons n ns ih =>
    rw [List.filter_cons]
    split <;> simp only [weights] <;> omega

theorem weights_find?_le (p : Node → Bool) (ns : List Node) :
    weights (ns.find? p).toList ≤ weights ns := by
  cases h : ns.find? p with
  | none => simp [weights]
  | some n => simpa [weights] using weight_le_of_mem (List.mem_of_find?_eq_some h)

/-! ## Errors -/

/-- The node itself stands for text that the grammar refused, or for a token that it lacked. -/
def isError (n : Node) : Bool :=
  n.kind == "ERROR" || n.head.missing

mutual

/-- The node or something below it is an error. -/
def hasError : Node → Bool
  | .mk h cs => h.flagged || h.kind == "ERROR" || h.missing || anyError cs

def anyError : List Node → Bool
  | [] => false
  | n :: ns => hasError n || anyError ns

end

mutual

/-- The first error in pre-order; subtrees that have none are passed over. -/
def firstError : Node → Option Node
  | .mk h cs =>
    if h.kind == "ERROR" || h.missing then some (.mk h cs)
    else if hasError (.mk h cs) then firstErrorIn cs
    else none

/-- The first error of the first node that has one to show. -/
def firstErrorIn : List Node → Option Node
  | [] => none
  | n :: ns =>
    match firstError n with
    | some e => some e
    | none => firstErrorIn ns

end

end Node

end LazyLint.Cst
