import LazyLint.Proofs.Lowering

/-!
# The shape of the grammar's trees

Lowering takes every concrete tree, also one that no source has. What it can be said to keep of a
tree depends on where the grammar puts things: which named children a call, a function or a method
has and in which order, and what never stands below an import or a leaf. `Fits` says this of one
node, `Shaped` of all the nodes of a tree.
-/

namespace LazyLint.Cst

/-! ## All the nodes of a tree -/

mutual

/-- A node and all that is below it, in pre-order. -/
def Node.nodes : Node → List Node
  | .mk h cs => .mk h cs :: nodesAmong cs

/-- Some nodes and all that is below them. -/
def nodesAmong : List Node → List Node
  | [] => []
  | n :: ns => n.nodes ++ nodesAmong ns

end

theorem Node.nodes_eq (n : Node) : n.nodes = n :: nodesAmong n.children := by
  cases n
  rw [Node.nodes, Node.children_mk]

theorem nodesAmong_eq (ns : List Node) : nodesAmong ns = ns.flatMap Node.nodes := by
  induction ns with
  | nil => rfl
  | cons n ns ih => rw [nodesAmong, ih, List.flatMap_cons]

theorem Node.mem_nodes_self (n : Node) : n ∈ n.nodes := by
  rw [Node.nodes_eq]
  exact List.mem_cons_self ..

theorem mem_nodesAmong {m c : Node} {ns : List Node} (hc : c ∈ ns) (hm : m ∈ c.nodes) :
    m ∈ nodesAmong ns := by
  rw [nodesAmong_eq]
  exact List.mem_flatMap.2 ⟨c, hc, hm⟩

theorem mem_nodes_of_child {n c m : Node} (hc : c ∈ n.children) (hm : m ∈ c.nodes) :
    m ∈ n.nodes := by
  rw [Node.nodes_eq]
  exact List.mem_cons_of_mem _ (mem_nodesAmong hc hm)

/-! ## Children -/

theorem mem_of_childByField {n c : Node} {field : String} (h : n.childByField field = some c) :
    c ∈ n.children :=
  List.mem_of_find?_eq_some h

theorem field_of_childByField {n c : Node} {field : String} (h : n.childByField field = some c) :
    c.head.field = some field := by
  simpa using List.find?_some h

theorem mem_of_kept {c : Node} {ns : List Node} (h : c ∈ kept ns) : c ∈ ns :=
  (List.mem_filter.1 h).1

theorem mem_of_clause {n c : Node} (h : Plan.clause n = some c) : c ∈ n.children :=
  List.mem_of_find?_eq_some h

/-- The bytes that a node covers. -/
def Node.span (n : Node) : Nat × Nat :=
  (n.start, n.stop)

/-! ## Shape -/

/-- The kinds of nodes below which nothing is loaded. -/
def closedKinds : List String :=
  ["import_statement", "string", "identifier", "import"]

/-- The list of parameters of a function, or its lone parameter. -/
def Node.parameterPart (n : Node) : Option Node :=
  n.childByField "parameters" <|> n.childByField "parameter"

/-- A node has the children that the grammar gives to its kind. -/
structure Fits (n : Node) : Prop where
  /-- Siblings cover different bytes. -/
  spans : (n.children.map Node.span).Nodup
  /-- A call has a callee and a list of arguments or a template, perhaps with the mark of an
  optional chain between them. -/
  call : n.kind = "call_expression" → ∃ callee chain args,
    n.childByField "function" = some callee ∧ n.childByField "arguments" = some args ∧
    (args.kind = "arguments" ∨ args.kind = "template_string") ∧
    kept n.children = callee :: (chain ++ [args]) ∧
    ∀ c ∈ chain, c.kind = "optional_chain" ∧ c.children = []
  /-- A function has a name, parameters and a body, in this order. -/
  function : n.kind ∈ Ast.functionKinds →
    kept n.children = (n.childByField "name").toList ++
      (n.parameterPart.toList ++ (n.childByField "body").toList)
  /-- In a method the decorators and the key come before the parameters and the body. -/
  method : n.kind = "method_definition" → ∃ keys,
    kept n.children = keys ++
      ((n.childByField "parameters").toList ++ (n.childByField "body").toList) ∧
    ∀ k ∈ keys, k.head.field ≠ some "parameters" ∧ k.head.field ≠ some "body"
  /-- Lists of parameters have a kind of their own. -/
  parameters : n.kind ∈ bodyKinds → ∀ ps, n.childByField "parameters" = some ps →
    ps.kind = "formal_parameters"
  /-- No call and no import stands below an import or a leaf. -/
  closed : n.kind ∈ closedKinds → ∀ m ∈ nodesAmong n.children,
    m.kind ≠ "call_expression" ∧ m.kind ≠ "import_statement"

/-- Every node of the tree has the shape of its kind. -/
def Node.Shaped (root : Node) : Prop :=
  ∀ n ∈ root.nodes, Fits n

theorem Node.Shaped.fits {n : Node} (h : n.Shaped) : Fits n :=
  h n n.mem_nodes_self

theorem Node.Shaped.child {n c : Node} (h : n.Shaped) (hc : c ∈ n.children) : c.Shaped :=
  fun m hm => h m (mem_nodes_of_child hc hm)

/-! ## What lowering looks at is below the node -/

section Below

variable {n c : Node}

theorem shaped_of_kept (h : n.Shaped) (hc : c ∈ kept n.children) : c.Shaped :=
  h.child (mem_of_kept hc)

theorem shaped_of_toList (h : n.Shaped) {field : String} (hc : c ∈ (n.childByField field).toList) :
    c.Shaped :=
  h.child (mem_of_childByField (Option.mem_toList.1 hc))

theorem shaped_of_parameters (h : n.Shaped) (hc : c ∈ Plan.parameters n) : c.Shaped := by
  unfold Plan.parameters at hc
  split at hc
  · cases hc
  · rename_i list hl
    exact shaped_of_kept (h.child (mem_of_childByField hl)) hc

theorem shaped_of_allParameters (h : n.Shaped) (hc : c ∈ Plan.allParameters n) : c.Shaped := by
  unfold Plan.allParameters at hc
  split at hc
  · exact shaped_of_parameters h hc
  · exact shaped_of_toList h hc

theorem shaped_of_arguments (h : n.Shaped) (hc : c ∈ Plan.arguments n) : c.Shaped := by
  unfold Plan.arguments at hc
  split at hc
  · cases hc
  · rename_i list hl
    have hlist := h.child (mem_of_childByField hl)
    split at hc
    · exact shaped_of_kept hlist hc
    · obtain rfl := List.mem_singleton.1 hc
      exact hlist

end Below

theorem fieldSpans_eq (n : Node) (fields : List String) :
    fieldSpans fields n.children =
      (fields.flatMap fun f => (n.childByField f).toList).map Node.span := by
  unfold fieldSpans
  induction fields with
  | nil => rfl
  | cons f fields ih =>
    rw [List.filterMap_cons, List.flatMap_cons, List.map_append, ← ih, Node.childByField]
    cases n.children.find? (·.head.field == some f) <;> rfl

/-- In a method of the grammar's shape, the decorators and the key are what lowering takes for
them. -/
theorem Fits.keys_eq {n : Node} (h : Fits n) {keys : List Node}
    (hk : kept n.children = keys ++
      ((n.childByField "parameters").toList ++ (n.childByField "body").toList)) :
    Plan.keys n = keys := by
  have hnodup : ((kept n.children).map Node.span).Nodup :=
    h.spans.sublist (List.filter_sublist.map _)
  have hspans : fieldSpans ["parameters", "body"] n.children =
      ((n.childByField "parameters").toList ++ (n.childByField "body").toList).map Node.span := by
    rw [fieldSpans_eq]
    simp
  unfold Plan.keys
  rw [hspans]
  rw [hk] at hnodup ⊢
  generalize (n.childByField "parameters").toList ++ (n.childByField "body").toList = value
    at hnodup ⊢
  rw [List.map_append, List.nodup_append] at hnodup
  rw [List.filter_append, List.filter_eq_self.2, List.filter_eq_nil_iff.2, List.append_nil]
  · intro c hc
    simpa using ⟨c, hc, rfl⟩
  · intro c hc
    have hne : ∀ v ∈ value, Node.span v ≠ Node.span c := by
      intro v hv he
      exact hnodup.2.2 _ (List.mem_map_of_mem hc) _ (List.mem_map_of_mem hv) he.symm
    simpa [Node.span] using hne

end LazyLint.Cst
