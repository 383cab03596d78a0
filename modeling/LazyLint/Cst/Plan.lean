import LazyLint.Cst.Lower

/-!
# Lowering deep trees

A source may be nested to any depth, so lowering keeps a stack of its own. Each node is planned: the
plan names the nodes that are lowered first and says what is made of the results. The tasks on the
stack plan a node or assemble the results that came last. What comes out is `lower`.
-/

namespace LazyLint.Cst

/-- How a node is lowered. -/
structure Plan where
  /-- The nodes that are lowered first. -/
  inputs : List Node
  /-- What is made of them once they are lowered. -/
  build : List Ast.Node → Ast.Node

/-- The named nodes among some, comments left out. -/
def kept (ns : List Node) : List Node :=
  ns.filter fun n => n.named && ! isSkipped n.kind

namespace Plan

/-- A leaf needs no other node. -/
def leaf (tree : Ast.Node) : Plan :=
  { inputs := [], build := fun _ => tree }

/-- A construct that the import rule does not look at. -/
def plain (n : Node) : Plan :=
  { inputs := kept n.children, build := fun trees => .plain n.kind (.items trees) }

/-- An import declaration: its source, then its clause. -/
def importDecl (n : Node) : Plan :=
  let source := n.childByField "source"
  let clause := n.children.find? fun c => c.named && c.kind = "import_clause"
  { inputs := source.toList ++ clause.toList
    build := fun trees =>
      .importDecl (if source.isSome then trees.headD .absent else .absent)
        (if clause.isSome then trees.getLastD .absent else .absent) }

/-- A call: its callee, then the arguments of its list or the template that a tag is applied to. -/
def call (n : Node) : Plan :=
  match n.childByField "function" with
  | none => plain n
  | some callee =>
    let args :=
      match n.childByField "arguments" with
      | none => []
      | some list => if list.kind = "arguments" then kept list.children else [list]
    { inputs := callee :: args
      build := fun trees => .call (trees.headD .absent) (.items trees.tail) }

/-- The parameters of a function that has a list of them. -/
def parameters (n : Node) : List Node :=
  match n.childByField "parameters" with
  | none => []
  | some list => kept list.children

/-- A function: its name, its parameters or lone parameter, its body. -/
def function (n : Node) : Plan :=
  let name := n.childByField "name"
  let params :=
    if (n.childByField "parameters").isSome then parameters n
    else (n.childByField "parameter").toList
  let body := n.childByField "body"
  { inputs := name.toList ++ params ++ body.toList
    build := fun trees =>
      let rest := trees.drop name.toList.length
      .function n.kind (if name.isSome then trees.headD .absent else .absent)
        (.items (rest.take params.length)) ((rest.drop params.length).headD .absent) }

/-- A method definition: its key and decorators, then the parameters and the body of its value. -/
def method (n : Node) : Plan :=
  let spans := fieldSpans ["parameters", "body"] n.children
  let key := (kept n.children).filter fun c => ! spans.contains (c.start, c.stop)
  let params := parameters n
  { inputs := key ++ params ++ (n.childByField "body").toList
    build := fun trees =>
      let rest := trees.drop key.length
      let value := .function "function_expression" .absent (.items (rest.take params.length))
        ((rest.drop params.length).headD .absent)
      .plain n.kind (.items (trees.take key.length ++ [value])) }

end Plan

/-- The plan of a node; only a string literal may have none, for the value of an escape. -/
def plan (src : List UInt8) (n : Node) : Except Escape.Fault Plan :=
  if n.kind = "program" then .ok { inputs := kept n.children, build := fun trees => .program (.items trees) }
  else if n.kind = "string" then (stringValue src n).map fun value => .leaf (.string value)
  else if n.kind = "identifier" then .ok (.leaf (.ident (Utf8.text src n.start n.stop)))
  else if n.kind = "import" then .ok (.leaf .importOp)
  else if n.kind = "import_statement" then .ok (.importDecl n)
  else if n.kind = "call_expression" then .ok (.call n)
  else if n.kind ∈ Ast.functionKinds then .ok (.function n)
  else if n.kind = "method_definition" then .ok (.method n)
  else .ok (.plain n)

/-! ## A plan asks for less than its node

A plan has three parts at most, and none of them weighs more than the children together.
-/

section Weight

open Node

theorem weights_kept_le (ns : List Node) : weights (kept ns) ≤ weights ns :=
  weights_filter_le _ ns

theorem weights_childByField_le (n : Node) (field : String) :
    weights (n.childByField field).toList ≤ weights n.children :=
  weights_find?_le _ n.children

theorem weights_children_le {n m : Node} {field : String} (h : n.childByField field = some m) :
    weights m.children ≤ weights n.children := by
  have hm := weights_childByField_le n field
  simp only [h, Option.toList_some, weights, weight_eq] at hm
  omega

theorem weights_parameters_le (n : Node) : weights (Plan.parameters n) ≤ weights n.children := by
  unfold Plan.parameters
  split
  · simp [weights]
  · rename_i list h
    exact Nat.le_trans (weights_kept_le _) (weights_children_le h)

theorem weights_plain_le (n : Node) : weights (Plan.plain n).inputs ≤ weights n.children :=
  weights_kept_le _

theorem weights_importDecl_le (n : Node) :
    weights (Plan.importDecl n).inputs ≤ 2 * weights n.children := by
  have hs := weights_childByField_le n "source"
  have hc := weights_find?_le (fun c => c.named && c.kind = "import_clause") n.children
  simp only [Plan.importDecl, weights_append]
  omega

theorem weights_call_le (n : Node) : weights (Plan.call n).inputs ≤ 2 * weights n.children := by
  unfold Plan.call
  split
  · have := weights_plain_le n
    omega
  · rename_i callee hf
    have hc := weights_childByField_le n "function"
    have ha := weights_childByField_le n "arguments"
    simp only [hf, Option.toList_some, weights] at hc
    simp only [weights]
    split
    · simp only [weights]
      omega
    · rename_i list hl
      have hk := weights_kept_le list.children
      have hb := weights_children_le hl
      simp only [hl, Option.toList_some, weights] at ha
      split
      · omega
      · simp only [weights]
        omega

theorem weights_function_le (n : Node) :
    weights (Plan.function n).inputs ≤ 3 * weights n.children := by
  have hn := weights_childByField_le n "name"
  have hp := weights_parameters_le n
  have hl := weights_childByField_le n "parameter"
  have hb := weights_childByField_le n "body"
  simp only [Plan.function, weights_append]
  split <;> omega

theorem weights_method_le (n : Node) :
    weights (Plan.method n).inputs ≤ 3 * weights n.children := by
  have hp := weights_parameters_le n
  have hb := weights_childByField_le n "body"
  have hk := weights_kept_le n.children
  have hf := weights_filter_le
    (fun c => ! (fieldSpans ["parameters", "body"] n.children).contains (c.start, c.stop))
    (kept n.children)
  simp only [Plan.method, weights_append]
  omega

theorem inputs_of_string {src : List UInt8} {n : Node} {p : Plan}
    (h : ((stringValue src n).map fun value => Plan.leaf (.string value)) = .ok p) :
    p.inputs = [] := by
  cases hv : stringValue src n with
  | error f => simp [hv, Except.map] at h
  | ok value =>
    simp only [hv, Except.map, Except.ok.injEq] at h
    exact h ▸ rfl

/-- The inputs of a plan weigh less than its node. -/
theorem weights_inputs_lt {src : List UInt8} {n : Node} {p : Plan} (h : plan src n = .ok p) :
    weights p.inputs + 1 < n.weight := by
  suffices weights p.inputs ≤ 3 * weights n.children by rw [weight_eq]; omega
  have hk := weights_kept_le n.children
  have hi := weights_importDecl_le n
  have hc := weights_call_le n
  have hp := weights_plain_le n
  unfold plan at h
  split at h
  · cases h; dsimp only; omega
  split at h
  · simp [inputs_of_string h, weights]
  split at h
  · cases h; simp [Plan.leaf, weights]
  split at h
  · cases h; simp [Plan.leaf, weights]
  split at h
  · cases h; omega
  split at h
  · cases h; omega
  split at h
  · cases h; exact weights_function_le n
  split at h
  · cases h; exact weights_method_le n
  · cases h; omega

end Weight

/-! ## The stack -/

/-- What is still to be done. -/
inductive Task where
  /-- A node is to be lowered. -/
  | expand (n : Node)
  /-- The last so many results are to be made into one. -/
  | assemble (count : Nat) (build : List Ast.Node → Ast.Node)

/-- What a task still has to do. -/
def Task.weight : Task → Nat
  | .expand n => n.weight
  | .assemble .. => 1

def Task.weights : List Task → Nat
  | [] => 0
  | t :: ts => t.weight + weights ts

theorem weights_expand_append (ns : List Node) (ts : List Task) :
    Task.weights (ns.map .expand ++ ts) = Node.weights ns + Task.weights ts := by
  induction ns with
  | nil => simp [Node.weights]
  | cons n ns ih =>
    simp only [List.map_cons, List.cons_append, Task.weights, Task.weight, Node.weights, ih]
    omega

/-- The results after the tasks on a stack are done, the last one first. -/
def perform (src : List UInt8) : List Task → List Ast.Node → Except Escape.Fault (List Ast.Node)
  | [], done => .ok done
  | .expand n :: tasks, done =>
    match h : plan src n with
    | .error f => .error f
    | .ok p =>
      perform src (p.inputs.map .expand ++ .assemble p.inputs.length p.build :: tasks) done
  | .assemble count build :: tasks, done =>
    perform src tasks (build (done.take count).reverse :: done.drop count)
termination_by tasks _ => Task.weights tasks
decreasing_by
  · have hw := weights_inputs_lt h
    simp only [weights_expand_append, Task.weights, Task.weight]
    omega
  · simp only [Task.weights, Task.weight]
    omega

/-- The lowered tree of a concrete one, without recursion. -/
def lowerDeep (src : List UInt8) (root : Node) : Except Escape.Fault Ast.Node :=
  (perform src [.expand root] []).map (·.headD .absent)

end LazyLint.Cst
