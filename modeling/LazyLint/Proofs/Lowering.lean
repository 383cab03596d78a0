import LazyLint.Cst.Plan
import LazyLint.Proofs.Fallible

/-!
# Lowering by plans

Lowering is written twice: `lower` recurses over the tree, `lowerDeep` keeps a stack of tasks. Both
follow the plans of the nodes. `lower_eq` is the equation of the recursion (plan a node, lower what
the plan asks for, build), `perform_expand` is what the stack does with nodes to expand, whatever
tasks and results lie below them, and `lowerDeep_eq_lower` joins the two.

`lower_induction` is how later files reason about a lowered tree. `Lowered` lists the forms of a
lowered node once, each with what its parts come from, so that no other file opens a plan.
-/

namespace LazyLint.Cst

/-! ## The parts of a node -/

@[simp] theorem Node.head_mk (h : Head) (cs : List Node) : (Node.mk h cs).head = h := rfl
@[simp] theorem Node.children_mk (h : Head) (cs : List Node) : (Node.mk h cs).children = cs := rfl
@[simp] theorem Node.kind_mk (h : Head) (cs : List Node) : (Node.mk h cs).kind = h.kind := rfl

theorem kept_cons (n : Node) (ns : List Node) :
    kept (n :: ns) = if n.named && ! isSkipped n.kind then n :: kept ns else kept ns :=
  List.filter_cons

/-! ## The helpers of the recursion -/

section Helpers

variable (src : List UInt8)

theorem lowerNamed_eq (ns : List Node) : lowerNamed src ns = (kept ns).mapM (lower src) := by
  induction ns with
  | nil => rfl
  | cons n ns ih =>
    rw [lowerNamed, kept_cons]
    split
    · rw [List.mapM_cons, ih]
    · exact ih

theorem lowerOutside_eq (spans : List (Nat × Nat)) (ns : List Node) :
    lowerOutside src spans ns =
      ((kept ns).filter fun c => ! spans.contains (c.start, c.stop)).mapM (lower src) := by
  induction ns with
  | nil => rfl
  | cons n ns ih =>
    rw [lowerOutside, kept_cons, ih]
    by_cases hn : (n.named && ! isSkipped n.kind) = true
    · rw [if_pos hn, List.filter_cons]
      simp only [hn, Bool.true_and]
      split
      · rw [List.mapM_cons]
      · rfl
    · rw [if_neg hn, if_neg]
      simp [hn]

theorem lowerField_eq (field : String) (ns : List Node) :
    lowerField src field ns =
      (·.head?) <$> (ns.find? (·.head.field == some field)).toList.mapM (lower src) := by
  induction ns with
  | nil => rfl
  | cons n ns ih =>
    rw [lowerField]
    by_cases hn : n.head.field = some field
    · simp [hn, functor_norm]
    · have hb : (n.head.field == some field) = false := by simpa using hn
      rw [if_neg hn, ih, List.find?_cons_of_neg (by simp [hb])]

/-- What the clause of an import is lowered from. -/
def Plan.clause (n : Node) : Option Node :=
  n.children.find? fun c => c.named && c.kind = "import_clause"

theorem lowerClause_eq (n : Node) :
    lowerClause src n.children = (·.head?) <$> (Plan.clause n).toList.mapM (lower src) := by
  unfold Plan.clause
  induction n.children with
  | nil => rfl
  | cons m ns ih =>
    rw [lowerClause]
    by_cases hm : (m.named && decide (m.kind = "import_clause")) = true
    · simp only [hm, ↓reduceIte, List.find?_cons]
      simp [functor_norm]
    · simp only [hm, Bool.false_eq_true, ↓reduceIte, List.find?_cons]
      exact ih

/-- What the arguments of a call are lowered from. -/
def Plan.arguments (n : Node) : List Node :=
  match n.childByField "arguments" with
  | none => []
  | some list => if list.kind = "arguments" then kept list.children else [list]

theorem lowerArguments_eq (n : Node) :
    lowerArguments src n.children = (Plan.arguments n).mapM (lower src) := by
  unfold Plan.arguments Node.childByField
  induction n.children with
  | nil => rfl
  | cons m ns ih =>
    obtain ⟨h, cs⟩ := m
    rw [lowerArguments]
    by_cases hf : h.field = some "arguments"
    · rw [if_pos hf, List.find?_cons_of_pos (by simp [Node.head, hf])]
      rw [lowerNamed_eq]
      by_cases hk : h.kind = "arguments"
      · simp [hk]
      · simp [hk]
    · rw [if_neg hf, ih, List.find?_cons_of_neg (by simp [Node.head, hf])]

/-- What the parameters of a function are lowered from. -/
def Plan.allParameters (n : Node) : List Node :=
  if (n.childByField "parameters").isSome then parameters n
  else (n.childByField "parameter").toList

theorem lowerParameters_eq (lone : Bool) (ns : List Node) :
    lowerParameters src lone ns =
      match ns.find? (·.head.field == some "parameters") with
      | some list => (kept list.children).mapM (lower src)
      | none =>
        if lone then (ns.find? (·.head.field == some "parameter")).toList.mapM (lower src)
        else pure [] := by
  induction ns with
  | nil => cases lone <;> rfl
  | cons m ns ih =>
    obtain ⟨h, cs⟩ := m
    rw [lowerParameters]
    by_cases hf : h.field = some "parameters"
    · rw [if_pos hf, List.find?_cons_of_pos (by simp [Node.head, hf])]
      exact lowerNamed_eq src cs
    · rw [if_neg hf, List.find?_cons_of_neg (by simp [Node.head, hf]), ih]
      by_cases hp : h.field = some "parameter"
      · rw [List.find?_cons_of_pos (by simp [Node.head, hp])]
        cases hs : ns.find? (·.head.field == some "parameters") with
        | none =>
          have hn : ns.any (·.head.field = some "parameters") = false := by
            simpa [List.find?_eq_none] using hs
          cases lone <;> simp [hp, hn]
        | some list =>
          have hn : ns.any (·.head.field = some "parameters") = true := by
            rw [List.any_eq_true]
            exact ⟨list, List.mem_of_find?_eq_some hs, by simpa using List.find?_some hs⟩
          simp [hn]
      · rw [List.find?_cons_of_neg (by simp [Node.head, hp])]
        simp [hp]

theorem lowerParameters_lone (n : Node) :
    lowerParameters src true n.children = (Plan.allParameters n).mapM (lower src) := by
  rw [lowerParameters_eq, Plan.allParameters, Plan.parameters, Node.childByField, Node.childByField]
  cases n.children.find? (·.head.field == some "parameters") with
  | none => simp
  | some list => simp

theorem lowerParameters_list (n : Node) :
    lowerParameters src false n.children = (Plan.parameters n).mapM (lower src) := by
  rw [lowerParameters_eq, Plan.parameters, Node.childByField]
  cases n.children.find? (·.head.field == some "parameters") with
  | none => simp
  | some list => simp

end Helpers

/-! ## What the plans build

A builder gets the lowered inputs in one list and takes it apart by the numbers of the inputs.
-/

section Builders

variable {n : Node}

/-- Of a part that may be missing, lowering makes one tree or none, and it stands first. -/
theorem headD_append_of_part {o : Option Node} {ts : List Ast.Node} (h : ts.length = o.toList.length)
    (rest : List Ast.Node) :
    (if o.isSome then (ts ++ rest).headD .absent else .absent) = ts.headD .absent := by
  cases o with
  | none =>
    obtain rfl := List.length_eq_zero_iff.1 h
    rfl
  | some m =>
    obtain ⟨t, rfl⟩ := List.length_eq_one_iff.1 h
    rfl

theorem getLastD_append_of_part {o : Option Node} {ts : List Ast.Node}
    (h : ts.length = o.toList.length) (before : List Ast.Node) :
    (if o.isSome then (before ++ ts).getLastD .absent else .absent) = ts.headD .absent := by
  cases o with
  | none =>
    obtain rfl := List.length_eq_zero_iff.1 h
    rfl
  | some m =>
    obtain ⟨t, rfl⟩ := List.length_eq_one_iff.1 h
    simp

theorem inputs_importDecl (n : Node) :
    (Plan.importDecl n).inputs = (n.childByField "source").toList ++ (Plan.clause n).toList := rfl

theorem build_importDecl {ss cs : List Ast.Node}
    (hs : ss.length = (n.childByField "source").toList.length)
    (hc : cs.length = (Plan.clause n).toList.length) :
    (Plan.importDecl n).build (ss ++ cs) =
      .importDecl (ss.headD .absent) (cs.headD .absent) := by
  have hb : (Plan.importDecl n).build (ss ++ cs) =
      .importDecl (if (n.childByField "source").isSome then (ss ++ cs).headD .absent else .absent)
        (if (Plan.clause n).isSome then (ss ++ cs).getLastD .absent else .absent) := rfl
  rw [hb, headD_append_of_part hs, getLastD_append_of_part hc]

theorem inputs_function (n : Node) :
    (Plan.function n).inputs =
      (n.childByField "name").toList ++ Plan.allParameters n ++ (n.childByField "body").toList := rfl

theorem build_function {us ps : List Ast.Node} (bs : List Ast.Node)
    (hu : us.length = (n.childByField "name").toList.length)
    (hp : ps.length = (Plan.allParameters n).length) :
    (Plan.function n).build (us ++ ps ++ bs) =
      .function n.kind (us.headD .absent) (.items ps) (bs.headD .absent) := by
  have hb : (Plan.function n).build (us ++ ps ++ bs) =
      .function n.kind
        (if (n.childByField "name").isSome then (us ++ ps ++ bs).headD .absent else .absent)
        (.items (((us ++ ps ++ bs).drop (n.childByField "name").toList.length).take
          (Plan.allParameters n).length))
        ((((us ++ ps ++ bs).drop (n.childByField "name").toList.length).drop
          (Plan.allParameters n).length).headD .absent) := rfl
  rw [hb, List.append_assoc, headD_append_of_part hu, ← hu, ← hp, List.drop_left, List.take_left,
    List.drop_left]

/-- The decorators and the key of a method definition. -/
def Plan.keys (n : Node) : List Node :=
  (kept n.children).filter fun c =>
    ! (fieldSpans ["parameters", "body"] n.children).contains (c.start, c.stop)

theorem inputs_method (n : Node) :
    (Plan.method n).inputs =
      Plan.keys n ++ Plan.parameters n ++ (n.childByField "body").toList := rfl

theorem build_method {ks ps : List Ast.Node} (bs : List Ast.Node)
    (hk : ks.length = (Plan.keys n).length) (hp : ps.length = (Plan.parameters n).length) :
    (Plan.method n).build (ks ++ ps ++ bs) =
      .plain n.kind (.items
        (ks ++ [.function "function_expression" .absent (.items ps) (bs.headD .absent)])) := by
  have hb : (Plan.method n).build (ks ++ ps ++ bs) =
      .plain n.kind (.items ((ks ++ ps ++ bs).take (Plan.keys n).length ++
        [.function "function_expression" .absent
          (.items (((ks ++ ps ++ bs).drop (Plan.keys n).length).take (Plan.parameters n).length))
          ((((ks ++ ps ++ bs).drop (Plan.keys n).length).drop
            (Plan.parameters n).length).headD .absent)])) := rfl
  rw [hb, ← hk, ← hp, List.append_assoc, List.take_left, List.drop_left, List.take_left,
    List.drop_left]

end Builders

/-! ## The recursion follows the plans -/

section Recursion

variable {src : List UInt8}

/-- Lower what a plan asks for, then build. -/
def carryOut (src : List UInt8) (p : Plan) : Except Escape.Fault Ast.Node := do
  return p.build (← p.inputs.mapM (lower src))

theorem carryOut_importDecl (n : Node) :
    carryOut src (.importDecl n) = (do
      let source ← lowerField src "source" n.children
      let clause ← lowerClause src n.children
      return .importDecl (source.getD .absent) (clause.getD .absent)) := by
  rw [carryOut, inputs_importDecl, List.mapM_append, lowerField_eq, lowerClause_eq]
  change _ = (do
    let source ← List.head? <$> (n.childByField "source").toList.mapM (lower src)
    let clause ← List.head? <$> (Plan.clause n).toList.mapM (lower src)
    return Ast.Node.importDecl (source.getD .absent) (clause.getD .absent))
  cases hs : (n.childByField "source").toList.mapM (lower src) with
  | error e => rfl
  | ok ss =>
    cases hc : (Plan.clause n).toList.mapM (lower src) with
    | error e => rfl
    | ok cs =>
      have hb := build_importDecl (length_of_mapM hs) (length_of_mapM hc)
      simp only [List.headD_eq_head?_getD] at hb
      exact congrArg Except.ok hb

theorem carryOut_function (n : Node) :
    carryOut src (.function n) = (do
      let name ← lowerField src "name" n.children
      let params ← lowerParameters src true n.children
      let body ← lowerField src "body" n.children
      return .function n.kind (name.getD .absent) (.items params) (body.getD .absent)) := by
  rw [carryOut, inputs_function, List.mapM_append, List.mapM_append, lowerField_eq, lowerField_eq,
    lowerParameters_lone]
  change _ = (do
    let name ← List.head? <$> (n.childByField "name").toList.mapM (lower src)
    let params ← (Plan.allParameters n).mapM (lower src)
    let body ← List.head? <$> (n.childByField "body").toList.mapM (lower src)
    return Ast.Node.function n.kind (name.getD .absent) (.items params) (body.getD .absent))
  cases hu : (n.childByField "name").toList.mapM (lower src) with
  | error e => rfl
  | ok us =>
    cases hp : (Plan.allParameters n).mapM (lower src) with
    | error e => rfl
    | ok ps =>
      cases hb : (n.childByField "body").toList.mapM (lower src) with
      | error e => rfl
      | ok bs =>
        have h := build_function bs (length_of_mapM hu) (length_of_mapM hp)
        simp only [List.headD_eq_head?_getD] at h
        exact congrArg Except.ok h

theorem carryOut_method (n : Node) :
    carryOut src (.method n) = (do
      let key ← lowerOutside src (fieldSpans ["parameters", "body"] n.children) n.children
      let params ← lowerParameters src false n.children
      let body ← lowerField src "body" n.children
      return .plain n.kind (.items
        (key ++ [.function "function_expression" .absent (.items params) (body.getD .absent)]))) := by
  rw [carryOut, inputs_method, List.mapM_append, List.mapM_append, lowerField_eq, lowerOutside_eq,
    lowerParameters_list]
  change _ = (do
    let key ← (Plan.keys n).mapM (lower src)
    let params ← (Plan.parameters n).mapM (lower src)
    let body ← List.head? <$> (n.childByField "body").toList.mapM (lower src)
    return Ast.Node.plain n.kind (.items
      (key ++ [Ast.Node.function "function_expression" .absent (.items params) (body.getD .absent)])))
  cases hk : (Plan.keys n).mapM (lower src) with
  | error e => rfl
  | ok ks =>
    cases hp : (Plan.parameters n).mapM (lower src) with
    | error e => rfl
    | ok ps =>
      cases hb : (n.childByField "body").toList.mapM (lower src) with
      | error e => rfl
      | ok bs =>
        have h := build_method bs (length_of_mapM hk) (length_of_mapM hp)
        simp only [List.headD_eq_head?_getD] at h
        exact congrArg Except.ok h

theorem carryOut_plain (n : Node) :
    carryOut src (.plain n) = (do return .plain n.kind (.items (← lowerNamed src n.children))) := by
  rw [carryOut, lowerNamed_eq]
  rfl

theorem carryOut_call (n : Node) :
    carryOut src (.call n) = (do
      match ← lowerField src "function" n.children with
      | some callee => return .call callee (.items (← lowerArguments src n.children))
      | none => return .plain n.kind (.items (← lowerNamed src n.children))) := by
  rw [lowerField_eq, lowerArguments_eq]
  change _ = (do
    match ← List.head? <$> (n.childByField "function").toList.mapM (lower src) with
    | some callee => return Ast.Node.call callee (.items (← (Plan.arguments n).mapM (lower src)))
    | none => return Ast.Node.plain n.kind (.items (← lowerNamed src n.children)))
  unfold Plan.call
  cases n.childByField "function" with
  | none => exact carryOut_plain n
  | some f =>
    have hi : carryOut src { inputs := f :: Plan.arguments n,
                             build := fun trees => .call (trees.headD .absent) (.items trees.tail) } =
        (do
          let ts ← (f :: Plan.arguments n).mapM (lower src)
          return .call (ts.headD .absent) (.items ts.tail)) := rfl
    refine hi.trans ?_
    rw [List.mapM_cons, Option.toList_some, List.mapM_cons, List.mapM_nil]
    cases lower src f with
    | error e => rfl
    | ok callee => cases (Plan.arguments n).mapM (lower src) <;> rfl

/-- Lowering a node is planning it and carrying the plan out. -/
theorem lower_eq (src : List UInt8) (n : Node) : lower src n = plan src n >>= carryOut src := by
  obtain ⟨h, cs⟩ := n
  have hk : (Node.mk h cs).kind = h.kind := rfl
  rw [lower, plan, hk]
  by_cases h1 : h.kind = "program"
  · rw [if_pos h1, if_pos h1, lowerNamed_eq]
    rfl
  rw [if_neg h1, if_neg h1]
  by_cases h2 : h.kind = "string"
  · rw [if_pos h2, if_pos h2]
    cases stringValue src (.mk h cs) <;> rfl
  rw [if_neg h2, if_neg h2]
  by_cases h3 : h.kind = "identifier"
  · rw [if_pos h3, if_pos h3]
    rfl
  rw [if_neg h3, if_neg h3]
  by_cases h4 : h.kind = "import"
  · rw [if_pos h4, if_pos h4]
    rfl
  rw [if_neg h4, if_neg h4]
  by_cases h5 : h.kind = "import_statement"
  · rw [if_pos h5, if_pos h5]
    exact (carryOut_importDecl (.mk h cs)).symm
  rw [if_neg h5, if_neg h5]
  by_cases h6 : h.kind = "call_expression"
  · rw [if_pos h6, if_pos h6]
    exact (carryOut_call (.mk h cs)).symm
  rw [if_neg h6, if_neg h6]
  by_cases h7 : h.kind ∈ Ast.functionKinds
  · rw [if_pos h7, if_pos h7]
    exact (carryOut_function (.mk h cs)).symm
  rw [if_neg h7, if_neg h7]
  by_cases h8 : h.kind = "method_definition"
  · rw [if_pos h8, if_pos h8]
    exact (carryOut_method (.mk h cs)).symm
  rw [if_neg h8, if_neg h8]
  exact (carryOut_plain (.mk h cs)).symm

end Recursion

/-! ## The stack computes the recursion -/

/-- Nodes to expand on top of a stack are lowered in order, and their results come to lie on those
that are there, the last one on top. -/
theorem perform_expand (src : List UInt8) (ns : List Node) (tasks : List Task)
    (done : List Ast.Node) :
    perform src (ns.map .expand ++ tasks) done =
      ns.mapM (lower src) >>= fun ts => perform src tasks (ts.reverse ++ done) := by
  -- On the weight of the nodes: the inputs of a plan weigh less than the node that asks for them.
  induction hw : Node.weights ns using Nat.strongRecOn generalizing ns tasks done with
  | _ w ih =>
    cases ns with
    | nil => rfl
    | cons n ns =>
      rw [List.map_cons, List.cons_append, perform, List.mapM_cons, lower_eq]
      split
      · rename_i f hp
        rw [hp]
        rfl
      · rename_i p hp
        have hlt := weights_inputs_lt hp
        simp only [Node.weights] at hw
        rw [hp, ih _ (by omega) p.inputs _ _ rfl]
        change _ = (carryOut src p >>= fun t => ns.mapM (lower src) >>= fun ts =>
          pure (t :: ts)) >>= fun ts => perform src tasks (ts.reverse ++ done)
        rw [carryOut]
        cases hts : p.inputs.mapM (lower src) with
        | error f => rfl
        | ok ts =>
          have hlen : p.inputs.length = ts.reverse.length := by
            rw [List.length_reverse, length_of_mapM hts]
          change perform src (.assemble p.inputs.length p.build :: (ns.map .expand ++ tasks))
            (ts.reverse ++ done) = (ns.mapM (lower src) >>= fun us => pure (p.build ts :: us)) >>=
              fun us => perform src tasks (us.reverse ++ done)
          rw [perform, hlen, List.take_left, List.drop_left, List.reverse_reverse,
            ih _ (by omega) ns _ _ rfl]
          cases ns.mapM (lower src) with
          | error f => rfl
          | ok us => simp [bind, Except.bind, pure, Except.pure]

/-- The loop ends with the lowered tree as the only result. -/
theorem perform_root (src : List UInt8) (root : Node) :
    perform src [.expand root] [] = (lower src root).map fun t => [t] := by
  have h := perform_expand src [root] [] []
  rw [List.map_singleton, List.append_nil] at h
  rw [h, List.mapM_cons, List.mapM_nil]
  cases lower src root with
  | error f => rfl
  | ok t => simp [bind, Except.bind, pure, Except.pure, perform, Except.map]

theorem lowerDeep_eq_lower (src : List UInt8) (root : Node) :
    lowerDeep src root = lower src root := by
  rw [lowerDeep, perform_root]
  cases lower src root <;> rfl

/-! ## Induction over lowered trees -/

/-- The kinds that have a plan of their own, functions apart. -/
def Plan.ownKinds : List String :=
  ["program", "string", "identifier", "import", "import_statement", "call_expression",
   "method_definition"]

/-- How a lowered tree is made of a node and of what `R` gives for the nodes below. -/
inductive Lowered (src : List UInt8) (R : Node → Ast.Node → Prop) (n : Node) : Ast.Node → Prop
  | program {ts : List Ast.Node} (hk : n.kind = "program")
      (h : List.Forall₂ R (kept n.children) ts) : Lowered src R n (.program (.items ts))
  | string {v : Text} (hk : n.kind = "string") (h : stringValue src n = .ok v) :
      Lowered src R n (.string v)
  | ident (hk : n.kind = "identifier") :
      Lowered src R n (.ident (Utf8.text src n.start n.stop))
  | importOp (hk : n.kind = "import") : Lowered src R n .importOp
  | importDecl {ss cs : List Ast.Node} (hk : n.kind = "import_statement")
      (hs : List.Forall₂ R (n.childByField "source").toList ss)
      (hc : List.Forall₂ R (Plan.clause n).toList cs) :
      Lowered src R n (.importDecl (ss.headD .absent) (cs.headD .absent))
  | call {f : Node} {callee : Ast.Node} {args : List Ast.Node} (hk : n.kind = "call_expression")
      (hf : n.childByField "function" = some f) (hc : R f callee)
      (ha : List.Forall₂ R (Plan.arguments n) args) : Lowered src R n (.call callee (.items args))
  | function {us ps bs : List Ast.Node} (hk : n.kind ∈ Ast.functionKinds)
      (hu : List.Forall₂ R (n.childByField "name").toList us)
      (hp : List.Forall₂ R (Plan.allParameters n) ps)
      (hb : List.Forall₂ R (n.childByField "body").toList bs) :
      Lowered src R n (.function n.kind (us.headD .absent) (.items ps) (bs.headD .absent))
  | method {ks ps bs : List Ast.Node} (hk : n.kind = "method_definition")
      (hks : List.Forall₂ R (Plan.keys n) ks) (hp : List.Forall₂ R (Plan.parameters n) ps)
      (hb : List.Forall₂ R (n.childByField "body").toList bs) :
      Lowered src R n (.plain n.kind (.items
        (ks ++ [.function "function_expression" .absent (.items ps) (bs.headD .absent)])))
  /-- A call without a callee. -/
  | bareCall {ts : List Ast.Node} (hk : n.kind = "call_expression")
      (hf : n.childByField "function" = none) (h : List.Forall₂ R (kept n.children) ts) :
      Lowered src R n (.plain n.kind (.items ts))
  | plain {ts : List Ast.Node} (hk : n.kind ∉ Plan.ownKinds) (hf : n.kind ∉ Ast.functionKinds)
      (h : List.Forall₂ R (kept n.children) ts) : Lowered src R n (.plain n.kind (.items ts))

section Carried

variable {src : List UInt8} {R : Node → Ast.Node → Prop} {n : Node} {ts : List Ast.Node}

theorem lowered_importDecl (hk : n.kind = "import_statement")
    (h : List.Forall₂ R (Plan.importDecl n).inputs ts) :
    Lowered src R n ((Plan.importDecl n).build ts) := by
  rw [inputs_importDecl] at h
  obtain ⟨ss, cs, rfl, hs, hc⟩ := forall₂_append_inv h
  rw [build_importDecl hs.length_eq.symm hc.length_eq.symm]
  exact .importDecl hk hs hc

theorem lowered_call (hk : n.kind = "call_expression")
    (h : List.Forall₂ R (Plan.call n).inputs ts) : Lowered src R n ((Plan.call n).build ts) := by
  unfold Plan.call at h ⊢
  split at h
  · rename_i hf
    exact .bareCall hk hf h
  · rename_i f hf
    obtain ⟨callee, args, hc, ha, rfl⟩ := List.forall₂_cons_left_iff.1 h
    exact .call hk hf hc ha

theorem lowered_function (hk : n.kind ∈ Ast.functionKinds)
    (h : List.Forall₂ R (Plan.function n).inputs ts) :
    Lowered src R n ((Plan.function n).build ts) := by
  rw [inputs_function] at h
  obtain ⟨xs, bs, rfl, hx, hb⟩ := forall₂_append_inv h
  obtain ⟨us, ps, rfl, hu, hps⟩ := forall₂_append_inv hx
  rw [build_function bs hu.length_eq.symm hps.length_eq.symm]
  exact .function hk hu hps hb

theorem lowered_method (hk : n.kind = "method_definition")
    (h : List.Forall₂ R (Plan.method n).inputs ts) :
    Lowered src R n ((Plan.method n).build ts) := by
  rw [inputs_method] at h
  obtain ⟨xs, bs, rfl, hx, hb⟩ := forall₂_append_inv h
  obtain ⟨ks, ps, rfl, hks, hps⟩ := forall₂_append_inv hx
  rw [build_method bs hks.length_eq.symm hps.length_eq.symm]
  exact .method hk hks hps hb

/-- One case for each plan, in the order in which planning asks for the kinds. -/
theorem lowered_of_plan {p : Plan} (hp : plan src n = .ok p) (h : List.Forall₂ R p.inputs ts) :
    Lowered src R n (p.build ts) := by
  unfold plan at hp
  split at hp
  · rename_i hk
    cases hp
    exact .program hk h
  split at hp
  · rename_i hk
    cases hv : stringValue src n with
    | error f => simp [hv, Except.map] at hp
    | ok v =>
      rw [hv] at hp
      cases hp
      exact .string hk hv
  split at hp
  · rename_i hk
    cases hp
    exact .ident hk
  split at hp
  · rename_i hk
    cases hp
    exact .importOp hk
  split at hp
  · rename_i hk
    cases hp
    exact lowered_importDecl hk h
  split at hp
  · rename_i hk
    cases hp
    exact lowered_call hk h
  split at hp
  · rename_i hk
    cases hp
    exact lowered_function hk h
  split at hp
  · rename_i hk
    cases hp
    exact lowered_method hk h
  · rename_i hf _
    cases hp
    refine .plain ?_ hf h
    simp_all [Plan.ownKinds]

end Carried

/-- What a node and its lowered tree have in common is proved from what the nodes that lowering
looks at below it and their trees have in common. -/
theorem lower_induction {src : List UInt8} {motive : Node → Ast.Node → Prop}
    (step : ∀ n t, Lowered src (fun m s => lower src m = .ok s ∧ motive m s) n t → motive n t)
    {n : Node} {t : Ast.Node} (h : lower src n = .ok t) : motive n t := by
  induction hw : n.weight using Nat.strongRecOn generalizing n t with
  | _ w ih =>
    rw [lower_eq, bind_eq_ok_iff] at h
    obtain ⟨p, hp, h⟩ := h
    obtain ⟨ts, hts, h⟩ := bind_eq_ok_iff.1 h
    cases h
    have hlt := weights_inputs_lt hp
    refine step n _ (lowered_of_plan hp ?_)
    have hall : ∀ m ∈ p.inputs, ∀ s, lower src m = .ok s → motive m s := by
      intro m hm s hs
      have := Node.weight_le_of_mem hm
      exact ih m.weight (by omega) hs rfl
    exact ((List.forall₂_and_left _ _).2 ⟨hall, mapM_eq_ok_iff.1 hts⟩).imp
      fun m s hms => ⟨hms.2, hms.1 s hms.2⟩

end LazyLint.Cst
