import LazyLint.Proofs.Faults
import LazyLint.Proofs.Goals
import LazyLint.Proofs.Sites

/-!
# Being inside a function

Two parts of the parser have a notion of what is inside a function. The module goal climbs the concrete
tree from a `return` and takes a method as a whole for a function; the walk over the lowered tree counts
functions, and lowering makes a function of the parameters and the body of a method only, since its key
and decorators are evaluated with the class.

`exposes_lower` compares them: in a tree of the grammar's shape, the module goal finds a `return` if and
only if the lowered tree has one above which neither a function nor a method stands. So the goal's check
is a walk for which methods open scopes as functions do, and the walk that counts functions meets one
more kind of `return` at the top level: those in the key or a decorator of a method.
-/

namespace LazyLint.Cst

/-! ## Returns in a concrete tree -/

/-- Nothing is returned below nodes that lowering drops or makes leaves of. -/
def Node.KeepsReturns (root : Node) : Prop :=
  ∀ n ∈ root.nodes, n.kind ∈ closedKinds ∨ isSkipped n.kind = true →
    ∀ m ∈ nodesAmong n.children, m.kind ≠ "return_statement"

/-- The module goal finds a `return` in a tree. -/
def Exposes (n : Node) : Prop :=
  violation .module false n ≠ none

section Concrete

variable {n c : Node}

theorem Node.KeepsReturns.child (h : n.KeepsReturns) (hc : c ∈ n.children) : c.KeepsReturns :=
  fun m hm => h m (mem_nodes_of_child hc hm)

/-- Nothing inside a function is forbidden in a module. -/
theorem violation_inside (n : Node) : violation .module true n = none := by
  induction hw : n.weight using Nat.strongRecOn generalizing n with
  | _ w ih =>
    rw [violation_step, if_neg (by simp [Goal.forbids]), Bool.true_or, List.findSome?_eq_none_iff]
    intro c hc
    have hle := Node.weight_le_of_mem (List.mem_filter.1 hc).1
    rw [Node.weight_eq] at hw
    exact ih c.weight (by omega) c rfl

theorem exposes_iff : Exposes n ↔
    n.kind = "return_statement" ∨ n.kind ∉ bodyKinds ∧ ∃ c ∈ n.namedChildren, Exposes c := by
  unfold Exposes
  rw [violation_step]
  by_cases hreturn : n.kind = "return_statement"
  · simp [hreturn, Goal.forbids]
  · rw [if_neg (by simp [hreturn, Goal.forbids])]
    by_cases hbody : n.kind ∈ bodyKinds
    · simp [hreturn, hbody, violation_inside]
    · simp [hreturn, hbody]

/-- What a tree exposes is one of its nodes. -/
theorem exists_return (h : Exposes n) : ∃ m ∈ n.nodes, m.kind = "return_statement" := by
  induction hw : n.weight using Nat.strongRecOn generalizing n with
  | _ w ih =>
    rcases exposes_iff.1 h with hreturn | ⟨-, c, hc, hexposes⟩
    · exact ⟨n, n.mem_nodes_self, hreturn⟩
    · have hchild := (List.mem_filter.1 hc).1
      have hle := Node.weight_le_of_mem hchild
      rw [Node.weight_eq] at hw
      obtain ⟨m, hm, hreturn⟩ := ih c.weight (by omega) hexposes rfl
      exact ⟨m, mem_nodes_of_child hchild hm, hreturn⟩

theorem not_exposes_of_dropped (hr : n.KeepsReturns)
    (hk : n.kind ∈ closedKinds ∨ isSkipped n.kind = true) (hc : c ∈ n.children) : ¬ Exposes c := by
  intro h
  obtain ⟨m, hm, hreturn⟩ := exists_return h
  exact hr n n.mem_nodes_self hk m (mem_nodesAmong hc hm) hreturn

theorem not_exposes_skipped (hr : n.KeepsReturns) (hk : isSkipped n.kind = true) : ¬ Exposes n := by
  intro h
  rcases exposes_iff.1 h with hreturn | ⟨-, c, hc, hexposes⟩
  · rw [hreturn] at hk
    exact absurd hk (by decide)
  · exact not_exposes_of_dropped hr (.inr hk) (List.mem_filter.1 hc).1 hexposes

/-- Comments expose nothing. -/
theorem exposes_named_iff_kept (hr : n.KeepsReturns) :
    (∃ c ∈ n.namedChildren, Exposes c) ↔ ∃ c ∈ kept n.children, Exposes c := by
  constructor
  · rintro ⟨c, hc, h⟩
    obtain ⟨hmem, hnamed⟩ := List.mem_filter.1 hc
    refine ⟨c, List.mem_filter.2 ⟨hmem, ?_⟩, h⟩
    have hskip : isSkipped c.kind = false := by
      by_contra hs
      exact not_exposes_skipped (hr.child hmem) (by simpa using hs) h
    simp [hnamed, hskip]
  · rintro ⟨c, hc, h⟩
    obtain ⟨hmem, hkept⟩ := List.mem_filter.1 hc
    rw [Bool.and_eq_true] at hkept
    exact ⟨c, List.mem_filter.2 ⟨hmem, hkept.1⟩, h⟩

end Concrete

/-! ## Returns in a lowered tree -/

/-- A `return` at the top level of a tree in which nodes of some kinds open scopes. -/
def Bare (kinds : List String) (t : Ast.Node) : Prop :=
  ∃ p ∈ t.visits, p.node.kind? = some "return_statement" ∧ p.depth kinds = 0

theorem bare_iff {kinds : List String} {t : Ast.Node} {ts : List Ast.Node} (hp : t.parts? = .ok ts) :
    Bare kinds t ↔
      t.kind? = some "return_statement" ∨ t.opens kinds = false ∧ ∃ s ∈ ts, Bare kinds s := by
  unfold Bare
  rw [Ast.Node.visits_eq, Ast.Node.parts_eq hp]
  constructor
  · rintro ⟨p, hmem, hreturn, hdepth⟩
    rcases List.mem_cons.1 hmem with rfl | hmem
    · exact .inl hreturn
    · obtain ⟨s, hs, hmem⟩ := List.mem_flatMap.1 hmem
      obtain ⟨q, hq, rfl⟩ := List.mem_map.1 hmem
      rw [Ast.Placed.depth_under] at hdepth
      refine .inr ⟨?_, s, hs, q, hq, hreturn, by omega⟩
      by_contra hopen
      simp [hopen] at hdepth
  · rintro (hreturn | ⟨hopen, s, hs, q, hq, hreturn, hdepth⟩)
    · exact ⟨_, List.mem_cons_self .., hreturn, rfl⟩
    · refine ⟨q.under t, List.mem_cons_of_mem _ (List.mem_flatMap.2 ⟨s, hs, List.mem_map_of_mem hq⟩),
        hreturn, ?_⟩
      rw [Ast.Placed.depth_under, hopen, hdepth]
      rfl

/-! ## The two agree -/

/-- A tree of the grammar's shape exposes a `return` if its lowered tree does. -/
def Agrees (n : Node) (t : Ast.Node) : Prop :=
  n.Shaped → n.KeepsReturns → (Exposes n ↔ Bare bodyKinds t)

section Agree

variable {src : List UInt8} {n : Node} {t : Ast.Node} {ts : List Ast.Node}

/-- What lowering and the induction give for a node that was looked at. -/
abbrev Compared (src : List UInt8) (m : Node) (s : Ast.Node) : Prop :=
  lower src m = .ok s ∧ Agrees m s

theorem opens_of_kind (h : t.kind? = some n.kind) :
    t.opens bodyKinds = decide (n.kind ∈ bodyKinds) := by
  simp [Ast.Node.opens, h]

theorem exists_exposes_iff {ms : List Node} (h : List.Forall₂ (Compared src) ms ts)
    (hms : ∀ m ∈ ms, m.Shaped ∧ m.KeepsReturns) :
    (∃ m ∈ ms, Exposes m) ↔ ∃ s ∈ ts, Bare bodyKinds s := by
  induction h with
  | nil => simp
  | cons hm _ ih =>
    obtain ⟨hs, hr⟩ := hms _ (List.mem_cons_self ..)
    rw [List.exists_mem_cons_iff, List.exists_mem_cons_iff, hm.2 hs hr,
      ih fun m hm => hms m (List.mem_cons_of_mem _ hm)]

/-- A node that lowering keeps with its children. -/
theorem agrees_transparent (hbody : n.kind ∉ bodyKinds) (hkind : t.kind? = some n.kind)
    (hp : t.parts? = .ok ts) (h : List.Forall₂ (Compared src) (kept n.children) ts) :
    Agrees n t := by
  intro hs hr
  have hbelow := exists_exposes_iff h fun m hm =>
    ⟨hs.child (mem_of_kept hm), hr.child (mem_of_kept hm)⟩
  rw [exposes_iff, bare_iff hp, exposes_named_iff_kept hr, hbelow, hkind, opens_of_kind hkind]
  simp [hbody]

/-- Below a function or a method nothing is exposed. -/
theorem agrees_body (hbody : n.kind ∈ bodyKinds) (hkind : t.kind? = some n.kind)
    (hp : t.parts? = .ok ts) : Agrees n t := by
  intro _ _
  have hreturn : n.kind ≠ "return_statement" := by
    rintro h
    rw [h] at hbody
    exact absurd hbody (by decide)
  rw [exposes_iff, bare_iff hp, hkind, opens_of_kind hkind]
  simp [hbody, hreturn]

/-- Nothing is exposed where nothing is returned. -/
theorem agrees_closed (hclosed : n.kind ∈ closedKinds) (hkind : t.kind? = some n.kind)
    (hp : t.parts? = .ok ts) {ms : List Node} (h : List.Forall₂ (Compared src) ms ts)
    (hms : ∀ m ∈ ms, m ∈ n.children) : Agrees n t := by
  intro hs hr
  have hreturn : n.kind ≠ "return_statement" := by
    rintro h
    rw [h] at hclosed
    exact absurd hclosed (by decide)
  have hquiet : ∀ c ∈ n.children, ¬ Exposes c := fun c =>
    not_exposes_of_dropped hr (.inl hclosed)
  have hbelow := exists_exposes_iff h fun m hm => ⟨hs.child (hms m hm), hr.child (hms m hm)⟩
  rw [exposes_iff, bare_iff hp, hkind, ← hbelow]
  constructor
  · rintro (h | ⟨-, c, hc, hexposes⟩)
    · exact absurd h hreturn
    · exact absurd hexposes (hquiet c (List.mem_filter.1 hc).1)
  · rintro (h | ⟨-, m, hm, hexposes⟩)
    · exact absurd (Option.some.inj h) hreturn
    · exact absurd hexposes (hquiet m (hms m hm))

theorem agrees_leaf (hclosed : n.kind ∈ closedKinds) (hkind : t.kind? = some n.kind)
    (hp : t.parts? = .ok []) : Agrees n t := by
  have hnone : List.Forall₂ (Compared []) [] [] := .nil
  exact agrees_closed hclosed hkind hp hnone (List.forall_mem_nil _)

/-- An argument list exposes what its elements expose; a template is an argument of its own. -/
theorem exposes_arguments (hr : n.KeepsReturns) {args : Node}
    (hargs : n.childByField "arguments" = some args)
    (hkind : args.kind = "arguments" ∨ args.kind = "template_string") :
    Exposes args ↔ ∃ m ∈ Plan.arguments n, Exposes m := by
  rw [Plan.arguments, hargs]
  rcases hkind with hk | hk
  · have hrargs := hr.child (mem_of_childByField hargs)
    have hbody : "arguments" ∉ bodyKinds := by decide
    rw [exposes_iff, exposes_named_iff_kept hrargs]
    simp [hk, hbody]
  · simp [hk]

theorem agrees_call (hk : n.kind = "call_expression") {f : Node} {callee : Ast.Node}
    (hf : n.childByField "function" = some f) (hc : Compared src f callee)
    (ha : List.Forall₂ (Compared src) (Plan.arguments n) ts) : Agrees n (.call callee (.items ts)) := by
  intro hs hr
  obtain ⟨f', chain, args, hf', hargs, hkind, hkept, hchain⟩ := hs.fits.call hk
  obtain rfl : f' = f := Option.some.inj (hf'.symm.trans hf)
  have hparts : (Ast.Node.call callee (.items ts)).parts? = .ok (callee :: ts) := by
    rw [Ast.parts?_call, filter_isNode_of_forall₂ (fun _ _ h => h.1) (.cons hc ha)]
  have hquiet : ¬ ∃ c ∈ chain, Exposes c := by
    rintro ⟨c, hcm, hexposes⟩
    obtain ⟨hck, hcc⟩ := hchain c hcm
    rw [exposes_iff, Node.namedChildren, hcc] at hexposes
    simp [hck] at hexposes
  have hinputs : ∀ m ∈ f' :: Plan.arguments n, m.Shaped ∧ m.KeepsReturns := by
    have hcall : (Plan.call n).inputs = f' :: Plan.arguments n := by
      rw [Plan.call, hf]
      rfl
    rw [← hcall]
    exact of_call (P := fun m => m.Shaped ∧ m.KeepsReturns)
      (fun m hm c hc => ⟨hm.1.child hc, hm.2.child hc⟩) ⟨hs, hr⟩
  have hbelow := exists_exposes_iff (.cons hc ha) hinputs
  have hbody : "call_expression" ∉ bodyKinds := by decide
  have hnamed : (∃ c ∈ f' :: (chain ++ [args]), Exposes c) ↔
      ∃ m ∈ f' :: Plan.arguments n, Exposes m := by
    have hargsExposes := exposes_arguments hr hargs hkind
    simp only [List.mem_cons, List.mem_append, List.not_mem_nil, or_false]
    grind
  rw [exposes_iff, exposes_named_iff_kept hr, hkept, hnamed, bare_iff hparts, ← hbelow,
    opens_of_kind (n := n) (by rw [hk]; rfl)]
  simp [hk, hbody, Ast.Node.kind?]

/-- The module goal finds a `return` in a tree of the grammar's shape if and only if the lowered tree
has one that is below no function and no method. -/
theorem exposes_lower (h : lower src n = .ok t) : Agrees n t := by
  refine lower_induction (motive := Agrees) (fun n t h => ?_) h
  have hkind := h.kind
  have hR : ∀ m s, Compared src m s → lower src m = .ok s := fun _ _ h => h.1
  cases h with
  | program hk h =>
    refine agrees_transparent (by rw [hk]; decide) hkind ?_ h
    rw [Ast.parts?_program, filter_isNode_of_forall₂ hR h]
  | string hk _ => exact agrees_leaf (by rw [hk]; decide) hkind (Ast.parts?_string _)
  | ident hk => exact agrees_leaf (by rw [hk]; decide) hkind (Ast.parts?_ident _)
  | importOp hk => exact agrees_leaf (by rw [hk]; decide) hkind Ast.parts?_importOp
  | importDecl hk hss hcs =>
    refine agrees_closed (by rw [hk]; decide) hkind (parts_lowered_importDecl hR hss hcs)
      (List.rel_append hcs hss) fun m hm => ?_
    rcases List.mem_append.1 hm with hm | hm
    · exact mem_of_clause (Option.mem_toList.1 hm)
    · exact mem_of_childByField (Option.mem_toList.1 hm)
  | call hk hf hc ha => exact agrees_call hk hf hc ha
  | function hk hu hp hb =>
    exact agrees_body (List.mem_append_left _ hk) hkind (parts_lowered_function hR hk hu hp hb)
  | method hk _ _ _ => exact agrees_body (by rw [hk]; decide) hkind (Ast.parts?_plain _ _)
  | bareCall hk hf _ =>
    intro hs
    obtain ⟨callee, _, _, hcallee, _⟩ := hs.fits.call hk
    rw [hf] at hcallee
    cases hcallee
  | plain hk hf h =>
    have hbody : n.kind ∉ bodyKinds := by
      simp only [Plan.ownKinds, List.mem_cons, List.not_mem_nil, not_or] at hk
      simp [bodyKinds, hf, hk]
    refine agrees_transparent hbody hkind ?_ h
    rw [Ast.parts?_plain, filter_isNode_of_forall₂ hR h]

end Agree

/-! ## The check and the walk -/

/-- The visitor that notes whether it is shown a `return` at the top level. -/
def sawReturn : Ast.Visitor Bool Empty :=
  fun n depth seen => (seen || (n.kind? = some "return_statement" && depth = 0), none)

theorem foldl_sawReturn {kinds : List String} (ps : List Ast.Placed) (seen : Bool) :
    ps.foldl (Ast.shown sawReturn { boundaryKinds := kinds }) seen =
      (seen || ps.any fun p => p.node.kind? = some "return_statement" && p.depth kinds = 0) := by
  induction ps generalizing seen with
  | nil => simp
  | cons p ps ih =>
    rw [List.foldl_cons, ih, List.any_cons, ← Bool.or_assoc, Ast.shown, Nat.zero_add]
    rfl

/-- A walk with room for a lowered tree comes to its end and has seen the returns at the top level. -/
theorem walk_sawReturn {src : List UInt8} {root : Node} {tree : Ast.Node}
    (ht : lower src root = .ok tree) (kinds : List String) {room : Nat} (hroom : tree.height ≤ room) :
    (Ast.walk sawReturn room tree { boundaryKinds := kinds } false).halt = none ∧
      ((Ast.walk sawReturn room tree { boundaryKinds := kinds } false).state = true ↔
        Bare kinds tree) := by
  have hgo : ∀ p ∈ tree.visits, ∀ d seen, (sawReturn p.node d seen).2 = none := fun _ _ _ _ => rfl
  have hend : (Ast.walk sawReturn room tree { boundaryKinds := kinds } false).halt = none := by
    rcases Ast.walk_halt hgo (lower_sound ht) room { boundaryKinds := kinds } false with h | ⟨_, hlt⟩
    · exact h
    · omega
  refine ⟨hend, ?_⟩
  rw [Ast.walk_eq_foldl hend, foldl_sawReturn]
  simp [Bare]

/-- A `return` below a method but in no function: in its key or a decorator, since what else it has is
below the function of its value. -/
def InKey (p : Ast.Placed) : Prop :=
  p.node.kind? = some "return_statement" ∧ p.depth Ast.functionKinds = 0 ∧
    ∃ a ∈ p.above, a.kind? = some "method_definition"

theorem opens_bodyKinds_iff {a : Ast.Node} :
    a.opens bodyKinds = true ↔
      a.opens Ast.functionKinds = true ∨ a.kind? = some "method_definition" := by
  cases h : a.kind? with
  | none => simp [Ast.Node.opens, h]
  | some kind => simp [Ast.Node.opens, h, bodyKinds]

theorem bare_functionKinds_iff {t : Ast.Node} :
    Bare Ast.functionKinds t ↔ Bare bodyKinds t ∨ ∃ p ∈ t.visits, InKey p := by
  constructor
  · rintro ⟨p, hp, hreturn, hdepth⟩
    by_cases hmethod : ∃ a ∈ p.above, a.kind? = some "method_definition"
    · exact .inr ⟨p, hp, hreturn, hdepth, hmethod⟩
    · refine .inl ⟨p, hp, hreturn, Ast.Placed.depth_eq_zero_iff.2 fun a ha => ?_⟩
      rw [← Bool.not_eq_true, opens_bodyKinds_iff, not_or, Bool.not_eq_true]
      exact ⟨Ast.Placed.depth_eq_zero_iff.1 hdepth a ha, fun hkind => hmethod ⟨a, ha, hkind⟩⟩
  · rintro (⟨p, hp, hreturn, hdepth⟩ | ⟨p, hp, hreturn, hdepth, -⟩)
    · refine ⟨p, hp, hreturn, Ast.Placed.depth_eq_zero_iff.2 fun a ha => ?_⟩
      have hopen := Ast.Placed.depth_eq_zero_iff.1 hdepth a ha
      rw [← Bool.not_eq_true, opens_bodyKinds_iff, not_or, Bool.not_eq_true] at hopen
      exact hopen.1
    · exact ⟨p, hp, hreturn, hdepth⟩

/-- The module goal's check and the walk over the lowered tree, for a tree of the grammar's shape. The
check passes a tree if and only if a walk for which methods open scopes as functions do meets no
`return` at the top level. The walk that counts functions meets none if and only if the check passes
and no `return` is in the key or a decorator of a method: there the check takes for a function what is
none. -/
theorem check_eq_walk_unless_keyed {src : List UInt8} {root : Node} {tree : Ast.Node} {room : Nat}
    (hs : root.Shaped) (hr : root.KeepsReturns) (ht : lowerDeep src root = .ok tree)
    (hroom : tree.height ≤ room) :
    (∀ kinds, (Ast.walk sawReturn room tree { boundaryKinds := kinds } false).halt = none) ∧
    (searchForbidden .module [{ node := root }] = none ↔
      (Ast.walk sawReturn room tree { boundaryKinds := bodyKinds } false).state = false) ∧
    ((Ast.walk sawReturn room tree {} false).state = false ↔
      searchForbidden .module [{ node := root }] = none ∧ ∀ p ∈ tree.visits, ¬ InKey p) := by
  rw [lowerDeep_eq_lower] at ht
  have hcheck : searchForbidden .module [{ node := root }] = none ↔ ¬ Bare bodyKinds tree := by
    rw [searchForbidden_root, ← exposes_lower ht hs hr, Exposes, not_not]
  have hwalk := fun kinds => (walk_sawReturn ht kinds hroom).2
  refine ⟨fun kinds => (walk_sawReturn ht kinds hroom).1, ?_, ?_⟩
  · rw [hcheck, ← hwalk, Bool.not_eq_true]
  · have hfunctions := hwalk Ast.functionKinds
    rw [hcheck, ← Bool.not_eq_true, hfunctions, bare_functionKinds_iff, not_or]
    simp only [not_exists, not_and]

/-! ### A method whose key returns -/

/-- The method definition `[class{static{return}}](){}`. -/
def keyedReturn : Node :=
  sample "method_definition" 0 27 none
    [sample "computed_property_name" 0 23 (some "name")
      [sample "class" 1 22 none
        [sample "class_body" 6 22 (some "body")
          [sample "class_static_block" 7 21 none
            [sample "statement_block" 13 21 (some "body")
              [sample "return_statement" 14 20 none []]]]]],
     sample "formal_parameters" 23 25 (some "parameters") [],
     sample "statement_block" 25 27 (some "body") []]

theorem shaped_keyedReturn : keyedReturn.Shaped := by
  have hmethod : Fits keyedReturn := by
    refine fits_of_method [_] rfl (by decide) rfl (by simp [sample]) fun ps h => ?_
    cases h
    rfl
  have hothers : ∀ n ∈ nodesAmong keyedReturn.children, (n.children.map Node.span).Nodup ∧
      n.kind ∉ "call_expression" :: bodyKinds ∧ n.kind ∉ closedKinds := by
    decide
  intro n hn
  rw [Node.nodes_eq, List.mem_cons] at hn
  rcases hn with rfl | hn
  · exact hmethod
  · obtain ⟨hspans, hkind, hclosed⟩ := hothers n hn
    exact fits_of_kind n.kind rfl hspans hkind fun h => absurd h hclosed

/-- What lowering makes of it: the key stands beside the function, not in it. -/
def keyedReturnLowered : Ast.Node :=
  .plain "method_definition" (.items
    [.plain "computed_property_name" (.items [.plain "class" (.items [.plain "class_body" (.items
      [.plain "class_static_block" (.items [.plain "statement_block" (.items
        [.plain "return_statement" (.items [])])])])])]),
     .function "function_expression" .absent (.items []) (.plain "statement_block" (.items []))])

/-- The check passes the method, the walk meets its `return` at the top level. -/
theorem check_keyedReturn :
    lowerDeep [] keyedReturn = .ok keyedReturnLowered ∧
      searchForbidden .module [{ node := keyedReturn }] = none ∧
      (Ast.walk sawReturn 7 keyedReturnLowered {} false).state = true ∧
      ∃ p ∈ keyedReturnLowered.visits, InKey p := by
  have ht : lowerDeep [] keyedReturn = .ok keyedReturnLowered := by
    rw [lowerDeep_eq_lower]
    rfl
  have hr : keyedReturn.KeepsReturns := by
    have hnone : ∀ n ∈ keyedReturn.nodes, ¬ (n.kind ∈ closedKinds ∨ isSkipped n.kind = true) := by
      decide
    exact fun n hn hkind => absurd hkind (hnone n hn)
  have hroom : keyedReturnLowered.height ≤ 7 := by decide
  obtain ⟨-, hcheck, hwalk⟩ := check_eq_walk_unless_keyed shaped_keyedReturn hr ht hroom
  have hpasses := hcheck.2 rfl
  have hmeets : (Ast.walk sawReturn 7 keyedReturnLowered {} false).state = true := rfl
  refine ⟨ht, hpasses, hmeets, ?_⟩
  by_contra hnone
  have hclean := hwalk.2 ⟨hpasses, fun p hp hkey => hnone ⟨p, hp, hkey⟩⟩
  rw [hmeets] at hclean
  cases hclean

end LazyLint.Cst
