import LazyLint.Parse
import LazyLint.Proofs.Lowering

/-!
# What the goals refuse

The goals look at a tree with searches that keep a stack and, at a `return`, climb from the node to
the functions above it. Here both searches are one look at a list: `Place.all` holds the places that
named children lead to, in pre-order and each with the nodes above it. The search with the stack finds
the first place of the list that the goal forbids (`searchForbidden_eq`), and so does the recursion
that carries a flag in place of the nodes above (`violation_eq`).

The rest follows from membership in the list, which is being reached through named children
(`mem_all_iff`).
-/

namespace LazyLint.Cst

/-! ## The first error -/

theorem firstErrorIn_append (ms ns : List Node) :
    Node.firstErrorIn (ms ++ ns) = (Node.firstErrorIn ms).or (Node.firstErrorIn ns) := by
  induction ms with
  | nil => rfl
  | cons m ms ih =>
    rw [List.cons_append, Node.firstErrorIn, Node.firstErrorIn, ih]
    cases m.firstError <;> rfl

theorem firstError_eq (n : Node) :
    n.firstError =
      if n.isError then some n else if n.hasError then Node.firstErrorIn n.children else none := by
  obtain ⟨h, cs⟩ := n
  rw [Node.firstError]
  rfl

/-- The nodes on the stack are looked at one after another. -/
theorem searchError_eq (stack : List Node) : searchError stack = Node.firstErrorIn stack := by
  fun_induction searchError stack with
  | case1 => rfl
  | case2 n stack herr => rw [Node.firstErrorIn, firstError_eq, if_pos herr]
  | case3 n stack herr hbelow ih =>
    rw [ih, firstErrorIn_append, Node.firstErrorIn, firstError_eq, if_neg herr, if_pos hbelow]
    cases Node.firstErrorIn n.children <;> rfl
  | case4 n stack herr hnone ih =>
    rw [ih, Node.firstErrorIn, firstError_eq, if_neg herr, if_neg hnone]

theorem searchError_root (root : Node) : searchError [root] = root.firstError := by
  rw [searchError_eq, Node.firstErrorIn]
  cases root.firstError <;> rfl

/-! ## Places -/

namespace Place

theorem weight_lt_of_mem_below {p q : Place} (h : q ∈ p.below) : q.node.weight < p.node.weight := by
  obtain ⟨n, hn, rfl⟩ := List.mem_map.1 h
  have hle := Node.weight_le_of_mem (List.mem_filter.1 hn).1
  rw [Node.weight_eq p.node]
  dsimp only
  omega

/-- A place and those below it, in pre-order. -/
def all (p : Place) : List Place :=
  p :: p.below.attach.flatMap fun ⟨q, _⟩ => q.all
termination_by p.node.weight
decreasing_by exact weight_lt_of_mem_below ‹_›

theorem all_eq (p : Place) : p.all = p :: p.below.flatMap all := by
  rw [all]
  simp

theorem mem_all_self (p : Place) : p ∈ p.all := by
  rw [all_eq]
  exact List.mem_cons_self ..

/-- Whether a goal forbids the node in its place. -/
def isForbidden (goal : Goal) (p : Place) : Bool :=
  goal.forbids p.inside p.node.kind

theorem inside_of_mem_below {p q : Place} (h : q ∈ p.below) :
    q.inside = (p.inside || bodyKinds.contains p.node.kind) := by
  obtain ⟨n, -, rfl⟩ := List.mem_map.1 h
  rw [inside, List.any_cons, Bool.or_comm]
  rfl

theorem inside_eq_false_iff {p : Place} : p.inside = false ↔ ∀ a ∈ p.above, a.kind ∉ bodyKinds := by
  simp [inside]

end Place

/-- A place that named children lead to from a root. -/
inductive Reaches (root : Node) : Place → Prop
  | root : Reaches root { node := root }
  | child {p : Place} {n : Node} (h : Reaches root p) (hn : n ∈ p.node.namedChildren) :
    Reaches root { node := n, above := p.node :: p.above }

section Membership

variable {root : Node} {p q r : Place}

theorem reaches_of_mem_all (hp : Reaches root p) (hq : q ∈ p.all) : Reaches root q := by
  induction hw : p.node.weight using Nat.strongRecOn generalizing p with
  | _ w ih =>
    rw [Place.all_eq, List.mem_cons, List.mem_flatMap] at hq
    rcases hq with rfl | ⟨c, hc, hq⟩
    · exact hp
    · have hlt := Place.weight_lt_of_mem_below hc
      refine ih c.node.weight (hw ▸ hlt) ?_ hq rfl
      obtain ⟨n, hn, rfl⟩ := List.mem_map.1 hc
      exact hp.child hn

/-- With a place the list holds those right below it. -/
theorem mem_all_of_mem_below (hq : q ∈ p.all) (hr : r ∈ q.below) : r ∈ p.all := by
  induction hw : p.node.weight using Nat.strongRecOn generalizing p with
  | _ w ih =>
    rw [Place.all_eq, List.mem_cons, List.mem_flatMap] at hq ⊢
    rcases hq with rfl | ⟨c, hc, hq⟩
    · exact .inr ⟨r, hr, r.mem_all_self⟩
    · have hlt := Place.weight_lt_of_mem_below hc
      exact .inr ⟨c, hc, ih c.node.weight (hw ▸ hlt) hq rfl⟩

theorem mem_all_iff : p ∈ Place.all { node := root } ↔ Reaches root p := by
  constructor
  · exact reaches_of_mem_all .root
  · intro h
    induction h with
    | root => exact Place.mem_all_self _
    | child _ hn ih => exact mem_all_of_mem_below ih (List.mem_map_of_mem hn)

end Membership

/-! ## The first forbidden node -/

/-- The search finds the first place in pre-order that the goal forbids. -/
theorem searchForbidden_eq (goal : Goal) (stack : List Place) :
    searchForbidden goal stack =
      ((stack.flatMap Place.all).find? (Place.isForbidden goal)).map (·.node) := by
  fun_induction searchForbidden goal stack with
  | case1 => rfl
  | case2 p stack hp =>
    have hp : p.isForbidden goal = true := hp
    rw [List.flatMap_cons, Place.all_eq, List.cons_append, List.find?_cons_of_pos hp]
    rfl
  | case3 p stack hp ih =>
    have hp : ¬ p.isForbidden goal = true := hp
    rw [ih, List.flatMap_append, List.flatMap_cons, Place.all_eq, List.cons_append,
      List.find?_cons_of_neg hp]

theorem violationIn_eq (goal : Goal) (inside : Bool) (ns : List Node) :
    violationIn goal inside ns = (ns.filter (·.named)).findSome? (violation goal inside) := by
  induction ns with
  | nil => rfl
  | cons n ns ih =>
    rw [violationIn, List.filter_cons]
    split
    · rw [List.findSome?_cons, ih]
      cases violation goal inside n <;> rfl
    · exact ih

theorem violation_step (goal : Goal) (inside : Bool) (n : Node) :
    violation goal inside n =
      if goal.forbids inside n.kind then some n
      else n.namedChildren.findSome? (violation goal (inside || bodyKinds.contains n.kind)) := by
  obtain ⟨h, cs⟩ := n
  rw [violation, violationIn_eq]
  rfl

/-- So does the recursion with a flag. -/
theorem violation_eq (goal : Goal) (p : Place) :
    violation goal p.inside p.node = (p.all.find? (Place.isForbidden goal)).map (·.node) := by
  induction hw : p.node.weight using Nat.strongRecOn generalizing p with
  | _ w ih =>
    rw [violation_step, Place.all_eq]
    split
    · rename_i hp
      have hp : p.isForbidden goal = true := hp
      rw [List.find?_cons_of_pos hp]
      rfl
    · rename_i hp
      have hp : ¬ p.isForbidden goal = true := hp
      rw [List.find?_cons_of_neg hp, List.find?_flatMap, List.map_findSome?,
        ← Place.map_node_below, List.findSome?_map]
      refine findSome?_congr fun q hq => ?_
      have hlt := Place.weight_lt_of_mem_below hq
      rw [Function.comp_apply, ← Place.inside_of_mem_below hq]
      exact ih q.node.weight (hw ▸ hlt) q rfl

theorem searchForbidden_root (goal : Goal) (root : Node) :
    searchForbidden goal [{ node := root }] = violation goal false root := by
  have h := violation_eq goal { node := root }
  rw [searchForbidden_eq, List.flatMap_singleton, ← h]
  rfl

/-- A goal forbids something in a tree if it forbids a place that named children lead to. -/
theorem violation_ne_none_iff {goal : Goal} {root : Node} :
    violation goal false root ≠ none ↔ ∃ p, Reaches root p ∧ p.isForbidden goal = true := by
  have h := violation_eq goal { node := root }
  change violation goal false root = _ at h
  rw [h, ne_eq, Option.map_eq_none_iff, List.find?_eq_none]
  simp only [mem_all_iff]
  grind

/-! ## Refusals -/

theorem refusal?_of_error (goal : Goal) {root : Node} (h : root.hasError = true) :
    goal.refusal? root = some (.unexpectedToken ((root.firstError.map (·.row)).getD 0)) := by
  rw [Goal.refusal?, if_pos h, searchError_root]

theorem refusal?_of_no_error (goal : Goal) {root : Node} (h : root.hasError = false) :
    goal.refusal? root = (violation goal false root).map fun n =>
      match goal with
      | .module => .returnOutside n.row
      | .script => .moduleOnly n.row := by
  rw [Goal.refusal?, if_neg (by simp [h])]
  cases goal <;> exact congrArg _ (searchForbidden_root _ root)

theorem refusal?_ne_none_iff {goal : Goal} {root : Node} (h : root.hasError = false) :
    goal.refusal? root ≠ none ↔ ∃ p, Reaches root p ∧ p.isForbidden goal = true := by
  rw [refusal?_of_no_error goal h, ← violation_ne_none_iff, ne_eq, Option.map_eq_none_iff]

theorem isForbidden_module_iff {p : Place} :
    p.isForbidden .module = true ↔
      p.node.kind = "return_statement" ∧ ∀ a ∈ p.above, a.kind ∉ bodyKinds := by
  rw [← Place.inside_eq_false_iff]
  simp [Place.isForbidden, Goal.forbids]

theorem isForbidden_script_iff {p : Place} :
    p.isForbidden .script = true ↔
      p.node.kind = "import_statement" ∨ p.node.kind = "export_statement" := by
  simp [Place.isForbidden, Goal.forbids]

/-- The script goal names the row of the first import or export. -/
theorem refusal?_script {root : Node} (h : root.hasError = false) {why : Refusal}
    (hwhy : Goal.script.refusal? root = some why) :
    ∃ p, (Place.all { node := root }).find? (Place.isForbidden .script) = some p ∧
      why = .moduleOnly p.node.row := by
  rw [refusal?_of_no_error .script h] at hwhy
  obtain ⟨n, hn, rfl⟩ := Option.map_eq_some_iff.1 hwhy
  have hfind := violation_eq .script { node := root }
  change violation .script false root = _ at hfind
  rw [hn] at hfind
  obtain ⟨p, hp, rfl⟩ := Option.map_eq_some_iff.1 hfind.symm
  exact ⟨p, hp, rfl⟩

end LazyLint.Cst

/-! ## Parsing for the goals -/

namespace LazyLint.Parse

open Cst (Goal Node Place Reaches Refusal bodyKinds lower lowerDeep searchError searchForbidden
  violation)

variable {goal : Goal} {src : List UInt8} {root : Node} {why : Refusal}

theorem lowerFor_of_none (h : goal.refusal? root = none) :
    lowerFor goal src root = (lower src root).mapError .escape := by
  rw [lowerFor, h, Cst.lowerDeep_eq_lower]

theorem lowerFor_of_some (h : goal.refusal? root = some why) :
    lowerFor goal src root = .error (.refused goal why) := by
  rw [lowerFor, h]

theorem lowerFor_refused_iff (goal : Goal) (src : List UInt8) (root : Node) :
    (∃ why, lowerFor goal src root = .error (.refused goal why)) ↔ goal.refusal? root ≠ none := by
  cases h : goal.refusal? root with
  | none =>
    rw [lowerFor_of_none h]
    cases lower src root <;> simp [Except.mapError]
  | some why => simp [lowerFor_of_some h]

/-- A tree that some goal accepts is lowered, whichever goal it is. -/
theorem lowerEither_of_accepted (h : goal.refusal? root = none) :
    (lowerEither src root).2 = (lower src root).mapError .escape := by
  unfold lowerEither
  cases hm : Goal.module.refusal? root with
  | none =>
    rw [lowerFor_of_none hm]
    cases lower src root <;> rfl
  | some why =>
    have hs : Goal.script.refusal? root = none := by
      cases goal with
      | module =>
        rw [hm] at h
        cases h
      | script => exact h
    rw [lowerFor_of_some hm, lowerFor_of_none hs]
    cases lower src root <;> rfl

/-- A tree that the module goal refuses is left to the script goal. -/
theorem lowerEither_of_refused (h : Goal.module.refusal? root ≠ none) :
    (lowerEither src root).2 = lowerFor .script src root := by
  obtain ⟨why, hm⟩ := Option.ne_none_iff_exists'.1 h
  unfold lowerEither
  rw [lowerFor_of_some hm]
  dsimp only
  cases lowerFor .script src root <;> rfl

theorem lowerEither_refused_iff (src : List UInt8) (root : Node) :
    (∃ goal why, (lowerEither src root).2 = .error (.refused goal why)) ↔
      Goal.module.refusal? root ≠ none ∧ Goal.script.refusal? root ≠ none := by
  constructor
  · rintro ⟨goal, why, h⟩
    have haccepted : ∀ g : Goal, g.refusal? root ≠ none := by
      intro g hg
      rw [lowerEither_of_accepted hg] at h
      cases hl : lower src root <;> simp [hl, Except.mapError] at h
    exact ⟨haccepted .module, haccepted .script⟩
  · rintro ⟨hm, hs⟩
    obtain ⟨why, hwhy⟩ := (lowerFor_refused_iff .script src root).2 hs
    exact ⟨.script, why, by rw [lowerEither_of_refused hm, hwhy]⟩

/-- A goal refuses a tree for its first error or else for the first node that it forbids, which the
searches find as the recursions over the tree do. With an error the refusal is the same for every goal.
Without one, the module goal refuses a `return` that named children lead to past no function and no
method, the script goal an import or export that they lead to, and both together a tree that has one
of each; that refusal is the script goal's and names the first import or export. A tree that some goal
accepts is lowered, whichever goal it is. -/
theorem refused_iff_forbidden (src : List UInt8) (root : Node) :
    (searchError [root] = root.firstError ∧
      ∀ goal, searchForbidden goal [{ node := root }] = violation goal false root) ∧
    (root.hasError = true → ∃ row, row = (root.firstError.map (·.row)).getD 0 ∧
      (∀ goal, ∃ e, lowerFor goal src root = .error (.refused goal e) ∧
        e.message = "Unexpected token (line " ++ Nat.repr (row + 1) ++ ")") ∧
      (lowerEither src root).2 = lowerFor .script src root) ∧
    (root.hasError = false →
      ((∃ why, lowerFor .module src root = .error (.refused .module why)) ↔
        ∃ p, Reaches root p ∧ p.node.kind = "return_statement" ∧
          ∀ a ∈ p.above, a.kind ∉ bodyKinds) ∧
      ((∃ why, lowerFor .script src root = .error (.refused .script why)) ↔
        ∃ p, Reaches root p ∧
          (p.node.kind = "import_statement" ∨ p.node.kind = "export_statement")) ∧
      ((∃ goal why, (lowerEither src root).2 = .error (.refused goal why)) ↔
        (∃ why, lowerFor .module src root = .error (.refused .module why)) ∧
          ∃ why, lowerFor .script src root = .error (.refused .script why)) ∧
      (∀ goal why, (lowerEither src root).2 = .error (.refused goal why) →
        goal = .script ∧ lowerFor .script src root = .error (.refused .script why) ∧
          ∃ p, (Place.all { node := root }).find? (fun q =>
              q.node.kind = "import_statement" || q.node.kind = "export_statement") = some p ∧
            why = .moduleOnly p.node.row)) ∧
    (∀ goal, (¬ ∃ why, lowerFor goal src root = .error (.refused goal why)) →
      lowerFor goal src root = (lowerDeep src root).mapError .escape ∧
        (lowerEither src root).2 = (lowerDeep src root).mapError .escape) := by
  refine ⟨⟨Cst.searchError_root root, fun goal => Cst.searchForbidden_root goal root⟩, ?_, ?_, ?_⟩
  · intro herr
    have hrefused := fun goal : Goal => Cst.refusal?_of_error goal herr
    refine ⟨_, rfl, fun goal => ⟨_, lowerFor_of_some (hrefused goal), rfl⟩, ?_⟩
    exact lowerEither_of_refused (by simp [hrefused .module])
  · intro hok
    have hboth := lowerEither_refused_iff src root
    rw [← lowerFor_refused_iff .module src, ← lowerFor_refused_iff .script src] at hboth
    refine ⟨?_, ?_, hboth, ?_⟩
    · rw [lowerFor_refused_iff, Cst.refusal?_ne_none_iff hok]
      simp only [Cst.isForbidden_module_iff]
    · rw [lowerFor_refused_iff, Cst.refusal?_ne_none_iff hok]
      simp only [Cst.isForbidden_script_iff]
    · intro goal why h
      obtain ⟨hm, hs⟩ := (lowerEither_refused_iff src root).1 ⟨goal, why, h⟩
      obtain ⟨why', hwhy⟩ := Option.ne_none_iff_exists'.1 hs
      rw [lowerEither_of_refused hm, lowerFor_of_some hwhy] at h
      cases h
      exact ⟨rfl, lowerFor_of_some hwhy, Cst.refusal?_script hok hwhy⟩
  · intro goal h
    rw [lowerFor_refused_iff, ne_eq, not_not] at h
    rw [Cst.lowerDeep_eq_lower]
    exact ⟨lowerFor_of_none h, lowerEither_of_accepted h⟩

/-! ### A tree that both goals refuse -/

/-- A node on some row. -/
def onRow (kind : String) (row : Nat) (children : List Node) : Node :=
  .mk { kind, start := 0, stop := 0, row } children

/-- A `return` in a method, one outside of functions, an export in a block and an import after it. -/
def returnAndImport : Node :=
  onRow "program" 0
    [onRow "method_definition" 0 [onRow "return_statement" 0 []], onRow "return_statement" 1 [],
     onRow "statement_block" 2 [onRow "export_statement" 3 []], onRow "import_statement" 4 []]

theorem lowerEither_returnAndImport :
    (lowerEither [] returnAndImport).2 = .error (.refused .script (.moduleOnly 3)) := by
  obtain ⟨-, -, hrefused, -⟩ := refused_iff_forbidden [] returnAndImport
  obtain ⟨hmodule, hscript, hboth, hfirst⟩ := hrefused (by decide)
  have hreturn : Reaches returnAndImport
      { node := onRow "return_statement" 1 [], above := [returnAndImport] } :=
    .child .root (List.mem_of_getElem? (i := 1) rfl)
  have himport : Reaches returnAndImport
      { node := onRow "import_statement" 4 [], above := [returnAndImport] } :=
    .child .root (List.mem_of_getElem? (i := 3) rfl)
  obtain ⟨goal, why, h⟩ := hboth.2
    ⟨hmodule.2 ⟨_, hreturn, rfl, by decide⟩, hscript.2 ⟨_, himport, .inl rfl⟩⟩
  obtain ⟨rfl, -, p, hp, rfl⟩ := hfirst goal why h
  have hnode : violation .script false returnAndImport = some p.node :=
    (Cst.violation_eq .script { node := returnAndImport }).trans (congrArg (Option.map _) hp)
  have hrow : p.node = onRow "export_statement" 3 [] := (Option.some.inj hnode).symm
  rw [h, hrow]
  rfl

end LazyLint.Parse
