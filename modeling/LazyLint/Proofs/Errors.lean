import LazyLint.Proofs.Goals
import LazyLint.Proofs.Shape

/-!
# The first error

The search for the first error goes by the flags of the nodes: a subtree whose root is not flagged is
taken off the stack unseen, and the children of a flagged node are put in its stead. Here the same node is
found without flags and without a stack, in the list of all the nodes of the tree: `searchError_nodes`.
No error is passed over, since a node is flagged if anything below it is an error
(`hasError_of_mem_nodes`); that a flagged root leads to one is what flags say that are `Truthful`.
-/

namespace LazyLint.Cst

/-! ## Flags -/

/-- A node of the tree is flagged just if it or something below it is an error. -/
def Node.Truthful (root : Node) : Prop :=
  ∀ n ∈ root.nodes, n.hasError = true ↔ ∃ m ∈ n.nodes, m.isError = true

instance (root : Node) : Decidable root.Truthful :=
  List.decidableBAll (fun n : Node => n.hasError = true ↔ ∃ m ∈ n.nodes, m.isError = true) root.nodes

section Flags

variable {n m : Node} {ns : List Node}

theorem hasError_eq (n : Node) : n.hasError = (n.head.flagged || n.isError || Node.anyError n.children) := by
  obtain ⟨h, cs⟩ := n
  rw [Node.hasError, Bool.or_assoc h.flagged]
  rfl

theorem anyError_eq_any (ns : List Node) : Node.anyError ns = ns.any Node.hasError := by
  induction ns with
  | nil => rfl
  | cons n ns ih => rw [Node.anyError, ih, List.any_cons]

theorem hasError_of_mem_nodes (hm : m ∈ n.nodes) (herr : m.isError = true) : n.hasError = true := by
  induction hw : n.weight using Nat.strongRecOn generalizing n with
  | _ w ih =>
    rw [Node.nodes_eq, List.mem_cons, nodesAmong_eq, List.mem_flatMap] at hm
    rw [hasError_eq]
    rcases hm with rfl | ⟨c, hc, hm⟩
    · rw [herr, Bool.or_true, Bool.true_or]
    · have hle := Node.weight_le_of_mem hc
      have hlt : c.weight < w := by
        rw [← hw, Node.weight_eq n]
        omega
      have hbelow : Node.anyError n.children = true := by
        rw [anyError_eq_any, List.any_eq_true]
        exact ⟨c, hc, ih c.weight hlt hm rfl⟩
      rw [hbelow, Bool.or_true]

end Flags

/-! ## The search -/

/-- The search goes through all the nodes on the stack and below it in pre-order. -/
theorem searchError_nodes (stack : List Node) :
    searchError stack = (stack.flatMap Node.nodes).find? Node.isError := by
  fun_induction searchError stack with
  | case1 => rfl
  | case2 n stack herr =>
    rw [List.flatMap_cons, Node.nodes_eq, List.cons_append, List.find?_cons_of_pos herr]
  | case3 n stack herr hflag ih =>
    rw [ih, List.flatMap_append, List.flatMap_cons, Node.nodes_eq, nodesAmong_eq, List.cons_append,
      List.find?_cons_of_neg herr]
  | case4 n stack herr hflag ih =>
    -- nothing in the subtree is an error, so it may be left out of the list
    have hnone : n.nodes.find? Node.isError = none := by
      rw [List.find?_eq_none]
      intro m hm hmerr
      exact hflag (hasError_of_mem_nodes hm hmerr)
    rw [ih, List.flatMap_cons, List.find?_append, hnone, Option.none_or]

theorem searchError_root_nodes (root : Node) : searchError [root] = root.nodes.find? Node.isError := by
  rw [searchError_nodes, List.flatMap_singleton]

end LazyLint.Cst

namespace LazyLint.Parse

open Cst (Goal Node Refusal searchError)

/-- The search for the first error finds the first of all the nodes of the tree, in pre-order, that is an
error. Where the flags are truthful and the root is flagged there is one, and every goal refuses the
tree with the line of that node. -/
theorem refused_at_first_error {root : Node} (htrue : root.Truthful) (src : List UInt8) :
    searchError [root] = root.nodes.find? Node.isError ∧
    (root.hasError = true → ∃ before e after, root.nodes = before ++ e :: after ∧
      (∀ n ∈ before, n.isError = false) ∧ e.isError = true ∧ searchError [root] = some e ∧
      ∀ goal, ∃ why, lowerFor goal src root = .error (.refused goal why) ∧
        why.message = "Unexpected token (line " ++ Nat.repr (e.row + 1) ++ ")") := by
  have hsearch := Cst.searchError_root_nodes root
  refine ⟨hsearch, fun hroot => ?_⟩
  obtain ⟨m, hm, herr⟩ := (htrue root root.mem_nodes_self).1 hroot
  cases hfind : root.nodes.find? Node.isError with
  | none => exact absurd herr (List.find?_eq_none.1 hfind m hm)
  | some e =>
    obtain ⟨he, before, after, hnodes, hbefore⟩ := List.find?_eq_some_iff_append.1 hfind
    refine ⟨before, e, after, hnodes, ?_, he, hsearch.trans hfind, fun goal => ?_⟩
    · intro n hn
      simpa using hbefore n hn
    · have hrefusal : goal.refusal? root = some (.unexpectedToken e.row) := by
        rw [Goal.refusal?, if_pos hroot, hsearch, hfind]
        rfl
      exact ⟨_, lowerFor_of_some hrefusal, rfl⟩

/-! ### A token that is missing before text that is refused -/

/-- A node on some row, flagged as one that has an error. -/
def flaggedOn (kind : String) (row : Nat) (children : List Node) : Node :=
  .mk { kind, start := 0, stop := 0, row, flagged := true } children

/-- A statement without an error, one in which a token of no width is missing, and refused text with an
error inside it. -/
def threeErrors : Node :=
  flaggedOn "program" 0
    [onRow "empty_statement" 0 [],
     flaggedOn "expression_statement" 1
      [onRow "identifier" 1 [], .mk { kind := ";", start := 0, stop := 0, row := 2, missing := true } []],
     flaggedOn "ERROR" 3 [onRow "ERROR" 4 []]]

theorem refused_at_missing_token :
    threeErrors.Truthful ∧ ∃ why, lowerFor .module [] threeErrors = .error (.refused .module why) ∧
      why.message = "Unexpected token (line 3)" := by
  have htrue : threeErrors.Truthful := by decide
  obtain ⟨hsearch, hrefused⟩ := refused_at_first_error htrue []
  obtain ⟨before, e, after, -, -, -, hfound, hgoals⟩ := hrefused rfl
  have hrow : e.row = 2 := by
    rw [hsearch] at hfound
    cases hfound
    rfl
  obtain ⟨why, hwhy, hmessage⟩ := hgoals .module
  rw [hrow] at hmessage
  exact ⟨htrue, why, hwhy, hmessage⟩

end LazyLint.Parse
