import LazyLint.Proofs.Escapes
import LazyLint.Proofs.Lowering

/-!
# What lowering can fail on

Only the plan of a string literal can fail, on an escape that has no value. Lowering does not come by
every literal of a tree: it plans the nodes that the plans before them ask for (`asked`).
`fault?_lower` says that it ends in the fault of the first of these plans, in the order in which they
are made, and `fault?_lower_eq` traces the fault to the escapes of the literals among them.
-/

namespace LazyLint.Cst

section Literal

variable (src : List UInt8)

/-- The source text of a node. -/
def Node.text (n : Node) : Text :=
  Utf8.text src n.start n.stop

/-- Whether a node is an escape. -/
def Node.isEscape (n : Node) : Bool :=
  n.named && n.kind = "escape_sequence"

theorem stringPieces_cons_escape {n : Node} (hn : n.isEscape = true) (stop : Int) (pos : Nat)
    (ns : List Node) :
    stringPieces src stop pos (n :: ns) = (do
      let value ← Escape.decode (n.text src)
      return Utf8.text src pos n.start ++ value ++ (← stringPieces src stop n.stop ns)) := by
  rw [stringPieces]
  exact if_pos hn

theorem stringPieces_cons_other {n : Node} (hn : ¬ n.isEscape = true) (stop : Int) (pos : Nat)
    (ns : List Node) : stringPieces src stop pos (n :: ns) = stringPieces src stop pos ns := by
  rw [stringPieces]
  exact if_neg hn

theorem fault?_stringPieces (stop : Int) (pos : Nat) (ns : List Node) :
    fault? (stringPieces src stop pos ns) =
      (ns.filter Node.isEscape).findSome? fun e => fault? (Escape.decode (e.text src)) := by
  induction ns generalizing pos with
  | nil => rfl
  | cons n ns ih =>
    by_cases hn : n.isEscape = true
    · rw [stringPieces_cons_escape src hn, List.filter_cons_of_pos hn, List.findSome?_cons, ← ih n.stop]
      cases Escape.decode (n.text src) with
      | error f => rfl
      | ok value => cases stringPieces src stop n.stop ns <;> rfl
    · rw [stringPieces_cons_other src hn, List.filter_cons_of_neg hn, ih]

end Literal

section Asked

variable {src : List UInt8}

/-- The nodes that lowering plans, in the order in which it does. -/
def asked (src : List UInt8) (n : Node) : List Node :=
  n :: match _h : plan src n with
    | .error _ => []
    | .ok p => p.inputs.attach.flatMap fun ⟨m, _⟩ => asked src m
termination_by n.weight
decreasing_by
  have hlt := weights_inputs_lt ‹_›
  have hle := Node.weight_le_of_mem ‹_›
  omega

theorem asked_of_ok {n : Node} {p : Plan} (h : plan src n = .ok p) :
    asked src n = n :: p.inputs.flatMap (asked src) := by
  rw [asked]
  split
  · rename_i f hf
    rw [h] at hf
    cases hf
  · rename_i q hq
    rw [h] at hq
    cases hq
    simp

theorem asked_of_error {n : Node} {f : Escape.Fault} (h : plan src n = .error f) :
    asked src n = [n] := by
  rw [asked]
  split
  · rfl
  · rename_i q hq
    rw [h] at hq
    cases hq

section Hereditary

variable {P : Node → Prop} (hchild : ∀ n, P n → ∀ c ∈ n.children, P c) {n : Node}
include hchild

theorem of_kept (hn : P n) : ∀ m ∈ kept n.children, P m :=
  fun m hm => hchild n hn m (List.mem_filter.1 hm).1

theorem of_childByField (hn : P n) (field : String) : ∀ m ∈ (n.childByField field).toList, P m :=
  fun m hm => hchild n hn m (List.mem_of_find?_eq_some (Option.mem_toList.1 hm))

theorem of_parameters (hn : P n) : ∀ m ∈ Plan.parameters n, P m := by
  unfold Plan.parameters
  split
  · exact List.forall_mem_nil _
  · rename_i list hlist
    exact of_kept hchild (of_childByField hchild hn _ list (Option.mem_toList.2 hlist))

theorem of_call (hn : P n) : ∀ m ∈ (Plan.call n).inputs, P m := by
  unfold Plan.call
  split
  · exact of_kept hchild hn
  · rename_i callee hcallee
    refine List.forall_mem_cons.2 ⟨of_childByField hchild hn _ callee (Option.mem_toList.2 hcallee), ?_⟩
    split
    · exact List.forall_mem_nil _
    · rename_i list hlist
      have hlist := of_childByField hchild hn _ list (Option.mem_toList.2 hlist)
      split
      · exact of_kept hchild hlist
      · exact List.forall_mem_singleton.2 hlist

theorem of_function (hn : P n) : ∀ m ∈ (Plan.function n).inputs, P m := by
  rw [inputs_function]
  refine List.forall_mem_append.2 ⟨List.forall_mem_append.2
    ⟨of_childByField hchild hn _, ?_⟩, of_childByField hchild hn _⟩
  unfold Plan.allParameters
  split
  · exact of_parameters hchild hn
  · exact of_childByField hchild hn _

theorem of_method (hn : P n) : ∀ m ∈ (Plan.method n).inputs, P m := by
  rw [inputs_method]
  refine List.forall_mem_append.2 ⟨List.forall_mem_append.2
    ⟨fun m hm => ?_, of_parameters hchild hn⟩, of_childByField hchild hn _⟩
  exact of_kept hchild hn m (List.mem_filter.1 hm).1

/-- What children have from their parents, the nodes that a plan asks for have from its node. -/
theorem of_inputs {p : Plan} (hn : P n) (hp : plan src n = .ok p) : ∀ m ∈ p.inputs, P m := by
  unfold plan at hp
  split at hp
  · cases hp
    exact of_kept hchild hn
  split at hp
  · rw [inputs_of_string hp]
    exact List.forall_mem_nil _
  split at hp
  · cases hp
    exact List.forall_mem_nil _
  split at hp
  · cases hp
    exact List.forall_mem_nil _
  split at hp
  · cases hp
    rw [inputs_importDecl]
    refine List.forall_mem_append.2 ⟨of_childByField hchild hn _, fun m hm => ?_⟩
    exact hchild n hn m (List.mem_of_find?_eq_some (Option.mem_toList.1 hm))
  split at hp
  · cases hp
    exact of_call hchild hn
  split at hp
  · cases hp
    exact of_function hchild hn
  split at hp
  · cases hp
    exact of_method hchild hn
  · cases hp
    exact of_kept hchild hn

theorem of_asked (hn : P n) : ∀ m ∈ asked src n, P m := by
  induction hw : n.weight using Nat.strongRecOn generalizing n with
  | _ w ih =>
    cases hp : plan src n with
    | error f =>
      rw [asked_of_error hp]
      exact List.forall_mem_singleton.2 hn
    | ok p =>
      rw [asked_of_ok hp]
      refine List.forall_mem_cons.2 ⟨hn, ?_⟩
      intro m hm
      obtain ⟨k, hk, hm⟩ := List.mem_flatMap.1 hm
      have hlt := weights_inputs_lt hp
      have hle := Node.weight_le_of_mem hk
      exact ih k.weight (by omega) (of_inputs hchild hn hp k hk) rfl m hm

end Hereditary

theorem findSome?_flatMap {α β γ : Type} (g : β → Option γ) (f : α → List β) (xs : List α) :
    (xs.flatMap f).findSome? g = xs.findSome? fun x => (f x).findSome? g := by
  induction xs with
  | nil => rfl
  | cons x xs ih =>
    rw [List.flatMap_cons, List.findSome?_append, List.findSome?_cons, ih]
    cases (f x).findSome? g <;> rfl

/-- Lowering ends in the fault of the first plan that fails. -/
theorem fault?_lower (n : Node) :
    fault? (lower src n) = (asked src n).findSome? fun m => fault? (plan src m) := by
  induction hw : n.weight using Nat.strongRecOn generalizing n with
  | _ w ih =>
    rw [lower_eq]
    cases hp : plan src n with
    | error f =>
      rw [asked_of_error hp]
      simp [hp]
      rfl
    | ok p =>
      have hfirst : (p.inputs.findSome? fun m => fault? (lower src m)) =
          p.inputs.findSome? fun m => (asked src m).findSome? fun k => fault? (plan src k) := by
        refine findSome?_congr fun m hm => ih m.weight ?_ m rfl
        have hlt := weights_inputs_lt hp
        have hle := Node.weight_le_of_mem hm
        omega
      rw [asked_of_ok hp, List.findSome?_cons, hp, findSome?_flatMap]
      refine Eq.trans ?_ hfirst
      change fault? (carryOut src p) = p.inputs.findSome? fun m => fault? (lower src m)
      rw [← fault?_mapM, carryOut]
      cases p.inputs.mapM (lower src) <;> rfl

/-- The escapes that the plan of a node decodes: those of a string literal. -/
def Node.escapes (n : Node) : List Node :=
  if n.kind = "string" then n.children.filter Node.isEscape else []

theorem fault?_plan (n : Node) :
    fault? (plan src n) = n.escapes.findSome? fun e => fault? (Escape.decode (e.text src)) := by
  unfold Node.escapes
  by_cases hs : n.kind = "string"
  · rw [plan, if_neg (by rw [hs]; decide), if_pos hs, if_pos hs, fault?_map, stringValue,
      fault?_stringPieces]
  · rw [if_neg hs, plan]
    repeat' split
    all_goals rfl

/-- The escapes of the string literals that lowering comes by. -/
def escapesRead (src : List UInt8) (root : Node) : List Node :=
  (asked src root).flatMap Node.escapes

/-- Lowering fails as the first escape does that it comes by and that has no value. -/
theorem fault?_lower_eq (root : Node) :
    fault? (lower src root) =
      (escapesRead src root).findSome? fun e => fault? (Escape.decode (e.text src)) := by
  rw [fault?_lower, escapesRead, findSome?_flatMap]
  simp only [fault?_plan]

end Asked

end LazyLint.Cst
